/- module: FaucetApi/Lib/Journaling
   layer: library
   digest: Content in memory, its unwritten and written changes, and what a crash leaves of it. -/

import Mathlib.Algebra.Group.Action.Defs

/-!
Changes form a monoid that acts on the content, the later change on the left. Content that is
changed in memory is written as the changes since it was last written. A crash loses what is in
memory, and the content is then what the written changes make of the blank one.
-/

set_option autoImplicit false
set_option relaxedAutoImplicit false

namespace FaucetApi.Lib.Journaling

universe u v

/-- Content and its changes since the last commit, both in memory, and the changes written. -/
structure Journal (W : Type u) (C : Type v) where
  content : W
  staged : C
  durable : C

variable {W : Type u} {C : Type v} [AddMonoid C] [AddAction C W]

def opened (blank : W) (durable : C) : Journal W C := ⟨durable +ᵥ blank, 0, durable⟩

namespace Journal

def stage (j : Journal W C) (change : C) : Journal W C :=
  ⟨change +ᵥ j.content, change + j.staged, j.durable⟩

def commit (j : Journal W C) : Journal W C := ⟨j.content, 0, j.staged + j.durable⟩

def saved (blank : W) (j : Journal W C) : W := j.durable +ᵥ blank

/-- The content is the saved one with the staged changes. -/
def Sound (blank : W) (j : Journal W C) : Prop := j.content = j.staged +ᵥ j.saved blank

variable {blank : W} {j : Journal W C} {change : C}

theorem opened_sound (blank : W) (durable : C) : Sound blank (opened blank durable) :=
  (zero_vadd C _).symm

@[simp] theorem saved_opened (blank : W) (durable : C) :
    (opened blank durable).saved blank = (opened blank durable).content := rfl

@[simp] theorem saved_stage : (j.stage change).saved blank = j.saved blank := rfl

theorem Sound.stage (sound : Sound blank j) (change : C) : Sound blank (j.stage change) := by
  change change +ᵥ j.content = (change + j.staged) +ᵥ j.saved blank
  rw [add_vadd, ← sound]

theorem Sound.saved_commit (sound : Sound blank j) : j.commit.saved blank = j.content := by
  change (j.staged + j.durable) +ᵥ blank = j.content
  rw [add_vadd, sound]
  rfl

theorem Sound.commit (sound : Sound blank j) : Sound blank j.commit := by
  change j.content = (0 : C) +ᵥ j.commit.saved blank
  rw [zero_vadd, sound.saved_commit]

omit [AddAction C W] in
theorem commit_of_unstaged (unstaged : j.staged = 0) : j.commit = j := by
  obtain ⟨content, staged, durable⟩ := j
  obtain rfl : staged = 0 := unstaged
  simp [Journal.commit]

end Journal

end FaucetApi.Lib.Journaling
