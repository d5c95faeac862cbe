/- module: FaucetApi/Lib/Simulation
   layer: library
   digest: Runs in stretches, and refinement of one transition system by another. -/

import FaucetApi.Lib.Runs
import Mathlib.Data.List.Induction
import Mathlib.Order.WellFounded

set_option autoImplicit false
set_option relaxedAutoImplicit false

namespace FaucetApi.Lib.Simulation

open FaucetApi.Lib.Runs

universe u v

variable {S S' : Type u} {L L' : Type v}
variable {initial : S → Prop} {step : S → L → S → Prop}
variable {initial' : S' → Prop} {stepOf : S' → L' → S' → Prop}
variable {a b : List (Transition S L)} {s₀ s : S}

/-- A stretch of a run: the steps taken from one state to another. -/
abbrev Stretch (step : S → L → S → Prop) (s₀ : S) := Run (fun s => s = s₀) step

theorem stretch_nil (_ : Run initial step a s₀) : Stretch step s₀ [] s₀ := .start rfl

theorem continued (run : Run initial step a s₀) (later : Stretch step s₀ b s) :
    Run initial step (a ++ b) s := by
  induction later with
  | start same =>
      subst same
      simpa using run
  | next _ taken ih =>
      rw [← List.append_assoc]
      exact .next ih taken

theorem exists_stretch (run : Run initial step (a ++ b) s) :
    ∃ s₀, Run initial step a s₀ ∧ Stretch step s₀ b s := by
  induction b using List.reverseRecOn generalizing s with
  | nil => exact ⟨s, by simpa using run, .start rfl⟩
  | append_singleton b x ih =>
      rw [← List.append_assoc] at run
      obtain ⟨before, taken, rfl⟩ := run.last
      obtain ⟨s₀, first, later⟩ := ih before
      exact ⟨s₀, first, .next later taken⟩

/-- What holds after one of the steps of a run, and is kept by every later one, holds in the end. -/
theorem holds_since {P : S → Prop} {ts : List (Transition S L)} {x : Transition S L}
    (run : Run initial step ts s) (split : ts = a ++ x :: b) (here : P x.target)
    (keep : ∀ y ∈ b, P y.source → step y.source y.label y.target → P y.target) : P s := by
  induction run generalizing b with
  | start _ => simp at split
  | next prior taken ih =>
      rcases snoc_cut split with ⟨rfl, rfl, rfl⟩ | ⟨c, rfl, earlier⟩
      · exact here
      · refine keep _ (List.mem_append_right _ List.mem_cons_self) (ih earlier ?_) taken
        exact fun y member => keep y (List.mem_append_left _ member)

theorem holds_before {P : S → Prop} {ts : List (Transition S L)} {x : Transition S L}
    (run : Run initial step ts s) (split : ts = a ++ x :: b) (here : P x.target)
    (keep : ∀ y ∈ b, P y.source → step y.source y.label y.target → P y.target) :
    ∀ y ∈ b, P y.source := by
  intro y member
  obtain ⟨b₁, b₂, rfl⟩ := List.append_of_mem member
  have split' : ts = (a ++ x :: b₁) ++ y :: b₂ := by rw [split, List.append_assoc]; rfl
  exact holds_since (run.cut split') rfl here
    fun z before => keep z (List.mem_append_left _ before)

/-! Systems that settle: some of their steps cannot go on for ever. -/

section

variable {keep : S → Prop} {inner : L → Prop}

theorem exists_settled (ends : WellFounded fun s' s => keep s ∧ ∃ l, inner l ∧ step s l s')
    (kept : ∀ s l s', keep s → inner l → step s l s' → keep s') (s : S) : keep s →
      ∃ b s', Stretch step s b s' ∧ (∀ x ∈ b, inner x.label) ∧ keep s' ∧
        ∀ l s'', inner l → ¬ step s' l s'' := by
  induction s using ends.induction with
  | _ s ih =>
      intro here
      by_cases more : ∃ l s', inner l ∧ step s l s'
      · obtain ⟨l, s₁, inside, taken⟩ := more
        obtain ⟨b, s', later, all, there, stuck⟩ :=
          ih s₁ ⟨here, l, inside, taken⟩ (kept s l s₁ here inside taken)
        refine ⟨_, s', continued (.next (.start rfl) taken) later, ?_, there, stuck⟩
        intro x member
        rcases List.mem_append.mp member with first | rest
        · rw [List.mem_singleton.mp first]
          exact inside
        · exact all x rest
      · refine ⟨[], s, .start rfl, by simp, here, ?_⟩
        intro l s' inside taken
        exact more ⟨l, s', inside, taken⟩

/-- No schedule takes inner steps for ever. -/
theorem no_endless_schedule (ends : WellFounded fun s' s => keep s ∧ ∃ l, inner l ∧ step s l s')
    (kept : ∀ s l s', keep s → inner l → step s l s' → keep s') (f : ℕ → S) (here : keep (f 0)) :
    ¬ ∀ n, ∃ l, inner l ∧ step (f n) l (f (n + 1)) := by
  intro taken
  have along (n : ℕ) : keep (f n) := by
    induction n with
    | zero => exact here
    | succ n ih =>
        obtain ⟨l, inside, moved⟩ := taken n
        exact kept _ _ _ ih inside moved
  obtain ⟨_, ⟨n, rfl⟩, least⟩ := ends.has_min (Set.range f) ⟨f 0, 0, rfl⟩
  exact least (f (n + 1)) ⟨n + 1, rfl⟩ ⟨along n, taken n⟩

end

/-- Every step that the one system takes from a reachable state is, seen through `state` and
`label`, a step of the other or none. -/
structure Refinement (initial : S → Prop) (step : S → L → S → Prop) (initial' : S' → Prop)
    (stepOf : S' → L' → S' → Prop) where
  state : S → S'
  label : L → Option L'
  base : ∀ s, initial s → initial' (state s)
  part : ∀ {a s l s'}, Run initial step a s → step s l s' →
    TakesPart stepOf (state s) (label l) (state s')

namespace Refinement

variable (r : Refinement initial step initial' stepOf)

def view (ts : List (Transition S L)) : List (Transition S' L') :=
  ts.filterMap (Transition.project r.state r.label)

theorem stretch (run : Run initial step a s₀) (later : Stretch step s₀ b s) :
    Stretch stepOf (r.state s₀) (r.view b) (r.state s) := by
  induction later with
  | start same => exact .start (congrArg r.state same)
  | @next b s s' l prior taken ih =>
      have moved := r.part (continued run prior) taken
      rw [view, filterMap_snoc, ← view]
      cases seen : r.label l with
      | none =>
          rw [seen] at moved
          change r.state s' = r.state s at moved
          simpa [Transition.project, seen, moved] using ih
      | some l' =>
          rw [seen] at moved
          simpa [Transition.project, seen] using Run.next ih moved

theorem run (run : Run initial step a s) : Run initial' stepOf (r.view a) (r.state s) := by
  obtain ⟨s₀, init, later⟩ := run.from_initial
  simpa using continued (.start (r.base s₀ init)) (r.stretch (.start init) later)

theorem countP_view (p : L' → Bool) (ts : List (Transition S L)) :
    (r.view ts).countP (fun x => p x.label) = ts.countP (fun x => (r.label x.label).any p) := by
  rw [view, List.countP_filterMap]
  congr 1
  funext x
  cases seen : r.label x.label <;> simp [Transition.project, seen]

end Refinement

end FaucetApi.Lib.Simulation
