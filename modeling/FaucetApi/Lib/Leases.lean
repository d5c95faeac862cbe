/- module: FaucetApi/Lib/Leases
   layer: library
   digest: Keys on lease: granted until an instant, used at most once, dropped when expired. -/

import FaucetApi.Lib.Simulation
import Mathlib.Algebra.Order.Monoid.Defs
import Mathlib.Algebra.Order.Monoid.Unbundled.Pow
import Mathlib.Tactic.GCongr

set_option autoImplicit false
set_option relaxedAutoImplicit false

namespace FaucetApi.Lib.Leases

open FaucetApi.Lib.Runs
open FaucetApi.Lib.Simulation

universe u v w

/-- What a key is let for, until when, and whether its holder has used it. -/
structure Lease (V : Type v) (T : Type w) where
  value : V
  expiresAt : T
  used : Bool

structure Store (K : Type u) (V : Type v) (T : Type w) where
  now : T
  held : K → Option (Lease V T)

inductive Label (K : Type u) (V : Type v) (T : Type w) where
  | advance
  | grant (key : K) (value : V) (expiresAt : T)
  | use (key : K)
  | drop (key : K)

variable {K : Type u} {V : Type v} {T : Type w}

/-- A lease may outlast its expiry for as long as it is not dropped, and a grant may be for an
instant that has passed. -/
inductive Step [DecidableEq K] [LE T] : Store K V T → Label K V T → Store K V T → Prop
  | advance {s : Store K V T} {now : T} : s.now ≤ now → Step s .advance { s with now := now }
  | grant {s : Store K V T} {key : K} {value : V} {expiresAt : T} :
      s.held key = none →
      Step s (.grant key value expiresAt)
        { s with held := Function.update s.held key (some ⟨value, expiresAt, false⟩) }
  | use {s : Store K V T} {key : K} {lease : Lease V T} :
      s.held key = some lease → lease.used = false →
      Step s (.use key)
        { s with held := Function.update s.held key (some { lease with used := true }) }
  | drop {s : Store K V T} {key : K} {lease : Lease V T} :
      s.held key = some lease → lease.expiresAt ≤ s.now →
      Step s (.drop key) { s with held := Function.update s.held key none }

def Initial (s : Store K V T) : Prop := s.held = fun _ => none

abbrev Trace (K : Type u) (V : Type v) (T : Type w) :=
  List (Transition (Store K V T) (Label K V T))

def Label.grants [DecidableEq K] (key : K) : Label K V T → Bool
  | .grant other _ _ => decide (other = key)
  | _ => false

def Label.uses [DecidableEq K] (key : K) : Label K V T → Bool
  | .use other => decide (other = key)
  | _ => false

def grants [DecidableEq K] (key : K) (ts : Trace K V T) : ℕ :=
  ts.countP (fun x => x.label.grants key)

def uses [DecidableEq K] (key : K) (ts : Trace K V T) : ℕ := ts.countP (fun x => x.label.uses key)

theorem grants_snoc [DecidableEq K] (key : K) (ts : Trace K V T)
    (x : Transition (Store K V T) (Label K V T)) :
    grants key (ts ++ [x]) = grants key ts + (x.label.grants key).toNat := countP_snoc _ ts x

theorem uses_snoc [DecidableEq K] (key : K) (ts : Trace K V T)
    (x : Transition (Store K V T) (Label K V T)) :
    uses key (ts ++ [x]) = uses key ts + (x.label.uses key).toNat := countP_snoc _ ts x

def Store.unused (s : Store K V T) (key : K) : ℕ :=
  match s.held key with
  | none => 0
  | some lease => if lease.used then 0 else 1

theorem unused_le_one (s : Store K V T) (key : K) : s.unused key ≤ 1 := by
  unfold Store.unused
  split
  · exact Nat.zero_le 1
  · split <;> decide

theorem unused_of_initial {s : Store K V T} (init : Initial s) (key : K) : s.unused key = 0 := by
  unfold Store.unused
  rw [init]

section

variable [DecidableEq K] [LE T] {ts : Trace K V T} {s₀ s s' : Store K V T}
variable {l : Label K V T} {key : K}

private theorem uses_step (key : K) (taken : Step s l s') :
    (l.uses key).toNat + s'.unused key ≤ (l.grants key).toNat + s.unused key := by
  cases taken with
  | advance _ => exact le_rfl
  | @grant other _ _ free =>
      by_cases here : other = key
      · subst here
        simp [Label.uses, Label.grants, Store.unused, free]
      · simp [Label.uses, Label.grants, Store.unused, Ne.symm here]
  | @use other lease held unused =>
      by_cases here : other = key
      · subst here
        simp [Label.uses, Label.grants, Store.unused, held, unused]
      · simp [Label.uses, Label.grants, Store.unused, here, Ne.symm here]
  | @drop other _ held _ =>
      by_cases here : other = key
      · subst here
        simp [Label.uses, Label.grants, Store.unused]
      · simp [Label.uses, Label.grants, Store.unused, Ne.symm here]

/-- In any stretch the uses of a key are at most its grants, and one more if its lease was unused
at the beginning. -/
theorem uses_add_unused_le (key : K) (run : Stretch Step s₀ ts s) :
    uses key ts + s.unused key ≤ grants key ts + s₀.unused key := by
  induction run with
  | start same => simp [uses, grants, same]
  | next _ taken ih =>
      have moved := uses_step key taken
      rw [uses_snoc, grants_snoc]
      dsimp only
      omega

end

section

variable [DecidableEq K] [LinearOrder T] {ts : Trace K V T} {s₀ s s' : Store K V T}
variable {l : Label K V T} {key : K}

private theorem now_le_step (taken : Step s l s') : s.now ≤ s'.now := by
  cases taken with
  | advance later => exact later
  | _ => exact le_rfl

/-- The key is not granted again before this instant. -/
def Store.freeFrom (s : Store K V T) (key : K) : T :=
  match s.held key with
  | none => s.now
  | some lease => lease.expiresAt

private theorem freeFrom_le_step (taken : Step s l s') (other : l.grants key = false) :
    s.freeFrom key ≤ s'.freeFrom key := by
  cases taken with
  | advance later =>
      unfold Store.freeFrom
      cases s.held key with
      | none => exact later
      | some lease => exact le_rfl
  | @grant granted _ _ _ =>
      have apart : granted ≠ key := by simpa [Label.grants] using other
      simp [Store.freeFrom, Ne.symm apart]
  | @use used lease held _ =>
      by_cases here : used = key
      · subst here
        simp [Store.freeFrom, held]
      · simp [Store.freeFrom, Ne.symm here]
  | @drop dropped lease held expired =>
      by_cases here : dropped = key
      · subst here
        simpa [Store.freeFrom, held] using expired
      · simp [Store.freeFrom, Ne.symm here]

theorem held_until_expired {lease : Lease V T} (run : Stretch Step s₀ ts s)
    (held : s₀.held key = some lease) :
    lease.expiresAt ≤ s.now ∨
      s.held key = some { lease with used := lease.used || decide (0 < uses key ts) } := by
  induction run with
  | start same => exact .inr (by simp [uses, same, held])
  | @next ts s s' l prior taken ih =>
      rcases ih with expired | kept
      · exact .inl (expired.trans (now_le_step taken))
      cases taken with
      | advance _ => exact .inr (by simp [uses_snoc, Label.uses, kept])
      | @grant granted _ _ free =>
          have apart : key ≠ granted := by
            rintro rfl
            simp [free] at kept
          exact .inr (by simp [uses_snoc, Label.uses, kept, Function.update_of_ne apart])
      | @use used found there _ =>
          by_cases here : used = key
          · subst here
            obtain rfl := Option.some.inj (there.symm.trans kept)
            exact .inr (by simp [uses_snoc, Label.uses])
          · right
            simp [uses_snoc, Label.uses, kept, here, Function.update_of_ne (Ne.symm here)]
      | @drop dropped found there expired =>
          by_cases here : dropped = key
          · subst here
            obtain rfl := Option.some.inj (there.symm.trans kept)
            exact .inl expired
          · right
            simp [uses_snoc, Label.uses, kept, Function.update_of_ne (Ne.symm here)]

end

section

variable [DecidableEq K] [AddCommMonoid T] [LinearOrder T]
variable {ts : Trace K V T} {s₀ s s' : Store K V T} {key : K} {period : T}

/-- A step that grants, if it does, for at least this long. -/
def Lasting (period : T) (x : Transition (Store K V T) (Label K V T)) : Prop :=
  ∀ key value expiresAt, x.label = .grant key value expiresAt → x.source.now + period ≤ expiresAt

private theorem freeFrom_grant {l : Label K V T} (taken : Step s l s') (granted : l.grants key)
    (lasting : Lasting period ⟨s, l, s'⟩) :
    s.freeFrom key = s.now ∧ s'.now = s.now ∧ s.now + period ≤ s'.freeFrom key := by
  cases taken with
  | @grant other _ expiresAt free =>
      obtain rfl : other = key := by simpa [Label.grants] using granted
      refine ⟨by simp [Store.freeFrom, free], rfl, ?_⟩
      simpa [Store.freeFrom] using lasting _ _ _ rfl
  | _ => simp [Label.grants] at granted

variable [IsOrderedAddMonoid T]

theorem grants_spaced (run : Stretch Step s₀ ts s) (lasting : ∀ x ∈ ts, Lasting period x) :
    ∀ n, grants key ts = n + 1 →
      s₀.now + n • period ≤ s.now ∧ s₀.now + (n + 1) • period ≤ s.freeFrom key := by
  induction run with
  | start same => simp [grants]
  | @next ts s s' l prior taken ih =>
      intro n count
      have before := ih fun x member => lasting x (List.mem_append_left _ member)
      have later := now_le_step taken
      have started : s₀.now ≤ s.now :=
        prior.invariant (P := fun s => s₀.now ≤ s.now) (fun s same => same ▸ le_rfl)
          (fun s l s' ordered taken => ordered.trans (now_le_step taken))
      rw [grants_snoc] at count
      cases granted : l.grants key with
      | false =>
          obtain ⟨passed, free⟩ := before n (by simpa [granted] using count)
          exact ⟨passed.trans later, free.trans (freeFrom_le_step taken granted)⟩
      | true =>
          obtain ⟨free, same, long⟩ := freeFrom_grant taken granted
            (lasting _ (List.mem_append_right _ (List.mem_singleton_self _)))
          have passed : s₀.now + n • period ≤ s.now := by
            cases n with
            | zero => simpa using started
            | succ n =>
                rw [← free]
                exact (before n (by simpa [granted] using count)).2
          refine ⟨same ▸ passed, ?_⟩
          calc s₀.now + (n + 1) • period
            _ = s₀.now + n • period + period := by rw [succ_nsmul, add_assoc]
            _ ≤ s.now + period := by gcongr
            _ ≤ s'.freeFrom key := long

/-- A key is used at most once a period, but for the lease that is unused at the beginning. -/
theorem uses_spaced (run : Stretch Step s₀ ts s) (lasting : ∀ x ∈ ts, Lasting period x) {n : ℕ}
    (count : s₀.unused key + n + 1 ≤ uses key ts) (nonneg : 0 ≤ period) :
    s₀.now + n • period ≤ s.now := by
  have bound := uses_add_unused_le key run
  obtain ⟨more, total⟩ : ∃ more, grants key ts = n + more + 1 := ⟨grants key ts - n - 1, by omega⟩
  have spaced := (grants_spaced run lasting (n + more) total).1
  refine le_trans ?_ spaced
  rw [add_nsmul, ← add_assoc]
  exact le_add_of_nonneg_right (nsmul_nonneg nonneg more)

end

end FaucetApi.Lib.Leases
