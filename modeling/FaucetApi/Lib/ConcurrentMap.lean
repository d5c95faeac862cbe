/- module: FaucetApi/Lib/ConcurrentMap
   layer: library
   digest: A concurrent map seen through its atomic get, compare-and-swap and remove. -/

import Mathlib.Logic.Function.Basic

set_option autoImplicit false
set_option relaxedAutoImplicit false

namespace FaucetApi.Lib.ConcurrentMap

universe u v

/-- Between two atomic operations the map is a partial function. -/
abbrev AtomicMap (K : Type u) (V : Type v) := K → Option V

/-- What a failed compare-and-swap reports: the value that was found. -/
structure CasFailure (V : Type v) where
  actual : Option V

variable {K : Type u} {V : Type v} [DecidableEq K] [DecidableEq V]

/-- Compare the binding of `k` with `old` and, when they are equal, replace it by `new`. -/
def cas (m : AtomicMap K V) (k : K) (old new : Option V) :
    Except (CasFailure V) (Option V) × AtomicMap K V :=
  if m k = old then (.ok (m k), Function.update m k new) else (.error ⟨m k⟩, m)

def remove (m : AtomicMap K V) (k : K) : Option V × AtomicMap K V :=
  (m k, Function.update m k none)

variable {m m' : AtomicMap K V} {k : K} {old new found : Option V}

theorem cas_ok : cas m k old new = (.ok found, m') ↔
    m k = old ∧ found = old ∧ m' = Function.update m k new := by
  unfold cas
  split
  · rename_i same
    simp only [Prod.mk.injEq, Except.ok.injEq, same, true_and]
    constructor <;> rintro ⟨rfl, rfl⟩ <;> exact ⟨rfl, rfl⟩
  · rename_i differ
    simp [differ]

theorem cas_error : cas m k old new = (.error ⟨found⟩, m') ↔
    m k ≠ old ∧ found = m k ∧ m' = m := by
  unfold cas
  split
  · rename_i same
    simp [same]
  · rename_i differ
    simp only [Prod.mk.injEq, Except.error.injEq, CasFailure.mk.injEq, ne_eq, differ,
      not_false_eq_true, true_and]
    constructor <;> rintro ⟨rfl, rfl⟩ <;> exact ⟨rfl, rfl⟩

omit [DecidableEq V] in
theorem remove_eq : remove m k = (found, m') ↔
    found = m k ∧ m' = Function.update m k none := by
  simp only [remove, Prod.mk.injEq, eq_comm]

def only (k : K) (m : AtomicMap K V) : AtomicMap K V := fun key => if key = k then m key else none

variable {v : Option V} {key : K}

omit [DecidableEq V] in
@[simp] theorem only_self : only k m k = m k := if_pos rfl

omit [DecidableEq V] in
@[simp] theorem only_empty : only k (fun _ => (none : Option V)) = fun _ => none := by
  ext key
  simp [only]

omit [DecidableEq V] in
theorem only_update_self : only k (Function.update m k v) = Function.update (only k m) k v := by
  ext key
  by_cases same : key = k
  · subst same
    simp
  · simp [only, same]

omit [DecidableEq V] in
theorem only_update_of_ne (other : key ≠ k) : only k (Function.update m key v) = only k m := by
  ext key'
  by_cases same : key' = k
  · subst same
    simp [only, Ne.symm other]
  · simp [only, same]

end FaucetApi.Lib.ConcurrentMap
