/- module: FaucetApi/Lib/MaxHeap
   layer: library
   digest: A max-heap seen as the multiset of its elements; ties may be broken either way. -/

import Mathlib.Data.Multiset.AddSub
import Mathlib.Data.Multiset.Filter
import Mathlib.Data.Multiset.ZeroCons
import Mathlib.Order.Defs.LinearOrder

set_option autoImplicit false
set_option relaxedAutoImplicit false

namespace FaucetApi.Lib.MaxHeap

universe u v

/-- The elements of the heap. The array layout decides only which of several greatest elements is
on top. -/
abbrev Heap (α : Type u) := Multiset α

variable {α : Type u} [Ord α]

/-- `e` may be on top of the heap: it is in it and no element compares greater. -/
def Peek (heap : Heap α) (e : α) : Prop :=
  e ∈ heap ∧ ∀ e' ∈ heap, compare e' e ≠ .gt

def Pop (heap : Heap α) (e : α) (rest : Heap α) : Prop :=
  Peek heap e ∧ heap = e ::ₘ rest

/-- An implementation: the elements of a heap, and the operations as they are documented. It does
not say which of several greatest elements `peek` and `pop` choose, nor that they choose alike. -/
structure Operations (H : Type v) (α : Type u) [Ord α] where
  elements : H → Heap α
  peek : H → Option α
  pop : H → Option (α × H)
  peek_none : ∀ heap, peek heap = none → elements heap = 0
  peek_some : ∀ heap e, peek heap = some e → Peek (elements heap) e
  pop_none : ∀ heap, pop heap = none → elements heap = 0
  pop_some : ∀ heap e rest, pop heap = some (e, rest) → Pop (elements heap) e (elements rest)

variable {heap rest : Heap α} {e : α} {p : α → Prop} [DecidablePred p]

theorem Peek.filter (peek : Peek heap e) (belongs : p e) : Peek (heap.filter p) e :=
  ⟨Multiset.mem_filter.mpr ⟨peek.1, belongs⟩,
    fun e' member => peek.2 e' (Multiset.mem_of_mem_filter member)⟩

theorem Pop.filter (pop : Pop heap e rest) (belongs : p e) :
    Pop (heap.filter p) e (rest.filter p) := by
  refine ⟨pop.1.filter belongs, ?_⟩
  rw [pop.2, Multiset.filter_cons_of_pos _ belongs]

theorem Pop.filter_eq (pop : Pop heap e rest) (foreign : ¬ p e) :
    heap.filter p = rest.filter p := by
  rw [pop.2, Multiset.filter_cons_of_neg _ foreign]

omit [DecidablePred p] in
theorem Pop.card_lt (pop : Pop heap e rest) : rest.card < heap.card := by
  rw [pop.2, Multiset.card_cons]
  exact Nat.lt_succ_self _

variable {H : Type v} (ops : Operations H α)

theorem Operations.pop_ne_none {heap : H} (peek : ops.peek heap = some e) :
    ops.pop heap ≠ none := by
  intro empty
  have member := (ops.peek_some heap e peek).1
  rw [ops.pop_none heap empty] at member
  exact Multiset.notMem_zero e member

end FaucetApi.Lib.MaxHeap
