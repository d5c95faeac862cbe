/- module: FaucetApi/Pow/Removal
   layer: results
   digest: What remove_expired leaves of the heap and of the challenge set, and what it returns. -/

import FaucetApi.Pow.Machine
import Mathlib.Data.List.MinMax
import Mathlib.Logic.Relation
import Mathlib.Order.Bounds.Basic

set_option autoImplicit false
set_option relaxedAutoImplicit false

namespace FaucetApi.Pow.Removal

open FaucetApi.Lib.ConcurrentMap
open FaucetApi.Lib.MaxHeap
open FaucetApi.Pow.Challenges
open FaucetApi.Pow.Eviction
open FaucetApi.Pow.Machine

section

variable {H : Type} (ops : Operations H EvictionEntry)

/-- The loop of `remove_expired`: the heap, `to_expire` and `next_wakeup` after it, or `none` where
`heap.pop().unwrap()` panics. -/
def popLoop (now : Instant) (heap : H) (toExpire : List EvictionEntry) :
    Option (H × List EvictionEntry × Option Instant) :=
  match ops.peek heap with
  | some entry =>
      if entry.expiresAt ≤ now then
        match _popped : ops.pop heap with
        | some (top, rest) => popLoop now rest (toExpire ++ [top])
        | none => none
      else some (heap, toExpire, some entry.expiresAt)
  | none => some (heap, toExpire, none)
termination_by (ops.elements heap).card
decreasing_by exact (ops.pop_some heap top rest _popped).card_lt

def removeKeys (cs : ChallengeSet) (toExpire : List EvictionEntry) : ChallengeSet :=
  toExpire.foldl (fun cs entry => (remove cs entry.key).2) cs

/-- `remove_expired`, at the instant that it reads from the clock. -/
def removeExpired (now : Instant) (heap : H) (cs : ChallengeSet) :
    Option (H × ChallengeSet × Option Instant) :=
  (popLoop ops now heap []).map fun (heap, toExpire, nextWakeup) =>
    (heap, removeKeys cs toExpire, nextWakeup)

end

/-- `nextWakeup` is when the first entry of the heap expires, or `none` for an empty heap. -/
def Deadline (heap : Heap EvictionEntry) (nextWakeup : Option Instant) : Prop :=
  (nextWakeup = none ↔ heap = 0) ∧
    ∀ t, nextWakeup = some t ↔ IsLeast {t | ∃ entry ∈ heap, entry.expiresAt = t} t

/-- The loop took the expired entries off the heap, and no other. -/
structure Drained (now : Instant) (heap heap' : Heap EvictionEntry) (popped : List EvictionEntry)
    (nextWakeup : Option Instant) : Prop where
  split : heap = popped + heap'
  expired : ∀ entry ∈ popped, entry.expiresAt ≤ now
  live : ∀ entry ∈ heap', now < entry.expiresAt
  deadline : Deadline heap' nextWakeup

variable {now : Instant} {heap heap' rest : Heap EvictionEntry} {entry top : EvictionEntry}
variable {popped : List EvictionEntry} {nextWakeup : Option Instant} {cs : ChallengeSet}

private theorem deadline_empty : Deadline 0 none := by
  refine ⟨iff_of_true rfl rfl, fun t => iff_of_false (by simp) ?_⟩
  rintro ⟨⟨entry, member, _⟩, _⟩
  exact Multiset.notMem_zero entry member

private theorem deadline_peek (peek : Peek heap entry) : Deadline heap (some entry.expiresAt) := by
  have least : IsLeast {t | ∃ entry ∈ heap, entry.expiresAt = t} entry.expiresAt := by
    refine ⟨⟨entry, peek.1, rfl⟩, ?_⟩
    rintro _ ⟨other, member, rfl⟩
    exact peek_expires_first peek member
  refine ⟨iff_of_false (by simp) ?_, fun t => ?_⟩
  · rintro rfl
    exact Multiset.notMem_zero entry peek.1
  · rw [Option.some_inj]
    constructor
    · rintro rfl
      exact least
    · exact least.unique

private theorem drained_empty : Drained now 0 0 [] none :=
  ⟨rfl, by simp, by simp, deadline_empty⟩

private theorem drained_peek (peek : Peek heap entry) (live : ¬ entry.expiresAt ≤ now) :
    Drained now heap heap [] (some entry.expiresAt) := by
  refine ⟨(zero_add _).symm, by simp, fun other member => ?_, deadline_peek peek⟩
  exact (not_le.mp live).trans_le (peek_expires_first peek member)

theorem Drained.pop (drained : Drained now rest heap' popped nextWakeup) (pop : Pop heap top rest)
    (expired : top.expiresAt ≤ now) : Drained now heap heap' (top :: popped) nextWakeup := by
  refine ⟨?_, ?_, drained.live, drained.deadline⟩
  · rw [pop.2, drained.split, ← Multiset.cons_coe, Multiset.cons_add]
  · intro entry member
    rcases List.mem_cons.mp member with rfl | older
    · exact expired
    · exact drained.expired entry older

section

variable {H : Type} (ops : Operations H EvictionEntry) {heap rest : H}
variable {toExpire : List EvictionEntry}

/-- What is taken off has expired when what is shown has, whichever of two equals it is. -/
theorem top_expired (peek : ops.peek heap = some entry) (expired : entry.expiresAt ≤ now)
    (pop : ops.pop heap = some (top, rest)) : top.expiresAt ≤ now :=
  (peek_expires_first (ops.pop_some heap top rest pop).1
    (ops.peek_some heap entry peek).1).trans expired

private theorem popLoop_pops (peek : ops.peek heap = some entry) (expired : entry.expiresAt ≤ now)
    (pop : ops.pop heap = some (top, rest)) :
    popLoop ops now heap toExpire = popLoop ops now rest (toExpire ++ [top]) := by
  rw [popLoop, peek]
  simp only [if_pos expired]
  split
  · rename_i same
    rw [pop] at same
    obtain ⟨rfl, rfl⟩ := Prod.mk.inj (Option.some.inj same)
    rfl
  · rename_i empty
    rw [pop] at empty
    cases empty

private theorem popLoop_stops (peek : ops.peek heap = some entry) (live : ¬ entry.expiresAt ≤ now) :
    popLoop ops now heap toExpire = some (heap, toExpire, some entry.expiresAt) := by
  rw [popLoop, peek]
  exact if_neg live

private theorem popLoop_empty (peek : ops.peek heap = none) :
    popLoop ops now heap toExpire = some (heap, toExpire, none) := by
  rw [popLoop, peek]

theorem popLoop_spec (now : Instant) (heap : H) (toExpire : List EvictionEntry) :
    ∃ heap' popped nextWakeup,
      popLoop ops now heap toExpire = some (heap', toExpire ++ popped, nextWakeup) ∧
        Drained now (ops.elements heap) (ops.elements heap') popped nextWakeup := by
  induction heap, toExpire using popLoop.induct ops now with
  | case1 heap toExpire entry peek expired top rest pop ih =>
      obtain ⟨heap', popped, nextWakeup, run, drained⟩ := ih
      refine ⟨heap', top :: popped, nextWakeup, ?_,
        drained.pop (ops.pop_some heap top rest pop) (top_expired ops peek expired pop)⟩
      rw [popLoop_pops ops peek expired pop, run, List.append_assoc, List.singleton_append]
  | case2 heap toExpire entry peek expired empty =>
      exact (ops.pop_ne_none peek empty).elim
  | case3 heap toExpire entry peek live =>
      refine ⟨heap, [], _, ?_, drained_peek (ops.peek_some heap entry peek) live⟩
      rw [popLoop_stops ops peek live, List.append_nil]
  | case4 heap toExpire peek =>
      refine ⟨heap, [], none, ?_, ?_⟩
      · rw [popLoop_empty ops peek, List.append_nil]
      · rw [ops.peek_none heap peek]
        exact drained_empty

end

theorem Drained.filter_eq (drained : Drained now heap heap' popped nextWakeup) :
    heap' = heap.filter fun entry => now < entry.expiresAt := by
  have gone : (popped : Heap EvictionEntry).filter (fun entry => now < entry.expiresAt) = 0 :=
    Multiset.filter_eq_nil.mpr fun entry member => not_lt.mpr (drained.expired entry member)
  have kept : heap'.filter (fun entry => now < entry.expiresAt) = heap' :=
    Multiset.filter_eq_self.mpr drained.live
  rw [drained.split, Multiset.filter_add, gone, kept, zero_add]

private theorem Drained.mem_popped (drained : Drained now heap heap' popped nextWakeup) :
    entry ∈ popped ↔ entry ∈ heap ∧ entry.expiresAt ≤ now := by
  constructor
  · intro member
    refine ⟨?_, drained.expired entry member⟩
    rw [drained.split]
    exact Multiset.mem_add.mpr (.inl member)
  · rintro ⟨member, expired⟩
    rw [drained.split] at member
    rcases Multiset.mem_add.mp member with here | there
    · exact here
    · exact absurd (drained.live entry there) (not_lt.mpr expired)

theorem removeKeys_apply (cs : ChallengeSet) (toExpire : List EvictionEntry) (key : Key) :
    removeKeys cs toExpire key =
      if key ∈ toExpire.map EvictionEntry.key then none else cs key := by
  induction toExpire generalizing cs with
  | nil => rfl
  | cons entry toExpire ih =>
      have tail : removeKeys cs (entry :: toExpire) =
          removeKeys (Function.update cs entry.key none) toExpire := rfl
      rw [tail, ih, List.map_cons]
      by_cases later : key ∈ toExpire.map EvictionEntry.key
      · rw [if_pos later, if_pos (List.mem_cons_of_mem _ later)]
      · rw [if_neg later, Function.update_apply]
        by_cases same : key = entry.key
        · rw [if_pos same, if_pos (same ▸ List.mem_cons_self)]
        · rw [if_neg same, if_neg]
          intro member
          rcases List.mem_cons.mp member with here | there
          · exact same here
          · exact later there

/-- A heap that is a list: of the entries that expire first, the first one is on top. -/
def listHeap : Operations (List EvictionEntry) EvictionEntry where
  elements heap := heap
  peek heap := heap.argmin EvictionEntry.expiresAt
  pop heap := (heap.argmin EvictionEntry.expiresAt).map fun top => (top, heap.erase top)
  peek_none heap empty := by
    rw [List.argmin_eq_none.mp empty]
    rfl
  peek_some heap top first :=
    ⟨List.argmin_mem first, fun _ member =>
      compare_ne_gt.mpr (List.le_of_mem_argmin member first)⟩
  pop_none heap empty := by
    rw [List.argmin_eq_none.mp (Option.map_eq_none_iff.mp empty)]
    rfl
  pop_some heap top rest popped := by
    obtain ⟨top', first, same⟩ := Option.map_eq_some_iff.mp popped
    obtain ⟨rfl, rfl⟩ := Prod.mk.inj same
    have member := List.argmin_mem first
    refine ⟨⟨member, fun _ other => compare_ne_gt.mpr (List.le_of_mem_argmin other first)⟩, ?_⟩
    exact Multiset.coe_eq_coe.mpr (List.perm_cons_erase member)

/-- For every heap, challenge set and instant, `remove_expired` ends, keeps exactly the entries that
are not expired, unbinds exactly the keys of the others, and returns when the next one expires. -/
theorem removeExpired_spec {H : Type} (ops : Operations H EvictionEntry) (now : Instant) (heap : H)
    (cs : ChallengeSet) :
    ∃ heap' cs' nextWakeup, removeExpired ops now heap cs = some (heap', cs', nextWakeup) ∧
      ops.elements heap' = (ops.elements heap).filter (fun entry => now < entry.expiresAt) ∧
      (∀ key, (∃ entry ∈ ops.elements heap, entry.expiresAt ≤ now ∧ entry.key = key) →
        cs' key = none) ∧
      (∀ key, (∀ entry ∈ ops.elements heap, entry.expiresAt ≤ now → entry.key ≠ key) →
        cs' key = cs key) ∧
      (nextWakeup = none ↔ ops.elements heap' = 0) ∧
      ∀ t, nextWakeup = some t ↔
        IsLeast {t | ∃ entry ∈ ops.elements heap', entry.expiresAt = t} t := by
  obtain ⟨heap', popped, nextWakeup, run, drained⟩ := popLoop_spec ops now heap []
  refine ⟨heap', removeKeys cs popped, nextWakeup, ?_, drained.filter_eq, fun key expired => ?_,
    fun key others => ?_, drained.deadline.1, drained.deadline.2⟩
  · rw [removeExpired, run]
    rfl
  · obtain ⟨entry, member, late, same⟩ := expired
    rw [removeKeys_apply, if_pos]
    exact List.mem_map.mpr ⟨entry, drained.mem_popped.mpr ⟨member, late⟩, same⟩
  · rw [removeKeys_apply, if_neg]
    intro removed
    obtain ⟨entry, member, same⟩ := List.mem_map.mp removed
    obtain ⟨inside, late⟩ := drained.mem_popped.mp member
    exact others entry inside late same

theorem removeExpired_spec_nonvacuous :
    ∃ heap' cs', removeExpired listHeap 5 [⟨⟨1⟩, .l1, 7⟩, ⟨⟨2⟩, .l2, 3⟩, ⟨⟨3⟩, .l1, 7⟩]
        (fun _ => none) = some (heap', cs', some 7) ∧
      listHeap.elements heap' = {⟨⟨1⟩, .l1, 7⟩, ⟨⟨3⟩, .l1, 7⟩} := by
  obtain ⟨heap', cs', nextWakeup, run, left, _, _, _, deadline⟩ :=
    removeExpired_spec listHeap 5 [⟨⟨1⟩, .l1, 7⟩, ⟨⟨2⟩, .l2, 3⟩, ⟨⟨3⟩, .l1, 7⟩] fun _ => none
  have kept : listHeap.elements heap' = {⟨⟨1⟩, .l1, 7⟩, ⟨⟨3⟩, .l1, 7⟩} := left.trans (by decide)
  have next : nextWakeup = some 7 := by
    rw [deadline, kept]
    exact ⟨⟨⟨⟨1⟩, .l1, 7⟩, by decide, rfl⟩, by simp⟩
  exact ⟨heap', cs', next ▸ run, kept⟩

/-! The function is one of the task's runs: those in which nothing else moves meanwhile. -/

def TaskMove (a b : Shared × Task) : Prop := ∃ event, TaskStep a.1 a.2 event b.1 b.2

section

variable {H : Type} (ops : Operations H EvictionEntry) (sh : Shared) (task : Task)

def withHeap (heap : Heap EvictionEntry) : Shared :=
  { sh with evictionQ := { sh.evictionQ with q := heap } }

def holdLock : Shared := { sh with evictionQ := { sh.evictionQ with locked := true } }

theorem popLoop_moves {heap heap' : H} {toExpire popped : List EvictionEntry}
    (same : sh.evictionQ.q = ops.elements heap)
    (run : popLoop ops now heap toExpire = some (heap', popped, nextWakeup)) :
    Relation.ReflTransGen TaskMove (sh, { task with pc := .popping now toExpire })
      (withHeap sh (ops.elements heap'),
        { task with pc := .removing popped nextWakeup }) := by
  induction heap, toExpire using popLoop.induct ops now generalizing sh with
  | case1 heap toExpire entry peek expired top rest pop ih =>
      have popped_top := ops.pop_some heap top rest pop
      rw [popLoop_pops ops peek expired pop] at run
      rw [← same] at popped_top
      have move : TaskMove (sh, { task with pc := .popping now toExpire })
          (withHeap sh (ops.elements rest),
            { task with pc := .popping now (toExpire ++ [top]) }) :=
        ⟨_, .popped rfl popped_top (top_expired ops peek expired pop)⟩
      exact .head move (ih (withHeap sh (ops.elements rest)) rfl run)
  | case2 heap toExpire entry peek expired empty =>
      exact (ops.pop_ne_none peek empty).elim
  | case3 heap toExpire entry peek live =>
      rw [popLoop_stops ops peek live] at run
      obtain ⟨rfl, rfl, rfl⟩ : heap = heap' ∧ toExpire = popped ∧
        some entry.expiresAt = nextWakeup := by simpa using run
      have top := ops.peek_some heap entry peek
      rw [← same] at top ⊢
      exact .single ⟨_, .stoppedAt rfl top live⟩
  | case4 heap toExpire peek =>
      rw [popLoop_empty ops peek] at run
      obtain ⟨rfl, rfl, rfl⟩ : heap = heap' ∧ toExpire = popped ∧ none = nextWakeup := by
        simpa using run
      have empty := ops.peek_none heap peek
      rw [← same] at empty ⊢
      exact .single ⟨_, .stoppedEmpty rfl empty⟩

private theorem removeKeys_moves (nextWakeup : Option Instant) (toExpire : List EvictionEntry) :
    Relation.ReflTransGen TaskMove (sh, { task with pc := .removing toExpire nextWakeup })
      ({ sh with challengeSet := removeKeys sh.challengeSet toExpire },
        { task with pc := .removing [] nextWakeup }) := by
  induction toExpire generalizing sh with
  | nil => exact .refl
  | cons entry toExpire ih =>
      have move : TaskMove (sh, { task with pc := .removing (entry :: toExpire) nextWakeup })
          ({ sh with challengeSet := (remove sh.challengeSet entry.key).2 },
            { task with pc := .removing toExpire nextWakeup }) := ⟨_, .removed rfl rfl⟩
      exact .head move (ih _)

/-- From the wake-up on, the task can do what the function says and then store its result. -/
theorem removeExpired_moves {heap heap' : H} {cs' : ChallengeSet} (awake : task.pc = .awake)
    (free : sh.evictionQ.locked = false) (same : sh.evictionQ.q = ops.elements heap)
    (run : removeExpired ops sh.now heap sh.challengeSet = some (heap', cs', nextWakeup)) :
    Relation.ReflTransGen TaskMove (sh, task)
      ({ sh with
          challengeSet := cs'
          evictionQ := { sh.evictionQ with q := ops.elements heap', locked := false } },
        ⟨.storing, nextWakeup.getD sh.evictionQ.farFuture⟩) := by
  obtain ⟨⟨rest, popped, next⟩, loop, result⟩ := Option.map_eq_some_iff.mp run
  obtain ⟨rfl, rfl, rfl⟩ : rest = heap' ∧ removeKeys sh.challengeSet popped = cs' ∧
    next = nextWakeup := by simpa using result
  have locked : TaskMove (sh, task) (holdLock sh, { task with pc := .popping sh.now [] }) :=
    ⟨_, .locked awake free⟩
  have pops := popLoop_moves ops (holdLock sh) task same loop
  have removes := removeKeys_moves (withHeap (holdLock sh) (ops.elements rest)) task next popped
  exact ((Relation.ReflTransGen.single locked).trans (pops.trans removes)).tail
    ⟨_, .released rfl⟩

end

end FaucetApi.Pow.Removal
