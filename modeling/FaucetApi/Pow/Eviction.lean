/- module: FaucetApi/Pow/Eviction
   layer: source model
   digest: Eviction entries, the shared queue state and the locals of the eviction task. -/

import FaucetApi.Lib.MaxHeap
import FaucetApi.Pow.Challenges
import Mathlib.Data.Finset.Max

set_option autoImplicit false
set_option relaxedAutoImplicit false

namespace FaucetApi.Pow.Eviction

open FaucetApi.Lib.MaxHeap
open FaucetApi.Pow.Challenges

structure EvictionEntry where
  ip : Ipv4Addr
  chain : Chain
  expiresAt : Instant
  deriving DecidableEq

def EvictionEntry.key (entry : EvictionEntry) : Key := keyOf entry.ip entry.chain

/-- Inverted, so that the greatest entry is the one that expires first. -/
def EvictionEntry.cmp (self other : EvictionEntry) : Ordering :=
  compare other.expiresAt self.expiresAt

instance : Ord EvictionEntry := ⟨EvictionEntry.cmp⟩

theorem compare_ne_gt {self other : EvictionEntry} :
    compare self other ≠ .gt ↔ other.expiresAt ≤ self.expiresAt := by
  change compare other.expiresAt self.expiresAt ≠ .gt ↔ _
  simp [compare_le_iff_le]

theorem peek_expires_first {heap : Heap EvictionEntry} {top entry : EvictionEntry}
    (peek : Peek heap top) (member : entry ∈ heap) : top.expiresAt ≤ entry.expiresAt :=
  compare_ne_gt.mp (peek.2 entry member)

theorem exists_peek {heap : Heap EvictionEntry} (nonempty : heap ≠ 0) : ∃ top, Peek heap top := by
  obtain ⟨entry, member⟩ := Multiset.exists_mem_of_ne_zero nonempty
  obtain ⟨top, inside, first⟩ := Finset.exists_min_image heap.toFinset EvictionEntry.expiresAt
    ⟨entry, Multiset.mem_toFinset.mpr member⟩
  refine ⟨top, Multiset.mem_toFinset.mp inside, fun other there => ?_⟩
  exact compare_ne_gt.mpr (first other (Multiset.mem_toFinset.mpr there))

theorem pop_last (entry : EvictionEntry) : Pop (entry ::ₘ 0) entry 0 := by
  refine ⟨⟨Multiset.mem_cons_self _ _, fun other member => ?_⟩, rfl⟩
  obtain rfl : other = entry := by simpa using member
  exact compare_ne_gt.mpr le_rfl

theorem pop_first {first other : EvictionEntry} (order : first.expiresAt ≤ other.expiresAt) :
    Pop (other ::ₘ first ::ₘ 0) first (other ::ₘ 0) := by
  refine ⟨⟨by simp, fun entry member => compare_ne_gt.mpr ?_⟩, Multiset.cons_swap _ _ _⟩
  have either : entry = other ∨ entry = first := by simpa using member
  rcases either with rfl | rfl
  · exact order
  · exact le_rfl

/-- The state shared by the callers of `add_challenge` and the eviction task. `locked` says that
the task holds the mutex of `q`; the other holders release it within one atomic action. -/
structure EvictionQueue where
  q : Heap EvictionEntry
  locked : Bool
  nextWakeupMillis : ℕ
  /-- The instants in the channel, the oldest first. -/
  iChangedTheWakeup : List Instant
  start : Instant

/-- `duration_since(start).as_millis() as u64`: zero before the start, and the low 64 bits of the
count of whole milliseconds after it. -/
def EvictionQueue.millis (eq : EvictionQueue) (instant : Instant) : ℕ :=
  ((instant - eq.start) / 1000000) % 2 ^ 64

def EvictionQueue.farFuture (eq : EvictionQueue) : Instant :=
  eq.start + 60 * 60 * 24 * 365 * 10000 * 1000000000

def EvictionQueue.new (start : Instant) : EvictionQueue where
  q := 0
  locked := false
  nextWakeupMillis := 2 ^ 64 - 1
  iChangedTheWakeup := []
  start := start

/-! `add_challenge` pushes under the lock, then loads the mirror and perhaps sends. -/

def entryOf (ip : Ipv4Addr) (chain : Chain) (challenge : Challenge) : EvictionEntry :=
  ⟨ip, chain, challenge.expiresAt⟩

def EvictionQueue.push (eq : EvictionQueue) (entry : EvictionEntry) : EvictionQueue :=
  { eq with q := entry ::ₘ eq.q }

/-- The test of `add_challenge` on the mirror it loads. -/
def EvictionQueue.mustWakeEarlier (eq : EvictionQueue) (challenge : Challenge) : Bool :=
  decide (eq.millis challenge.expiresAt < eq.nextWakeupMillis)

def EvictionQueue.send (eq : EvictionQueue) (instant : Instant) : EvictionQueue :=
  { eq with iChangedTheWakeup := eq.iChangedTheWakeup ++ [instant] }

/-- Where the eviction task is. `popping` and `removing` are inside `remove_expired`. -/
inductive TaskPc where
  /-- In `select!`. -/
  | waiting
  /-- `next_wakeup` was set and is not yet stored in the mirror. -/
  | storing
  /-- The sleep is over and the lock is not yet taken. -/
  | awake
  | popping (now : Instant) (toExpire : List EvictionEntry)
  | removing (toExpire : List EvictionEntry) (nextWakeup : Option Instant)
  deriving DecidableEq

structure Task where
  pc : TaskPc
  /-- The local `next_wakeup`, which is also when the sleep ends. -/
  nextWakeup : Instant

/-- The receive arm of `select!`, up to the store. -/
def Task.receive (task : Task) (newWakeup : Instant) : Task :=
  if newWakeup < task.nextWakeup then ⟨.storing, newWakeup⟩ else task

/-- The entries that `remove_expired` has popped and whose keys it has not removed yet. -/
def TaskPc.toExpire : TaskPc → List EvictionEntry
  | .popping _ toExpire => toExpire
  | .removing toExpire _ => toExpire
  | _ => []

def TaskPc.evicting : TaskPc → Bool
  | .popping _ _ => true
  | .removing _ _ => true
  | _ => false

@[simp] theorem push_q (eq : EvictionQueue) (entry : EvictionEntry) :
    (eq.push entry).q = entry ::ₘ eq.q := rfl

end FaucetApi.Pow.Eviction
