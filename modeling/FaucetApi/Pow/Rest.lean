/- module: FaucetApi/Pow/Rest
   layer: invariants
   digest: The eviction task left to itself comes to rest in select!. -/

import FaucetApi.Pow.Machine
import Mathlib.Data.Prod.Lex
import Mathlib.Order.WellFounded

set_option autoImplicit false
set_option relaxedAutoImplicit false

namespace FaucetApi.Pow.Rest

open FaucetApi.Lib.ConcurrentMap
open FaucetApi.Lib.MaxHeap
open FaucetApi.Pow.Eviction
open FaucetApi.Pow.Challenges
open FaucetApi.Pow.Machine

variable {sh sh' : Shared} {task task' : Task} {event : TaskEvent}

def Stuck (sh : Shared) (task : Task) : Prop :=
  ∀ event sh' task', ¬ TaskStep sh task event sh' task'

/-- The task waits in `select!` for a message or for a deadline that lies ahead. -/
structure AtRest (sh : Shared) (task : Task) : Prop where
  waiting : task.pc = .waiting
  silent : sh.evictionQ.iChangedTheWakeup = []
  asleep : sh.now < task.nextWakeup

/-- The task never gets stuck elsewhere: whatever it holds, it goes on until it is at rest. -/
theorem atRest_of_stuck (lock : sh.evictionQ.locked = task.pc.evicting) (stuck : Stuck sh task) :
    AtRest sh task := by
  cases pc : task.pc with
  | waiting =>
      refine ⟨pc, ?_, ?_⟩
      · cases channel : sh.evictionQ.iChangedTheWakeup with
        | nil => rfl
        | cons newWakeup later => exact (stuck _ _ _ (.received pc channel)).elim
      · by_contra due
        exact stuck _ _ _ (.woke pc (not_lt.mp due))
  | storing => exact (stuck _ _ _ (.stored pc)).elim
  | awake => exact (stuck _ _ _ (.locked pc (by rw [lock, pc]; rfl))).elim
  | popping now toExpire =>
      by_cases empty : sh.evictionQ.q = 0
      · exact (stuck _ _ _ (.stoppedEmpty pc empty)).elim
      · obtain ⟨top, peek⟩ := exists_peek empty
        by_cases expired : top.expiresAt ≤ now
        · obtain ⟨rest, heap⟩ := Multiset.exists_cons_of_mem peek.1
          exact (stuck _ _ _ (.popped pc ⟨peek, heap⟩ expired)).elim
        · exact (stuck _ _ _ (.stoppedAt pc peek expired)).elim
  | removing toExpire wakeupTime =>
      cases toExpire with
      | nil => exact (stuck _ _ _ (.released pc)).elim
      | cons entry toExpire => exact (stuck _ _ _ (.removed pc (remove_eq.mpr ⟨rfl, rfl⟩))).elim

/-- How far the task is from `select!` with a deadline that lies ahead, not counting the entries. A
round that began before now may end with a deadline that is already due. -/
def rank (sh : Shared) (task : Task) : ℕ :=
  match task.pc with
  | .waiting => if task.nextWakeup ≤ sh.now then 5 else 0
  | .storing => if task.nextWakeup ≤ sh.now then 6 else 1
  | .awake => 4
  | .popping now _ => if now < sh.now then 8 else 3
  | .removing _ wakeupTime =>
      if wakeupTime.getD sh.evictionQ.farFuture ≤ sh.now then 7 else 2

/-- The entries that the task has still to pop or to remove. -/
def workload (sh : Shared) (task : Task) : ℕ :=
  match task.pc with
  | .popping _ _ => sh.evictionQ.q.card
  | .removing toExpire _ => toExpire.length
  | _ => 0

def distance (p : Shared × Task) : ℕ ×ₗ ℕ ×ₗ ℕ :=
  toLex (p.1.evictionQ.iChangedTheWakeup.length, toLex (rank p.1 p.2, workload p.1 p.2))

private theorem distance_lt_of_channel (shorter : sh'.evictionQ.iChangedTheWakeup.length <
    sh.evictionQ.iChangedTheWakeup.length) : distance (sh', task') < distance (sh, task) :=
  Prod.Lex.toLex_lt_toLex.mpr (.inl shorter)

private theorem distance_lt_of_rank
    (same : sh'.evictionQ.iChangedTheWakeup = sh.evictionQ.iChangedTheWakeup)
    (lower : rank sh' task' < rank sh task) : distance (sh', task') < distance (sh, task) :=
  Prod.Lex.toLex_lt_toLex.mpr
    (.inr ⟨congrArg List.length same, Prod.Lex.toLex_lt_toLex.mpr (.inl lower)⟩)

private theorem distance_lt_of_workload
    (same : sh'.evictionQ.iChangedTheWakeup = sh.evictionQ.iChangedTheWakeup)
    (level : rank sh' task' = rank sh task) (less : workload sh' task' < workload sh task) :
    distance (sh', task') < distance (sh, task) :=
  Prod.Lex.toLex_lt_toLex.mpr
    (.inr ⟨congrArg List.length same, Prod.Lex.toLex_lt_toLex.mpr (.inr ⟨level, less⟩)⟩)

theorem distance_decreases (early : sh.now < sh.evictionQ.farFuture)
    (action : TaskStep sh task event sh' task') : distance (sh', task') < distance (sh, task) := by
  cases action with
  | received _ channel =>
      apply distance_lt_of_channel
      simp [channel]
  | stored pc =>
      apply distance_lt_of_rank rfl
      change (if task.nextWakeup ≤ sh.now then 5 else 0) < rank sh task
      simp only [rank, pc]
      split <;> decide
  | woke pc due =>
      apply distance_lt_of_rank rfl
      simp [rank, pc, due]
  | locked pc _ =>
      apply distance_lt_of_rank rfl
      simp [rank, pc]
  | popped pc pop _ =>
      apply distance_lt_of_workload
      · rfl
      · simp [rank, pc]
      · simp [workload, pc, pop.2]
  | stoppedAt pc _ ahead =>
      apply distance_lt_of_rank rfl
      simp only [rank, pc, Option.getD_some]
      split_ifs with due old
      · decide
      · exact absurd (due.trans (not_lt.mp old)) ahead
      · decide
      · decide
  | stoppedEmpty pc _ =>
      apply distance_lt_of_rank rfl
      simp only [rank, pc, Option.getD_none, not_le.mpr early, if_false]
      split <;> decide
  | removed pc _ =>
      apply distance_lt_of_workload
      · rfl
      · simp only [rank, pc]
      · simp [workload, pc]
  | @released wakeupTime pc =>
      apply distance_lt_of_rank rfl
      change (if wakeupTime.getD sh.evictionQ.farFuture ≤ sh.now then 6 else 1) < rank sh task
      simp only [rank, pc]
      split <;> decide

/-- Left to itself, the task comes to rest after finitely many steps. -/
theorem task_comes_to_rest : WellFounded fun p' p : Shared × Task =>
    p.1.now < p.1.evictionQ.farFuture ∧ ∃ event, TaskStep p.1 p.2 event p'.1 p'.2 := by
  refine Subrelation.wf ?_ (InvImage.wf distance wellFounded_lt)
  rintro ⟨sh', task'⟩ ⟨sh, task⟩ ⟨early, event, action⟩
  exact distance_decreases early action

end FaucetApi.Pow.Rest
