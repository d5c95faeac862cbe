/- module: FaucetApi/Pow/Quiescence
   layer: results
   digest: Whatever the schedule, the calls that have begun return and the eviction task rests. -/

import FaucetApi.Pow.Leasing
import FaucetApi.Pow.Rest
import Mathlib.Algebra.BigOperators.Group.Multiset.Defs

set_option autoImplicit false
set_option relaxedAutoImplicit false

namespace FaucetApi.Pow.Quiescence

open FaucetApi.Lib.Runs
open FaucetApi.Lib.Simulation
open FaucetApi.Lib.ConcurrentMap
open FaucetApi.Pow.Challenges
open FaucetApi.Pow.Eviction
open FaucetApi.Pow.Claims
open FaucetApi.Pow.Machine
open FaucetApi.Pow.Threads
open FaucetApi.Pow.Consumption
open FaucetApi.Pow.Leasing
open FaucetApi.Pow.Rest

variable {env : Env} {ts b : Trace} {s s' : State} {id : CallId} {l : Label}

/-- A step of a call or of the eviction task: no new call, and the clock stands still. -/
def Internal : Label → Prop
  | .thread _ _ => True
  | .task _ => True
  | _ => False

/-- The queue has been created, and its far future lies ahead. -/
def Live (s : State) : Prop :=
  s.shared.evictionQ.start ≤ s.shared.now ∧ s.shared.now < s.shared.evictionQ.farFuture

/-- Every call has returned, and the eviction task waits for a message or for a deadline that lies
ahead. -/
structure Quiescent (s : State) : Prop where
  returned : ∀ id pc, (id, pc) ∈ s.pool → stage pc = 4
  rests : AtRest s.shared s.task

private theorem live_step (internal : Internal l) (taken : Step env s l s') (live : Live s) :
    Live s' := by
  have frame : s'.shared.now = s.shared.now ∧
      s'.shared.evictionQ.start = s.shared.evictionQ.start := by
    cases taken with
    | clock => exact internal.elim
    | called _ => exact internal.elim
    | thread _ action => cases action <;> exact ⟨rfl, rfl⟩
    | task action => cases action <;> exact ⟨rfl, rfl⟩
  rw [Live, EvictionQueue.farFuture, frame.1, frame.2]
  exact live

private theorem ids_step (internal : Internal l) (taken : Step env s l s') :
    s'.pool.map Prod.fst = s.pool.map Prod.fst := by
  cases taken with
  | clock => exact internal.elim
  | called _ => exact internal.elim
  | thread pool _ => rw [pool, Multiset.map_cons, Multiset.map_cons]
  | task _ => rfl

/-! Every step uses up some of the work: a call's own, or else the task's. -/

/-- How many actions the calls of the pool can still take, at most. -/
def workLeft (pool : Multiset (CallId × Pc)) : ℕ := (pool.map (fun call => 4 - stage call.2)).sum

private theorem workLeft_cons (id : CallId) (pc : Pc) (rest : Multiset (CallId × Pc)) :
    workLeft ((id, pc) ::ₘ rest) = 4 - stage pc + workLeft rest := by
  rw [workLeft, Multiset.map_cons, Multiset.sum_cons, ← workLeft]

private theorem stage_le (pc : Pc) : stage pc ≤ 4 := by cases pc <;> simp [stage]

def measure (s : State) : ℕ ×ₗ ℕ ×ₗ ℕ ×ₗ ℕ :=
  toLex (workLeft s.pool, distance (s.shared, s.task))

theorem measure_decreases (internal : Internal l)
    (early : s.shared.now < s.shared.evictionQ.farFuture)
    (taken : Step env s l s') : measure s' < measure s := by
  cases taken with
  | clock => exact internal.elim
  | called _ => exact internal.elim
  | @thread id pc pc' rest event shared' pool action =>
      apply Prod.Lex.toLex_lt_toLex.mpr
      left
      have climbed := stage_lt action
      have bound := stage_le pc'
      rw [pool, workLeft_cons, workLeft_cons]
      omega
  | task action =>
      apply Prod.Lex.toLex_lt_toLex.mpr
      right
      exact ⟨rfl, distance_decreases early action⟩

theorem schedules_end (env : Env) : WellFounded fun s' s : State =>
    Live s ∧ ∃ l, Internal l ∧ Step env s l s' := by
  refine Subrelation.wf ?_ (InvImage.wf measure wellFounded_lt)
  rintro s' s ⟨live, l, internal, taken⟩
  exact measure_decreases internal live.2 taken

/-! Nothing waits for ever either: only the lock can hold up a call, and the task gives it back. -/

private theorem locked_iff_evicting (run : PowRun env ts s) :
    s.shared.evictionQ.locked = s.task.pc.evicting := by
  refine run.invariant (P := fun s => s.shared.evictionQ.locked = s.task.pc.evicting) ?_ ?_
  · rintro s ⟨_, _, rfl⟩
    rfl
  · intro s l s' before taken
    cases taken with
    | clock => exact before
    | called _ => exact before
    | thread _ action => cases action <;> exact before
    | task action =>
        cases action with
        | received waiting _ =>
            rw [waiting] at before
            unfold Task.receive
            split
            · exact before
            · rw [waiting]
              exact before
        | stored storing => rw [storing] at before; exact before
        | woke waiting _ => rw [waiting] at before; exact before
        | locked _ _ => rfl
        | popped popping _ _ => rw [popping] at before; exact before
        | stoppedAt popping _ _ => rw [popping] at before; exact before
        | stoppedEmpty popping _ => rw [popping] at before; exact before
        | removed removing _ => rw [removing] at before; exact before
        | released _ => rfl

private theorem exists_action {sh : Shared} {pc : Pc} (unlocked : sh.evictionQ.locked = false)
    (started : sh.evictionQ.start ≤ sh.now) (unfinished : stage pc ≠ 4) :
    ∃ event sh' pc', ThreadStep env id sh pc event sh' pc' := by
  cases pc with
  | getCas ip chain c =>
      cases found : sh.challengeSet (keyOf ip chain) with
      | none => exact ⟨_, _, _, .installed (getCas_ok.mpr ⟨found, rfl, rfl⟩)⟩
      | some old => exact ⟨_, _, _, .found (getCas_error.mpr ⟨found, rfl⟩)⟩
  | addPush ip chain c => exact ⟨_, _, _, .pushed unlocked started⟩
  | addLoad ip chain c =>
      cases must : sh.evictionQ.mustWakeEarlier c with
      | true => exact ⟨_, _, _, .loaded must⟩
      | false => exact ⟨_, _, _, .loadedLater must⟩
  | addSend ip chain c => exact ⟨_, _, _, .sent⟩
  | got ip chain c => exact (unfinished rfl).elim
  | checkRead claim =>
      cases read : checkRead sh.challengeSet claim.key with
      | error e => exact ⟨_, _, _, .readRefused read⟩
      | ok old => exact ⟨_, _, _, .read read⟩
  | checkCas claim old =>
      by_cases same : sh.challengeSet claim.key = some old
      · exact ⟨_, _, _, .swapped (checkCas_ok.mpr ⟨same, rfl⟩)⟩
      · exact ⟨_, _, _, .swapRefused (checkCas_error.mpr ⟨same, rfl, rfl⟩)⟩
  | checkHash claim old =>
      cases hashed : checkHash env.sha256 old claim.solution with
      | error e => exact ⟨_, _, _, .rejected hashed⟩
      | ok _ => exact ⟨_, _, _, .accepted hashed⟩
  | settle claim =>
      cases claim with
      | l1 ip solution address =>
          cases network : env.requireNetwork address with
          | none => exact ⟨_, _, _, .wrongNetwork network⟩
          | some checked => exact ⟨_, _, _, .queued network⟩
      | l2 ip solution address => exact ⟨_, _, _, .sendFailed⟩
  | answered claim answer => exact (unfinished rfl).elim

theorem quiescent_of_stuck (run : PowRun env ts s) (live : Live s)
    (stuck : ∀ l s', Internal l → ¬ Step env s l s') : Quiescent s := by
  have rests : AtRest s.shared s.task := by
    apply atRest_of_stuck (locked_iff_evicting run)
    intro event sh' task' action
    exact stuck (.task event) _ trivial (.task action)
  refine ⟨?_, rests⟩
  intro id pc here
  by_contra unfinished
  have unlocked : s.shared.evictionQ.locked = false := by
    rw [locked_iff_evicting run, rests.waiting]
    rfl
  obtain ⟨event, sh', pc', action⟩ := exists_action unlocked live.1 unfinished
  obtain ⟨rest, pool⟩ := Multiset.exists_cons_of_mem here
  exact stuck (.thread id event) _ trivial (.thread pool action)

/-- From every reachable state of a server that is up, with no new calls and while the clock stands
still: no schedule of the calls and of the eviction task goes on for ever, every schedule that can
go on no longer has brought every call to its answer and the task to rest, and there is one. -/
theorem every_schedule_settles (run : PowRun env ts s) (live : Live s) :
    (∀ f : ℕ → State, f 0 = s → ¬ ∀ n, ∃ l, Internal l ∧ Step env (f n) l (f (n + 1))) ∧
    (∀ b s', Stretch (Step env) s b s' → (∀ x ∈ b, Internal x.label) →
      (∀ l s'', Internal l → ¬ Step env s' l s'') →
        Quiescent s' ∧ s'.pool.map Prod.fst = s.pool.map Prod.fst) ∧
    ∃ b s', Stretch (Step env) s b s' ∧ (∀ x ∈ b, Internal x.label) ∧ Quiescent s' := by
  have kept (s : State) (l : Label) (s' : State) (live : Live s) (internal : Internal l)
      (taken : Step env s l s') : Live s' := live_step internal taken live
  refine ⟨?_, ?_, ?_⟩
  · intro f first
    exact no_endless_schedule (schedules_end env) kept f (first ▸ live)
  · intro b s' later internal stuck
    have frame : Live s' ∧ s'.pool.map Prod.fst = s.pool.map Prod.fst := by
      clear stuck
      induction later with
      | start same =>
          subst same
          exact ⟨live, rfl⟩
      | next _ taken ih =>
          obtain ⟨there, ids⟩ := ih fun x member => internal x (List.mem_append_left _ member)
          have inner := internal _ (List.mem_append_right _ (List.mem_singleton_self _))
          exact ⟨live_step inner taken there, (ids_step inner taken).trans ids⟩
    exact ⟨quiescent_of_stuck (continued run later) frame.1 stuck, frame.2⟩
  · obtain ⟨b, s', later, internal, there, stuck⟩ :=
      exists_settled (schedules_end env) kept s live
    exact ⟨b, s', later, internal, quiescent_of_stuck (continued run later) there stuck⟩

/-- Two clients' calls have begun. -/
theorem every_schedule_settles_nonvacuous : ∃ ts s b s', PowRun sampleEnv ts s ∧ Live s ∧
    s.pool.map Prod.fst = {1, 0} ∧ Stretch (Step sampleEnv) s b s' ∧ Quiescent s' := by
  have begin : PowRun sampleEnv [] (startedAt 0) := .start (startedAt_initial 0)
  have get := begin.next
    (@Step.called _ _ 0 (.get localIp .l1 (Vector.replicate 16 7) 5 120) (by simp))
  have claim := get.next (@Step.called _ _ 1 (.check sampleClaim) (by simp))
  have live : Live (startedAt 0) := ⟨le_rfl, by decide⟩
  obtain ⟨_, _, b, s', later, _, quiescent⟩ := every_schedule_settles claim live
  exact ⟨_, _, b, s', claim, live, rfl, later, quiescent⟩

end FaucetApi.Pow.Quiescence
