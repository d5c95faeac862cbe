/- module: FaucetApi/Pow/Sweeps
   layer: source model
   digest: Handler calls and remove_expired at arbitrary instants, whatever wakes the task. -/

import FaucetApi.Pow.Threads

set_option autoImplicit false
set_option relaxedAutoImplicit false

namespace FaucetApi.Pow.Sweeps

open FaucetApi.Lib.ConcurrentMap
open FaucetApi.Lib.MaxHeap
open FaucetApi.Lib.Runs
open FaucetApi.Pow.Challenges
open FaucetApi.Pow.Eviction
open FaucetApi.Pow.Claims
open FaucetApi.Pow.Machine
open FaucetApi.Pow.Threads

/-- Where `remove_expired` is. -/
inductive Sweep where
  | idle
  | popping (now : Instant) (toExpire : List EvictionEntry)
  | removing (toExpire : List EvictionEntry)

/-- The challenge set, the queue and the calls, without the mirror, the channel and the deadline:
they decide when `remove_expired` runs, and it may run at any time here. -/
structure Store where
  now : Instant
  challengeSet : ChallengeSet
  q : Heap EvictionEntry
  locked : Bool
  start : Instant
  sweep : Sweep
  pool : Multiset (CallId × Pc)

/-- The state that a handler call sees, with what the mirror and the channel hold. -/
def Store.shared (s : Store) (mirror : ℕ) (channel : List Instant) : Shared :=
  ⟨s.now, s.challengeSet, ⟨s.q, s.locked, mirror, channel, s.start⟩⟩

inductive StoreLabel where
  | clock (duration : Duration)
  | called (id : CallId) (call : Call)
  | thread (id : CallId) (event : ThreadEvent)
  | locked
  | popped (entry : EvictionEntry)
  | stopped
  | removed (entry : EvictionEntry) (challenge : Option Challenge)
  | released

inductive StoreStep (env : Env) : Store → StoreLabel → Store → Prop
  | clock {s : Store} {duration : Duration} :
      StoreStep env s (.clock duration) { s with now := s.now + duration }
  | called {s : Store} {id : CallId} {call : Call} :
      id ∉ s.pool.map Prod.fst →
      StoreStep env s (.called id call) { s with pool := (id, call.entry s.now) ::ₘ s.pool }
  | thread {s : Store} {id : CallId} {pc pc' : Pc} {rest : Multiset (CallId × Pc)}
      {event : ThreadEvent} {shared' : Shared} (mirror : ℕ) (channel : List Instant) :
      s.pool = (id, pc) ::ₘ rest →
      ThreadStep env id (s.shared mirror channel) pc event shared' pc' →
      StoreStep env s (.thread id event)
        { s with
          challengeSet := shared'.challengeSet
          q := shared'.evictionQ.q
          pool := (id, pc') ::ₘ rest }
  | locked {s : Store} :
      s.sweep = .idle → s.locked = false →
      StoreStep env s .locked { s with locked := true, sweep := .popping s.now [] }
  | popped {s : Store} {now : Instant} {toExpire : List EvictionEntry} {entry : EvictionEntry}
      {rest : Heap EvictionEntry} :
      s.sweep = .popping now toExpire → Pop s.q entry rest → entry.expiresAt ≤ now →
      StoreStep env s (.popped entry)
        { s with q := rest, sweep := .popping now (toExpire ++ [entry]) }
  | stopped {s : Store} {now : Instant} {toExpire : List EvictionEntry} :
      s.sweep = .popping now toExpire →
      (s.q = 0 ∨ ∃ entry, Peek s.q entry ∧ ¬ entry.expiresAt ≤ now) →
      StoreStep env s .stopped { s with sweep := .removing toExpire }
  | removed {s : Store} {entry : EvictionEntry} {toExpire : List EvictionEntry}
      {bound : Option Challenge} {challengeSet' : ChallengeSet} :
      s.sweep = .removing (entry :: toExpire) →
      remove s.challengeSet entry.key = (bound, challengeSet') →
      StoreStep env s (.removed entry bound)
        { s with challengeSet := challengeSet', sweep := .removing toExpire }
  | released {s : Store} :
      s.sweep = .removing [] →
      StoreStep env s .released { s with locked := false, sweep := .idle }

def initialStore (now start : Instant) : Store := ⟨now, fun _ => none, 0, false, start, .idle, 0⟩

/-- The runs from a given instant, with the queue's start. -/
abbrev StoreRun (env : Env) (now start : Instant) :=
  Run (fun s => s = initialStore now start) (StoreStep env)

theorem StoreStep.act {env : Env} {id : CallId} {now start : Instant} {set : ChallengeSet}
    {q : Heap EvictionEntry} {locked : Bool} {sweep : Sweep} {sh' : Shared} {pc pc' : Pc}
    {rest : Multiset (CallId × Pc)} {event : ThreadEvent} (mirror : ℕ) (channel : List Instant)
    (action : ThreadStep env id ⟨now, set, ⟨q, locked, mirror, channel, start⟩⟩ pc event sh' pc') :
    StoreStep env ⟨now, set, q, locked, start, sweep, (id, pc) ::ₘ rest⟩ (.thread id event)
      ⟨now, sh'.challengeSet, sh'.evictionQ.q, locked, start, sweep, (id, pc') ::ₘ rest⟩ :=
  .thread mirror channel rfl action

/-! Every run of the machine is such a run. -/

def sweepOf : TaskPc → Sweep
  | .popping now toExpire => .popping now toExpire
  | .removing toExpire _ => .removing toExpire
  | _ => .idle

def storeOf (s : State) : Store :=
  ⟨s.shared.now, s.shared.challengeSet, s.shared.evictionQ.q, s.shared.evictionQ.locked,
    s.shared.evictionQ.start, sweepOf s.task.pc, s.pool⟩

/-- The part of a label that is not about when `remove_expired` runs. -/
def storeLabel : Label → Option StoreLabel
  | .clock duration => some (.clock duration)
  | .called id call => some (.called id call)
  | .thread id event => some (.thread id event)
  | .task (.locked) => some .locked
  | .task (.popped entry) => some (.popped entry)
  | .task (.stopped _) => some .stopped
  | .task (.removed entry challenge) => some (.removed entry challenge)
  | .task (.released) => some .released
  | .task _ => none

variable {env : Env} {id : CallId} {sh sh' : Shared} {pc pc' : Pc} {event : ThreadEvent}

private theorem thread_frame (action : ThreadStep env id sh pc event sh' pc') :
    sh'.now = sh.now ∧ sh'.evictionQ.locked = sh.evictionQ.locked ∧
      sh'.evictionQ.start = sh.evictionQ.start := by
  cases action <;> exact ⟨rfl, rfl, rfl⟩

private theorem step_takesPart {s s' : State} {l : Label} (taken : Step env s l s') :
    TakesPart (StoreStep env) (storeOf s) (storeLabel l) (storeOf s') := by
  cases taken with
  | clock => exact .clock
  | called fresh => exact .called fresh
  | thread pool action =>
      obtain ⟨now, locked, start⟩ := thread_frame action
      have moved : StoreStep env (storeOf s) _ _ :=
        .thread s.shared.evictionQ.nextWakeupMillis s.shared.evictionQ.iChangedTheWakeup pool action
      change StoreStep env (storeOf s) _ (storeOf _)
      simpa only [storeOf, now, locked, start] using moved
  | task action =>
      cases action with
      | @received newWakeup _ waits _ =>
          have idle : sweepOf (s.task.receive newWakeup).pc = sweepOf s.task.pc := by
            unfold Task.receive
            split <;> simp [waits, sweepOf]
          change storeOf _ = storeOf s
          simp only [storeOf, idle]
      | stored waits =>
          change storeOf _ = storeOf s
          simp only [storeOf, waits, sweepOf]
      | woke waits _ =>
          change storeOf _ = storeOf s
          simp only [storeOf, waits, sweepOf]
      | locked awake free => exact .locked (by simp only [storeOf, awake, sweepOf]) free
      | popped here top due => exact .popped (by simp only [storeOf, here, sweepOf]) top due
      | stoppedAt here top late =>
          exact .stopped (by simp only [storeOf, here, sweepOf]) (.inr ⟨_, top, late⟩)
      | stoppedEmpty here empty =>
          exact .stopped (by simp only [storeOf, here, sweepOf]; rfl) (.inl empty)
      | removed here done => exact .removed (by simp only [storeOf, here, sweepOf]) done
      | released here => exact .released (by simp only [storeOf, here, sweepOf])

theorem pow_run_sweeps {ts : Trace} {s : State} (run : PowRun env ts s) :
    ∃ now start, StoreRun env now start
      (ts.filterMap (Transition.project storeOf storeLabel)) (storeOf s) := by
  obtain ⟨s₀, ⟨now, start, rfl⟩, from₀⟩ := run.from_initial
  refine ⟨now, start, from₀.project ?_ (fun _ _ _ => step_takesPart)⟩
  rintro _ rfl
  rfl

end FaucetApi.Pow.Sweeps
