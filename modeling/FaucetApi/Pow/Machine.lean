/- module: FaucetApi/Pow/Machine
   layer: source model
   digest: Every interleaving of the atomic steps of handler calls and of the eviction task. -/

import FaucetApi.Lib.Runs
import FaucetApi.Pow.Claims
import FaucetApi.Pow.Eviction
import Mathlib.Data.Multiset.MapFold

/-!
A handler call is a thread of the pool; its position in the code and its locals are a `Pc`. One
step runs one atomic action: a map operation, a push under the queue's lock, a load, a send on the
channel, or a transfer to another component. The eviction task is a second program beside the pool.
The clock has no last instant here: where an expiry lies after it, the addition in `Challenge::get`
panics, the process aborts, and its run is at its end.
-/

set_option autoImplicit false
set_option relaxedAutoImplicit false

namespace FaucetApi.Pow.Machine

open FaucetApi.Lib.ConcurrentMap
open FaucetApi.Lib.MaxHeap
open FaucetApi.Lib.Runs
open FaucetApi.Pow.Hash
open FaucetApi.Pow.Challenges
open FaucetApi.Pow.Eviction
open FaucetApi.Pow.Claims

/-- Where a handler call is, with the locals that it still needs. -/
inductive Pc where
  /-- `get` has built its candidate. -/
  | getCas (ip : Ipv4Addr) (chain : Chain) (challenge : Challenge)
  /-- `get` has installed its candidate and calls `add_challenge`. -/
  | addPush (ip : Ipv4Addr) (chain : Chain) (challenge : Challenge)
  | addLoad (ip : Ipv4Addr) (chain : Chain) (challenge : Challenge)
  | addSend (ip : Ipv4Addr) (chain : Chain) (challenge : Challenge)
  /-- `get` has returned this challenge. -/
  | got (ip : Ipv4Addr) (chain : Chain) (challenge : Challenge)
  | checkRead (claim : Claim)
  | checkCas (claim : Claim) (oldChallenge : Challenge)
  | checkHash (claim : Claim) (oldChallenge : Challenge)
  /-- `check_solution` has returned `Ok` and the handler goes on to pay. -/
  | settle (claim : Claim)
  | answered (claim : Claim) (answer : Answer)
  deriving DecidableEq

/-- A handler call as it begins. For `get` it comes with the nonce that the call will draw. -/
inductive Call where
  | get (ip : Ipv4Addr) (chain : Chain) (nonce : Nonce) (difficultyIfNotPresent : UInt8)
      (challengeDuration : Duration)
  | check (claim : Claim)

def Call.entry (now : Instant) : Call → Pc
  | .get ip chain nonce difficulty duration =>
      .getCas ip chain (candidate nonce now difficulty duration)
  | .check claim => .checkRead claim

inductive ThreadEvent where
  | installed (ip : Ipv4Addr) (chain : Chain) (challenge : Challenge)
  | found (ip : Ipv4Addr) (chain : Chain) (challenge : Challenge)
  | pushed (entry : EvictionEntry)
  | loaded (ip : Ipv4Addr) (chain : Chain) (challenge : Challenge) (sends : Bool)
  | sent (ip : Ipv4Addr) (chain : Chain) (challenge : Challenge)
  | readRefused (claim : Claim) (e : CheckError)
  | read (claim : Claim) (oldChallenge : Challenge)
  | swapped (claim : Claim) (oldChallenge : Challenge)
  | swapRefused (claim : Claim) (e : CheckError)
  | hashed (claim : Claim) (result : Except CheckError Unit)
  | wrongNetwork (claim : Claim)
  | queued (claim : Claim) (request : L1PayoutRequest)
  | transferred (claim : Claim) (transaction : TransactionRequest)
  | sendFailed (claim : Claim)

inductive TaskEvent where
  | received (newWakeup : Instant)
  | stored
  | woke
  | locked
  | popped (entry : EvictionEntry)
  | stopped (nextWakeup : Option Instant)
  | removed (entry : EvictionEntry) (challenge : Option Challenge)
  | released

inductive Label where
  | clock (duration : Duration)
  | called (id : CallId) (call : Call)
  | thread (id : CallId) (event : ThreadEvent)
  | task (event : TaskEvent)

structure Shared where
  now : Instant
  challengeSet : ChallengeSet
  evictionQ : EvictionQueue

structure State where
  shared : Shared
  task : Task
  pool : Multiset (CallId × Pc)

section

variable (env : Env) (id : CallId)

/-- One atomic action of the handler call `id`. -/
inductive ThreadStep : Shared → Pc → ThreadEvent → Shared → Pc → Prop
  | installed {sh : Shared} {ip : Ipv4Addr} {chain : Chain} {c : Challenge}
      {challengeSet' : ChallengeSet} :
      getCas sh.challengeSet (keyOf ip chain) c = (.ok none, challengeSet') →
      ThreadStep sh (.getCas ip chain c) (.installed ip chain c)
        { sh with challengeSet := challengeSet' } (.addPush ip chain c)
  | found {sh : Shared} {ip : Ipv4Addr} {chain : Chain} {c old : Challenge}
      {challengeSet' : ChallengeSet} :
      getCas sh.challengeSet (keyOf ip chain) c = (.error ⟨some old⟩, challengeSet') →
      ThreadStep sh (.getCas ip chain c) (.found ip chain old)
        { sh with challengeSet := challengeSet' } (.got ip chain old)
  /-- The queue is created by the first `add_challenge`, so no push comes before its start. -/
  | pushed {sh : Shared} {ip : Ipv4Addr} {chain : Chain} {c : Challenge} :
      sh.evictionQ.locked = false → sh.evictionQ.start ≤ sh.now →
      ThreadStep sh (.addPush ip chain c) (.pushed (entryOf ip chain c))
        { sh with evictionQ := sh.evictionQ.push (entryOf ip chain c) } (.addLoad ip chain c)
  | loaded {sh : Shared} {ip : Ipv4Addr} {chain : Chain} {c : Challenge} :
      sh.evictionQ.mustWakeEarlier c = true →
      ThreadStep sh (.addLoad ip chain c) (.loaded ip chain c true) sh (.addSend ip chain c)
  | loadedLater {sh : Shared} {ip : Ipv4Addr} {chain : Chain} {c : Challenge} :
      sh.evictionQ.mustWakeEarlier c = false →
      ThreadStep sh (.addLoad ip chain c) (.loaded ip chain c false) sh (.got ip chain c)
  | sent {sh : Shared} {ip : Ipv4Addr} {chain : Chain} {c : Challenge} :
      ThreadStep sh (.addSend ip chain c) (.sent ip chain c)
        { sh with evictionQ := sh.evictionQ.send c.expiresAt } (.got ip chain c)
  | readRefused {sh : Shared} {claim : Claim} {e : CheckError} :
      checkRead sh.challengeSet claim.key = .error e →
      ThreadStep sh (.checkRead claim) (.readRefused claim e) sh (.answered claim (refusal e))
  | read {sh : Shared} {claim : Claim} {old : Challenge} :
      checkRead sh.challengeSet claim.key = .ok old →
      ThreadStep sh (.checkRead claim) (.read claim old) sh (.checkCas claim old)
  | swapped {sh : Shared} {claim : Claim} {old : Challenge} {challengeSet' : ChallengeSet} :
      checkCas sh.challengeSet claim.key old = (.ok (), challengeSet') →
      ThreadStep sh (.checkCas claim old) (.swapped claim old)
        { sh with challengeSet := challengeSet' } (.checkHash claim old)
  | swapRefused {sh : Shared} {claim : Claim} {old : Challenge} {e : CheckError}
      {challengeSet' : ChallengeSet} :
      checkCas sh.challengeSet claim.key old = (.error e, challengeSet') →
      ThreadStep sh (.checkCas claim old) (.swapRefused claim e)
        { sh with challengeSet := challengeSet' } (.answered claim (refusal e))
  | accepted {sh : Shared} {claim : Claim} {old : Challenge} :
      checkHash env.sha256 old claim.solution = .ok () →
      ThreadStep sh (.checkHash claim old) (.hashed claim (.ok ())) sh (.settle claim)
  | rejected {sh : Shared} {claim : Claim} {old : Challenge} {e : CheckError} :
      checkHash env.sha256 old claim.solution = .error e →
      ThreadStep sh (.checkHash claim old) (.hashed claim (.error e)) sh
        (.answered claim (refusal e))
  | wrongNetwork {sh : Shared} {ip : Ipv4Addr} {solution : Solution}
      {address : UncheckedL1Address} :
      env.requireNetwork address = none →
      ThreadStep sh (.settle (.l1 ip solution address)) (.wrongNetwork (.l1 ip solution address))
        sh (.answered (.l1 ip solution address) wrongNetwork)
  | queued {sh : Shared} {ip : Ipv4Addr} {solution : Solution} {address : UncheckedL1Address}
      {checked : L1Address} :
      env.requireNetwork address = some checked →
      ThreadStep sh (.settle (.l1 ip solution address))
        (.queued (.l1 ip solution address) ⟨id, checked, env.l1AmountPerClaim⟩) sh
        (.answered (.l1 ip solution address) (.ok ""))
  | transferred {sh : Shared} {ip : Ipv4Addr} {solution : Solution} {address : L2Address}
      {txid : String} :
      ThreadStep sh (.settle (.l2 ip solution address))
        (.transferred (.l2 ip solution address) (l2Transaction env address)) sh
        (.answered (.l2 ip solution address) (.ok txid))
  /-- The send returned an error, and nothing was sent. -/
  | sendFailed {sh : Shared} {ip : Ipv4Addr} {solution : Solution} {address : L2Address} :
      ThreadStep sh (.settle (.l2 ip solution address)) (.sendFailed (.l2 ip solution address)) sh
        (.answered (.l2 ip solution address) sendError)

end

/-- One atomic action of the eviction task. -/
inductive TaskStep : Shared → Task → TaskEvent → Shared → Task → Prop
  | received {sh : Shared} {task : Task} {newWakeup : Instant} {later : List Instant} :
      task.pc = .waiting → sh.evictionQ.iChangedTheWakeup = newWakeup :: later →
      TaskStep sh task (.received newWakeup)
        { sh with evictionQ := { sh.evictionQ with iChangedTheWakeup := later } }
        (task.receive newWakeup)
  | stored {sh : Shared} {task : Task} :
      task.pc = .storing →
      TaskStep sh task .stored
        { sh with evictionQ :=
            { sh.evictionQ with nextWakeupMillis := sh.evictionQ.millis task.nextWakeup } }
        { task with pc := .waiting }
  | woke {sh : Shared} {task : Task} :
      task.pc = .waiting → task.nextWakeup ≤ sh.now →
      TaskStep sh task .woke sh { task with pc := .awake }
  /-- `remove_expired` begins: the lock is taken and the clock is read once. -/
  | locked {sh : Shared} {task : Task} :
      task.pc = .awake → sh.evictionQ.locked = false →
      TaskStep sh task .locked { sh with evictionQ := { sh.evictionQ with locked := true } }
        { task with pc := .popping sh.now [] }
  | popped {sh : Shared} {task : Task} {now : Instant} {toExpire : List EvictionEntry}
      {entry : EvictionEntry} {rest : Heap EvictionEntry} :
      task.pc = .popping now toExpire → Pop sh.evictionQ.q entry rest → entry.expiresAt ≤ now →
      TaskStep sh task (.popped entry)
        { sh with evictionQ := { sh.evictionQ with q := rest } }
        { task with pc := .popping now (toExpire ++ [entry]) }
  | stoppedAt {sh : Shared} {task : Task} {now : Instant} {toExpire : List EvictionEntry}
      {entry : EvictionEntry} :
      task.pc = .popping now toExpire → Peek sh.evictionQ.q entry → ¬ entry.expiresAt ≤ now →
      TaskStep sh task (.stopped (some entry.expiresAt)) sh
        { task with pc := .removing toExpire (some entry.expiresAt) }
  | stoppedEmpty {sh : Shared} {task : Task} {now : Instant} {toExpire : List EvictionEntry} :
      task.pc = .popping now toExpire → sh.evictionQ.q = 0 →
      TaskStep sh task (.stopped none) sh { task with pc := .removing toExpire none }
  | removed {sh : Shared} {task : Task} {entry : EvictionEntry} {toExpire : List EvictionEntry}
      {wakeupTime : Option Instant} {bound : Option Challenge} {challengeSet' : ChallengeSet} :
      task.pc = .removing (entry :: toExpire) wakeupTime →
      remove sh.challengeSet entry.key = (bound, challengeSet') →
      TaskStep sh task (.removed entry bound) { sh with challengeSet := challengeSet' }
        { task with pc := .removing toExpire wakeupTime }
  /-- The guard is dropped, and `remove_expired`'s result becomes the new deadline. -/
  | released {sh : Shared} {task : Task} {wakeupTime : Option Instant} :
      task.pc = .removing [] wakeupTime →
      TaskStep sh task .released { sh with evictionQ := { sh.evictionQ with locked := false } }
        ⟨.storing, wakeupTime.getD sh.evictionQ.farFuture⟩

/-- One step of the faucet's proof-of-work part. A call identity is used for one call only. -/
inductive Step (env : Env) : State → Label → State → Prop
  | clock {s : State} {duration : Duration} :
      Step env s (.clock duration)
        { s with shared := { s.shared with now := s.shared.now + duration } }
  | called {s : State} {id : CallId} {call : Call} :
      id ∉ s.pool.map Prod.fst →
      Step env s (.called id call)
        { s with pool := (id, call.entry s.shared.now) ::ₘ s.pool }
  | thread {s : State} {id : CallId} {pc pc' : Pc} {rest : Multiset (CallId × Pc)}
      {event : ThreadEvent} {shared' : Shared} :
      s.pool = (id, pc) ::ₘ rest → ThreadStep env id s.shared pc event shared' pc' →
      Step env s (.thread id event) { s with shared := shared', pool := (id, pc') ::ₘ rest }
  | task {s : State} {event : TaskEvent} {shared' : Shared} {task' : Task} :
      TaskStep s.shared s.task event shared' task' →
      Step env s (.task event) { s with shared := shared', task := task' }

/-! The same steps between states written out field by field. -/

section

variable {env : Env} {id : CallId} {sh sh' : Shared} {task task' : Task} {pc pc' : Pc}
variable {event : ThreadEvent} {taskEvent : TaskEvent} {rest : Multiset (CallId × Pc)}

theorem Step.act (action : ThreadStep env id sh pc event sh' pc') :
    Step env ⟨sh, task, (id, pc) ::ₘ rest⟩ (.thread id event)
      ⟨sh', task, (id, pc') ::ₘ rest⟩ := .thread rfl action

theorem Step.evict (action : TaskStep sh task taskEvent sh' task') :
    Step env ⟨sh, task, rest⟩ (.task taskEvent) ⟨sh', task', rest⟩ := .task action

end

def Initial (s : State) : Prop :=
  ∃ now start, s = ⟨⟨now, fun _ => none, EvictionQueue.new start⟩,
    ⟨.waiting, (EvictionQueue.new start).farFuture⟩, 0⟩

abbrev PowRun (env : Env) := Run Initial (Step env)

end FaucetApi.Pow.Machine
