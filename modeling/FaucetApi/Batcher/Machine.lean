/- module: FaucetApi/Batcher/Machine
   layer: source model
   digest: The batcher task, its broadcast tasks and the wallet syncer, interleaved step by step. -/

import FaucetApi.Batcher.Wallet
import FaucetApi.Lib.Runs

/-!
The batcher task holds the wallet's lock from `build_tx` until the transaction is signed, so a tick
is one step; the code expects signing to succeed. The broadcast is a network call and the recording
of its transaction takes the lock anew; each is a step of the task that the tick spawned. A sync is
a network call between two steps that take the lock.
-/

set_option autoImplicit false
set_option relaxedAutoImplicit false

namespace FaucetApi.Batcher.Machine

open FaucetApi.Lib.Runs
open FaucetApi.Pow.Claims
open FaucetApi.Batcher.Wallet

/-- The part of `BatcherConfig` that decides what a step does; `period` decides only when. -/
structure BatcherConfig where
  maxPerTx : ℕ
  maxInFlight : ℕ

/-- How far the broadcast task of a batch is. -/
inductive Stage where
  | broadcasting
  /-- The broadcast returned, without an error or with one. -/
  | returned (sent : Bool)
  /-- `apply_unconfirmed_txs` is done and the task has ended. -/
  | recorded (sent : Bool)
  deriving DecidableEq

/-- A transaction that was built and handed to a broadcast task. -/
structure Batch (Tx : Type) where
  tx : Tx
  requests : List L1PayoutRequest
  stage : Stage

def Stage.inFlight : Stage → Bool
  | .recorded _ => false
  | _ => true

def Stage.failed : Stage → Bool
  | .broadcasting => false
  | .returned sent => !sent
  | .recorded sent => !sent

/-- The loop of `spawn_syncer`. -/
inductive Syncer where
  | asleep
  | syncing (startTime : ℕ)

structure State (W Tx : Type) where
  /-- Milliseconds since the epoch. -/
  now : ℕ
  channel : List L1PayoutRequest
  l1PayoutQueue : List L1PayoutRequest
  wallet : W
  /-- Every batch so far, in the order built. -/
  batches : List (Batch Tx)
  syncer : Syncer

inductive Label (Tx : Type) where
  | clock (millis : ℕ)
  | queued (request : L1PayoutRequest)
  | received (request : L1PayoutRequest)
  | tickIdle
  | tickFailed (drained : List L1PayoutRequest)
  | built (batch : Batch Tx)
  | broadcast (batch : ℕ) (sent : Bool)
  | recorded (batch : ℕ)
  | syncStarted
  | syncFailed
  | syncApplied (update : Update Tx)

def recipientOf (request : L1PayoutRequest) : Recipient := (request.address, request.amount)

/-- `max_per_tx.min(l1_payout_queue.len())`. -/
def numToDeque (cfg : BatcherConfig) (queue : List L1PayoutRequest) : ℕ :=
  min cfg.maxPerTx queue.length

def drained (cfg : BatcherConfig) (queue : List L1PayoutRequest) : List L1PayoutRequest :=
  queue.take (numToDeque cfg queue)

def remaining (cfg : BatcherConfig) (queue : List L1PayoutRequest) : List L1PayoutRequest :=
  queue.drop (numToDeque cfg queue)

/-- The receive arm: a request is dropped when the queue is full. -/
def pushBack (cfg : BatcherConfig) (queue : List L1PayoutRequest) (request : L1PayoutRequest) :
    List L1PayoutRequest :=
  if queue.length < cfg.maxInFlight then queue ++ [request] else queue

def seconds (millis : ℕ) : ℕ := millis / 1000

variable {W Tx : Type}

section

variable (bdk : Bdk W Tx) (cfg : BatcherConfig)

inductive Step : State W Tx → Label Tx → State W Tx → Prop
  | clock {s : State W Tx} {millis : ℕ} :
      Step s (.clock millis) { s with now := s.now + millis }
  /-- `queue_payout_request`. -/
  | queued {s : State W Tx} {request : L1PayoutRequest} :
      Step s (.queued request) { s with channel := s.channel ++ [request] }
  | received {s : State W Tx} {request : L1PayoutRequest} {later : List L1PayoutRequest} :
      s.channel = request :: later →
      Step s (.received request)
        { s with channel := later, l1PayoutQueue := pushBack cfg s.l1PayoutQueue request }
  | tickIdle {s : State W Tx} : s.l1PayoutQueue = [] → Step s .tickIdle s
  /-- `finish` returned an error: the drained requests are gone. -/
  | tickFailed {s : State W Tx} {feeRate : FeeRate} {wallet' : W} :
      s.l1PayoutQueue ≠ [] →
      bdk.finish s.wallet feeRate ((drained cfg s.l1PayoutQueue).map recipientOf) none wallet' →
      Step s (.tickFailed (drained cfg s.l1PayoutQueue))
        { s with l1PayoutQueue := remaining cfg s.l1PayoutQueue, wallet := wallet' }
  | built {s : State W Tx} {feeRate : FeeRate} {tx : Tx} {wallet' : W} :
      s.l1PayoutQueue ≠ [] →
      bdk.finish s.wallet feeRate ((drained cfg s.l1PayoutQueue).map recipientOf) (some tx)
        wallet' →
      Step s (.built ⟨tx, drained cfg s.l1PayoutQueue, .broadcasting⟩)
        { s with
          l1PayoutQueue := remaining cfg s.l1PayoutQueue
          wallet := wallet'
          batches := s.batches ++ [⟨tx, drained cfg s.l1PayoutQueue, .broadcasting⟩] }
  | broadcast {s : State W Tx} {i : ℕ} {batch : Batch Tx} {sent : Bool} :
      s.batches[i]? = some batch → batch.stage = .broadcasting →
      Step s (.broadcast i sent)
        { s with batches := s.batches.set i { batch with stage := .returned sent } }
  /-- After an error the task goes on as after a success. The time is in milliseconds. -/
  | recorded {s : State W Tx} {i : ℕ} {batch : Batch Tx} {sent : Bool} :
      s.batches[i]? = some batch → batch.stage = .returned sent →
      Step s (.recorded i)
        { s with
          wallet := bdk.applyUnconfirmedTxs s.wallet batch.tx s.now
          batches := s.batches.set i { batch with stage := .recorded sent } }
  | syncStarted {s : State W Tx} :
      s.syncer = .asleep →
      Step s .syncStarted { s with syncer := .syncing (seconds s.now) }
  | syncFailed {s : State W Tx} {startTime : ℕ} :
      s.syncer = .syncing startTime → Step s .syncFailed { s with syncer := .asleep }
  | syncApplied {s : State W Tx} {update : Update Tx} :
      s.syncer = .syncing update.startTime →
      Step s (.syncApplied update)
        { s with wallet := bdk.applyUpdate s.wallet update, syncer := .asleep }

/-- The batcher as the server starts it, on a wallet whose recorded evictions are in the past. -/
def Initial (s : State W Tx) : Prop :=
  0 < s.now ∧ (∀ tx, bdk.evictedAt s.wallet tx ≤ (seconds s.now : WithBot ℕ)) ∧
    s.channel = [] ∧ s.l1PayoutQueue = [] ∧ s.batches = [] ∧ s.syncer = .asleep

abbrev BatcherRun := Run (Initial bdk) (Step bdk cfg)

end

def bootAt (now : ℕ) : State Ledger ℕ := ⟨now, [], [], fundedLedger, [], .asleep⟩

def defaultConfig : BatcherConfig := ⟨250, 2500⟩

theorem boot_initial {now : ℕ} (started : 0 < now) : Initial ledgerBdk (bootAt now) :=
  ⟨started, fun _ => bot_le, rfl, rfl, rfl, rfl⟩

end FaucetApi.Batcher.Machine
