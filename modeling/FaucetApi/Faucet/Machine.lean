/- module: FaucetApi/Faucet/Machine
   layer: source model
   digest: The handlers, the eviction task, the batcher and the syncer as one machine. -/

import FaucetApi.Batcher.Accounting
import FaucetApi.Pow.Consumption

/-!
The two parts meet in one step: `claim_l1` sends its payout request into the batcher's channel and
answers. The channel is unbounded and its receiver lives as long as the process, so that never
fails.
-/

set_option autoImplicit false
set_option relaxedAutoImplicit false

namespace FaucetApi.Faucet.Machine

open FaucetApi.Lib.Runs
open FaucetApi.Pow.Challenges
open FaucetApi.Pow.Claims
open FaucetApi.Pow.Threads
open FaucetApi.Batcher.Wallet
open FaucetApi.Batcher.Accounting

structure State (W Tx : Type) where
  pow : Pow.Machine.State
  batcher : Batcher.Machine.State W Tx

inductive Label (Tx : Type) where
  | pow (label : Pow.Machine.Label)
  | batcher (label : Batcher.Machine.Label Tx)

/-- The request that a step of a handler puts into the batcher's channel. -/
def handedOver : Pow.Machine.Label → Option L1PayoutRequest
  | .thread _ (.queued _ request) => some request
  | _ => none

variable {W Tx : Type}

section

variable (env : Env) (bdk : Bdk W Tx) (cfg : Batcher.Machine.BatcherConfig)

inductive Step : State W Tx → Label Tx → State W Tx → Prop
  | pow {s : State W Tx} {label : Pow.Machine.Label} {pow' : Pow.Machine.State} :
      Pow.Machine.Step env s.pow label pow' → handedOver label = none →
      Step s (.pow label) { s with pow := pow' }
  | claimed {s : State W Tx} {label : Pow.Machine.Label} {request : L1PayoutRequest}
      {pow' : Pow.Machine.State} {batcher' : Batcher.Machine.State W Tx} :
      Pow.Machine.Step env s.pow label pow' → handedOver label = some request →
      Batcher.Machine.Step bdk cfg s.batcher (.queued request) batcher' →
      Step s (.pow label) ⟨pow', batcher'⟩
  | batcher {s : State W Tx} {label : Batcher.Machine.Label Tx}
      {batcher' : Batcher.Machine.State W Tx} :
      Batcher.Machine.Step bdk cfg s.batcher label batcher' →
      (∀ request, label ≠ .queued request) →
      Step s (.batcher label) { s with batcher := batcher' }

def Initial (s : State W Tx) : Prop :=
  Pow.Machine.Initial s.pow ∧ Batcher.Machine.Initial bdk s.batcher

abbrev FaucetRun := Run (Initial bdk) (Step env bdk cfg)

end

abbrev FaucetTrace (W Tx : Type) := List (Transition (State W Tx) (Label Tx))

def powLabel : Label Tx → Option Pow.Machine.Label
  | .pow label => some label
  | .batcher _ => none

def batcherLabel : Label Tx → Option (Batcher.Machine.Label Tx)
  | .pow label => (handedOver label).map .queued
  | .batcher label => some label

def powTrace (ts : FaucetTrace W Tx) : Pow.Threads.Trace :=
  ts.filterMap (Transition.project State.pow powLabel)

def batcherTrace (ts : FaucetTrace W Tx) : Batcher.Accounting.Trace W Tx :=
  ts.filterMap (Transition.project State.batcher batcherLabel)

variable {env : Env} {bdk : Bdk W Tx} {cfg : Batcher.Machine.BatcherConfig}
variable {ts : FaucetTrace W Tx} {s : State W Tx}

theorem batcherTrace_snoc (x : Transition (State W Tx) (Label Tx)) :
    batcherTrace (ts ++ [x]) =
      batcherTrace ts ++ (x.project State.batcher batcherLabel).toList :=
  filterMap_snoc _ ts x

/-- The faucet's run, as the handlers and the eviction task see it. -/
theorem pow_run (run : FaucetRun env bdk cfg ts s) :
    Pow.Machine.PowRun env (powTrace ts) s.pow := by
  refine run.project (fun _ init => init.1) ?_
  intro s l s' taken
  cases taken with
  | pow taken _ => exact taken
  | claimed taken _ _ => exact taken
  | batcher _ _ => exact rfl

/-- The faucet's run, as the batcher and the syncer see it. -/
theorem batcher_run (run : FaucetRun env bdk cfg ts s) :
    Batcher.Machine.BatcherRun bdk cfg (batcherTrace ts) s.batcher := by
  refine run.project (fun _ init => init.2) ?_
  intro s l s' taken
  cases taken with
  | pow _ nothing => simp [TakesPart, batcherLabel, nothing]
  | claimed _ request taken => simpa [TakesPart, batcherLabel, request] using taken
  | batcher taken _ => exact taken

end FaucetApi.Faucet.Machine
