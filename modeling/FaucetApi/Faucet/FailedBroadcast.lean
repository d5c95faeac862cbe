/- module: FaucetApi/Faucet/FailedBroadcast
   layer: results
   digest: What a batch leaves behind when its broadcast failed. -/

import FaucetApi.Batcher.LastSeen
import FaucetApi.Faucet.Admission

set_option autoImplicit false
set_option relaxedAutoImplicit false

namespace FaucetApi.Faucet.FailedBroadcast

open FaucetApi.Lib.Runs
open FaucetApi.Pow.Claims
open FaucetApi.Pow.Consumption
open FaucetApi.Batcher.Wallet
open FaucetApi.Batcher.Machine (BatcherConfig Batch bootAt defaultConfig)
open FaucetApi.Batcher.Accounting
open FaucetApi.Batcher.LastSeen
open FaucetApi.Faucet.Machine
open FaucetApi.Faucet.Admission

variable {W Tx : Type} {env : Env} {bdk : Bdk W Tx} {cfg : BatcherConfig}
variable {ts a b : FaucetTrace W Tx} {s : State W Tx} {x : Transition (State W Tx) (Label Tx)}
variable {batch : Batch Tx}

/-- The step in which the task of a batch ends, after its broadcast returned an error. -/
def FailedTaskEnds (x : Transition (State W Tx) (Label Tx)) (batch : Batch Tx) : Prop :=
  ∃ i, x.label = .batcher (.recorded i) ∧ x.source.batcher.batches[i]? = some batch ∧
    batch.stage = .returned false

/-- Everything is as if the batch had not been built. -/
structure NoLastingEffect (bdk : Bdk W Tx) (s : Batcher.Machine.State W Tx) (batch : Batch Tx) :
    Prop where
  unrecorded : ¬ bdk.Recorded s.wallet batch.tx
  inputs_spendable : ∀ o ∈ bdk.inputs batch.tx, bdk.Spendable s.wallet o
  change_gone : ∀ o ∈ bdk.ownOutputs batch.tx, ¬ bdk.Spendable s.wallet o
  pending : ∀ request ∈ batch.requests, request ∈ s.channel ∨ request ∈ s.l1PayoutQueue

private theorem FailedTaskEnds.projected (ends : FailedTaskEnds x batch)
    (split : ts = a ++ x :: b) :
    ∃ y rest, batcherTrace ts = batcherTrace a ++ y :: rest ∧
      RecordedAt y batch.tx x.source.batcher.now := by
  obtain ⟨i, label, here, _⟩ := ends
  refine ⟨⟨x.source.batcher, .recorded i, x.target.batcher⟩, batcherTrace b, ?_, i, batch, rfl,
    here, rfl, rfl⟩
  rw [split, batcherTrace, List.filterMap_append, List.filterMap_cons_some (b :=
    ⟨x.source.batcher, .recorded i, x.target.batcher⟩)]
  · rfl
  · simp [Transition.project, batcherLabel, label]

theorem failed_recorded [DecidableEq Tx] (lawful : Lawful bdk) (run : FaucetRun env bdk cfg ts s)
    (split : ts = a ++ x :: b) (ends : FailedTaskEnds x batch) :
    bdk.Recorded s.batcher.wallet batch.tx := by
  obtain ⟨y, rest, trace, recorded⟩ := ends.projected split
  have member : y ∈ batcherTrace ts := trace ▸ List.mem_append_right _ List.mem_cons_self
  have clocks := clocks_run lawful (batcher_run run)
  have seen := clocks.recorded y member _ _ recorded
  intro never
  rw [never] at seen
  exact WithBot.coe_ne_bot (le_bot_iff.mp seen)

theorem failed_not_pending (run : FaucetRun env bdk cfg ts s) (split : ts = a ++ x :: b)
    (ends : FailedTaskEnds x batch) : ∀ request ∈ batch.requests,
      request ∉ s.batcher.channel ∧ request ∉ s.batcher.l1PayoutQueue := by
  intro request part
  obtain ⟨y, rest, trace, _⟩ := ends.projected split
  obtain ⟨_, _, here, _⟩ := ends
  have drained := batches_drained (batcher_run (run.cut split)) batch (List.mem_of_getElem? here)
    request part
  refine drained_not_pending run ?_
  rw [trace, drainedIn, List.flatMap_append]
  exact List.mem_append_left _ drained

theorem failed_counts [DecidableEq Tx] (lawful : Lawful bdk) (run : FaucetRun env bdk cfg ts s)
    (split : ts = a ++ x :: b) (ends : FailedTaskEnds x batch)
    (untouched : ∀ o ∈ bdk.inputs batch.tx, bdk.Spendable x.source.batcher.wallet o) :
    bdk.counts x.target.batcher.wallet batch.tx := by
  have past := evicted_before_now lawful (batcher_run (run.cut split)) batch.tx
  have taken := run.step_at split
  obtain ⟨source, label, target⟩ := x
  obtain ⟨i, rfl, here, _⟩ := ends
  change Step env bdk cfg source (.batcher (.recorded i)) target at taken
  cases taken with
  | batcher taken _ =>
      cases taken with
      | recorded there _ =>
          obtain rfl := Option.some.inj (here.symm.trans there)
          exact (lawful.unconfirmed_counts _ _ _ (.inr untouched) past).1

/-- In every state after the task of a batch whose broadcast failed has ended, the wallet knows the
transaction and the requests are not pending; and unless something else had taken the inputs, they
are spent when the task ends. -/
theorem failed_broadcast_has_lasting_effect [DecidableEq Tx] (lawful : Lawful bdk)
    (run : FaucetRun env bdk cfg ts s) (split : ts = a ++ x :: b)
    (ends : FailedTaskEnds x batch) :
    ¬ NoLastingEffect bdk s.batcher batch ∧ bdk.Recorded s.batcher.wallet batch.tx ∧
      (∀ request ∈ batch.requests,
        request ∉ s.batcher.channel ∧ request ∉ s.batcher.l1PayoutQueue) ∧
      ((∀ o ∈ bdk.inputs batch.tx, bdk.Spendable x.source.batcher.wallet o) →
        bdk.counts x.target.batcher.wallet batch.tx ∧
          ∀ o ∈ bdk.inputs batch.tx, bdk.Spent x.target.batcher.wallet o) := by
  have recorded := failed_recorded lawful run split ends
  refine ⟨fun none => none.unrecorded recorded, recorded, failed_not_pending run split ends,
    fun untouched => ?_⟩
  have counted := failed_counts lawful run split ends untouched
  exact ⟨counted, fun o spends => ⟨batch.tx, counted, spends⟩⟩

private theorem failed_run : ∃ ts s x, FaucetRun sampleEnv ledgerBdk defaultConfig (ts ++ [x]) s ∧
    FailedTaskEnds x ⟨1, [firstRequest], .returned false⟩ ∧ x.target = s ∧
    x.source.batcher.wallet = fundedLedger ∧ s.batcher.wallet = fundedLedger.see 1 1 := by
  obtain ⟨_, ⟨_, _⟩, claimed, rfl, _⟩ := first_claim defaultConfig
  have received := claimed.next (.batcher (.received rfl) (by simp))
  have built := received.next (.batcher (.built (show [firstRequest] ≠ [] by decide)
    (show ledgerBdk.finish _ 250 _ (some 1) _ from
      ⟨rfl, fun tx _ => funded_spendable tx⟩)) (by simp))
  have failed := built.next (.batcher
    (show Batcher.Machine.Step _ _ _ (.broadcast 0 false) _ from .broadcast rfl rfl) (by simp))
  have ended := failed.next (.batcher (@Batcher.Machine.Step.recorded _ _ _ _ _ 0
    ⟨1, [firstRequest], .returned false⟩ false rfl rfl) (by simp))
  exact ⟨_, _, _, ended, ⟨0, rfl, rfl, rfl⟩, rfl, rfl, rfl⟩

theorem failed_broadcast_has_lasting_effect_nonvacuous : ∃ ts s,
    FaucetRun sampleEnv ledgerBdk defaultConfig ts s ∧ ledgerBdk.Recorded s.batcher.wallet 1 ∧
      ledgerBdk.Spent s.batcher.wallet coin ∧ firstRequest ∉ s.batcher.l1PayoutQueue := by
  obtain ⟨ts, s, x, run, ends, rfl, wallet, _⟩ := failed_run
  obtain ⟨_, recorded, gone, spent⟩ :=
    failed_broadcast_has_lasting_effect ledger_lawful run rfl ends
  refine ⟨_, _, run, recorded, (spent ?_).2 coin List.mem_cons_self, (gone _ List.mem_cons_self).2⟩
  rw [wallet]
  exact funded_spendable 1

/-- The coin is stuck behind a transaction that nobody has, and its change can be selected. -/
theorem failed_batch_kept : ∃ ts s x, FaucetRun sampleEnv ledgerBdk defaultConfig (ts ++ [x]) s ∧
    FailedTaskEnds x ⟨1, [firstRequest], .returned false⟩ ∧ x.target = s ∧
    ledgerBdk.Spendable s.batcher.wallet ⟨1, 0⟩ ∧
    ¬ NoLastingEffect ledgerBdk s.batcher ⟨1, [firstRequest], .returned false⟩ := by
  obtain ⟨ts, s, x, run, ends, same, _, wallet⟩ := failed_run
  have change := seen_change_spendable Nat.one_ne_zero 1
  rw [← wallet] at change
  exact ⟨ts, s, x, run, ends, same, change,
    fun none => none.change_gone _ List.mem_cons_self change⟩

end FaucetApi.Faucet.FailedBroadcast
