/- module: FaucetApi/Batcher/Accounting
   layer: results
   digest: Where every queued payout request is, and how a request may leave the queue. -/

import FaucetApi.Batcher.Machine
import Mathlib.Algebra.Order.Group.Multiset
import Mathlib.Tactic.Abel

set_option autoImplicit false
set_option relaxedAutoImplicit false

namespace FaucetApi.Batcher.Accounting

open FaucetApi.Lib.Runs
open FaucetApi.Pow.Claims
open FaucetApi.Batcher.Wallet
open FaucetApi.Batcher.Machine

variable {W Tx : Type} {bdk : Bdk W Tx} {cfg : BatcherConfig}

abbrev Trace (W Tx : Type) := List (Transition (State W Tx) (Label Tx))

def arrivals : Label Tx → List L1PayoutRequest
  | .queued request => [request]
  | _ => []

def drainedBy : Label Tx → List L1PayoutRequest
  | .tickFailed drained => drained
  | .built batch => batch.requests
  | _ => []

def discardedBy (cfg : BatcherConfig) (x : Transition (State W Tx) (Label Tx)) :
    List L1PayoutRequest :=
  match x.label with
  | .received request =>
      if x.source.l1PayoutQueue.length < cfg.maxInFlight then [] else [request]
  | _ => []

def arrived (ts : Trace W Tx) : List L1PayoutRequest := ts.flatMap (fun x => arrivals x.label)

def drainedIn (ts : Trace W Tx) : List L1PayoutRequest := ts.flatMap (fun x => drainedBy x.label)

def discardedIn (cfg : BatcherConfig) (ts : Trace W Tx) : List L1PayoutRequest :=
  ts.flatMap (discardedBy cfg)

theorem drained_remaining (cfg : BatcherConfig) (queue : List L1PayoutRequest) :
    drained cfg queue ++ remaining cfg queue = queue := List.take_append_drop _ _

private theorem coe_drained_remaining (cfg : BatcherConfig) (queue : List L1PayoutRequest) :
    (↑queue : Multiset L1PayoutRequest) = ↑(remaining cfg queue) + ↑(drained cfg queue) := by
  rw [add_comm, Multiset.coe_add, drained_remaining]

private theorem requests_step
    {s s' : State W Tx} {label : Label Tx} (taken : Step bdk cfg s label s') :
    (↑(arrivals label) : Multiset L1PayoutRequest) + (↑s.channel + ↑s.l1PayoutQueue) =
      (↑s'.channel + ↑s'.l1PayoutQueue) + ↑(drainedBy label) +
        ↑(discardedBy cfg ⟨s, label, s'⟩) := by
  cases taken with
  | @queued request =>
      simp only [arrivals, drainedBy, discardedBy, ← Multiset.coe_add, Multiset.coe_nil]
      abel
  | @received request later head =>
      simp only [arrivals, drainedBy, discardedBy, pushBack, head, Multiset.coe_nil,
        ← Multiset.cons_coe, ← Multiset.singleton_add]
      split
      · simp only [← Multiset.coe_add, Multiset.coe_singleton, Multiset.coe_nil]
        abel
      · simp only [Multiset.coe_singleton]
        abel
  | tickFailed _ _ =>
      simp only [arrivals, drainedBy, discardedBy, Multiset.coe_nil]
      rw [coe_drained_remaining cfg s.l1PayoutQueue]
      abel
  | built _ _ =>
      simp only [arrivals, drainedBy, discardedBy, Multiset.coe_nil]
      rw [coe_drained_remaining cfg s.l1PayoutQueue]
      abel
  | _ => simp [arrivals, drainedBy, discardedBy]

/-- Every request that arrived is in the channel, in the queue, in a batch, or was discarded on
receipt by a full queue. -/
theorem requests_accounted {ts : Trace W Tx} {s : State W Tx} (run : BatcherRun bdk cfg ts s) :
    (↑(arrived ts) : Multiset L1PayoutRequest) =
      (↑s.channel + ↑s.l1PayoutQueue) + ↑(drainedIn ts) + ↑(discardedIn cfg ts) := by
  induction run with
  | start init =>
      obtain ⟨_, _, noChannel, noQueue, _⟩ := init
      simp [arrived, drainedIn, discardedIn, noChannel, noQueue]
  | @next ts s s' label _ taken ih =>
      have moved := requests_step taken
      simp only [arrived, drainedIn, discardedIn, List.flatMap_append, List.flatMap_singleton,
        ← Multiset.coe_add] at ih ⊢
      calc (_ : Multiset L1PayoutRequest)
        _ = (↑(arrivals label) + (↑s.channel + ↑s.l1PayoutQueue)) +
              ↑(ts.flatMap fun x => drainedBy x.label) + ↑(ts.flatMap (discardedBy cfg)) := by
            rw [ih]
            abel
        _ = _ := by
            rw [moved]
            abel

theorem batches_drained {ts : Trace W Tx} {s : State W Tx} (run : BatcherRun bdk cfg ts s) :
    ∀ batch ∈ s.batches, ∀ request ∈ batch.requests, request ∈ drainedIn ts := by
  induction run with
  | start init =>
      obtain ⟨_, _, _, _, none, _⟩ := init
      simp [none]
  | @next ts s s' label _ taken ih =>
      intro batch member request part
      rw [drainedIn, List.flatMap_append, List.mem_append, ← drainedIn]
      have replaced {i : ℕ} {old : Batch Tx} {stage : Stage} (here : s.batches[i]? = some old)
          (member : batch ∈ s.batches.set i { old with stage := stage }) :
          request ∈ drainedIn ts := by
        rcases List.mem_or_eq_of_mem_set member with kept | rfl
        · exact ih batch kept request part
        · exact ih old (List.mem_of_getElem? here) request part
      cases taken with
      | built _ _ =>
          rcases List.mem_append.mp member with old | new
          · exact .inl (ih batch old request part)
          · rw [List.mem_singleton.mp new] at part
            exact .inr (by simpa [drainedBy] using part)
      | broadcast here _ => exact .inl (replaced here member)
      | recorded here _ => exact .inl (replaced here member)
      | _ => exact .inl (ih batch member request part)

/-- A request leaves the queue only as a recipient of a transaction whose `finish` succeeded. -/
def LeavesAsRecipient (bdk : Bdk W Tx) (x : Transition (State W Tx) (Label Tx)) : Prop :=
  match x.label with
  | .built batch => x.source.l1PayoutQueue = batch.requests ++ x.target.l1PayoutQueue ∧
      ∃ feeRate, bdk.finish x.source.wallet feeRate (batch.requests.map recipientOf)
        (some batch.tx) x.target.wallet
  | .tickFailed _ => x.target.l1PayoutQueue = x.source.l1PayoutQueue
  | _ => x.source.l1PayoutQueue <+: x.target.l1PayoutQueue

/-- A tick whose `finish` fails has drained nothing. -/
def FailsUndrained (cfg : BatcherConfig) (x : Transition (State W Tx) (Label Tx)) : Prop :=
  ∀ drained, x.label = .tickFailed drained → cfg.maxPerTx = 0

private theorem remaining_eq_iff (cfg : BatcherConfig) {queue : List L1PayoutRequest}
    (nonempty : queue ≠ []) :
    remaining cfg queue = queue ↔ cfg.maxPerTx = 0 := by
  have some := List.length_pos_iff.mpr nonempty
  constructor
  · intro same
    have lengths := congrArg List.length same
    simp only [remaining, numToDeque, List.length_drop] at lengths
    omega
  · intro zero
    simp [remaining, numToDeque, zero]

theorem leavesAsRecipient_iff {s s' : State W Tx} {label : Label Tx}
    (taken : Step bdk cfg s label s') :
    LeavesAsRecipient bdk ⟨s, label, s'⟩ ↔ FailsUndrained cfg ⟨s, label, s'⟩ := by
  cases taken with
  | tickFailed nonempty _ =>
      have kept := remaining_eq_iff cfg nonempty
      simpa [LeavesAsRecipient, FailsUndrained] using kept
  | built nonempty finished =>
      simp only [LeavesAsRecipient, FailsUndrained, reduceCtorEq, false_implies, implies_true,
        iff_true]
      exact ⟨(drained_remaining cfg _).symm, _, finished⟩
  | received head =>
      simp only [LeavesAsRecipient, FailsUndrained, reduceCtorEq, false_implies, implies_true,
        iff_true, pushBack]
      split
      · exact List.prefix_append _ _
      · exact List.prefix_rfl
  | _ => simp [LeavesAsRecipient, FailsUndrained]

/-- Every request leaves the queue as a recipient exactly in the runs whose failing ticks drain
nothing. -/
theorem requests_leave_as_recipients_iff {ts : Trace W Tx} {s : State W Tx}
    (run : BatcherRun bdk cfg ts s) :
    (∀ x ∈ ts, LeavesAsRecipient bdk x) ↔ ∀ x ∈ ts, FailsUndrained cfg x :=
  forall₂_congr fun _ member => leavesAsRecipient_iff (run.step_of_mem member)

def sampleRequest : L1PayoutRequest := ⟨1, ⟨"tb1q"⟩, 5000⟩

theorem sample_batch {ts : Trace Ledger ℕ} {s : State Ledger ℕ}
    (run : BatcherRun ledgerBdk defaultConfig ts s) (channel : s.channel = [])
    (queue : s.l1PayoutQueue = []) (funded : s.wallet = fundedLedger) (tx : ℕ) :
    ∃ x y z, BatcherRun ledgerBdk defaultConfig (ts ++ [x] ++ [y] ++ [z])
        { s with batches := s.batches ++ [⟨tx, [sampleRequest], .broadcasting⟩] } ∧
      x.label = .queued sampleRequest ∧ y.label = .received sampleRequest ∧
      z.label = .built ⟨tx, [sampleRequest], .broadcasting⟩ ∧ x.source = s ∧
      z.source = { s with l1PayoutQueue := [sampleRequest] } := by
  obtain ⟨now, _, _, _, batches, syncer⟩ := s
  obtain ⟨rfl, rfl, rfl⟩ := And.intro channel (And.intro queue funded)
  have queued := run.next (show Step _ _ _ (.queued sampleRequest) _ from .queued)
  have received := queued.next (.received rfl)
  have built := received.next (.built (show [sampleRequest] ≠ [] by decide)
    (show ledgerBdk.finish _ 250 _ (some tx) _ from
      ⟨rfl, fun tx _ => funded_spendable tx⟩))
  exact ⟨_, _, _, built, rfl, rfl, rfl, rfl, rfl⟩

theorem requests_leave_as_recipients_iff_nonvacuous : ∃ ts s,
    BatcherRun ledgerBdk defaultConfig ts s ∧ (∀ x ∈ ts, LeavesAsRecipient ledgerBdk x) ∧
      s.batches = [⟨1, [sampleRequest], .broadcasting⟩] := by
  obtain ⟨x, y, z, built, queued, received, last, _⟩ :=
    sample_batch (.start (boot_initial Nat.one_pos)) rfl rfl rfl 1
  refine ⟨_, _, built, (requests_leave_as_recipients_iff built).mpr ?_, rfl⟩
  refine snoc_forall (snoc_forall (snoc_forall (by simp) ?_) ?_) ?_ <;> intro drained failed
  · simp [queued] at failed
  · simp [received] at failed
  · simp [last] at failed

/-- `finish` fails, say for lack of funds, and the request is gone. -/
theorem request_lost : ∃ ts s, BatcherRun ledgerBdk defaultConfig ts s ∧
    arrived ts = [sampleRequest] ∧ s.channel = [] ∧ s.l1PayoutQueue = [] ∧ s.batches = [] ∧
      ¬ ∀ x ∈ ts, LeavesAsRecipient ledgerBdk x := by
  have begin : BatcherRun ledgerBdk defaultConfig [] (bootAt 1) := .start (boot_initial Nat.one_pos)
  have queued := begin.next (show Step _ _ _ (.queued sampleRequest) _ from .queued)
  have received := queued.next (.received rfl)
  have failed := received.next (.tickFailed (by decide)
    (show ledgerBdk.finish _ 250 _ none _ from ⟨rfl, by simp⟩))
  refine ⟨_, _, failed, rfl, rfl, rfl, rfl, fun keeps => ?_⟩
  have kept : [] = [sampleRequest] := keeps _ (List.mem_append_right _ List.mem_cons_self)
  simp at kept

end FaucetApi.Batcher.Accounting
