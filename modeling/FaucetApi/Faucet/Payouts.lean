/- module: FaucetApi/Faucet/Payouts
   layer: invariants
   digest: The accepted payouts, and which of them the wallet's balance already shows. -/

import FaucetApi.Faucet.Admission
import Mathlib.Algebra.Order.BigOperators.Group.List

/-!
A payout leaves the wallet's balance when the wallet first counts the transaction of its batch:
because the batcher has recorded it, or because a sync has found it before that.
-/

set_option autoImplicit false
set_option relaxedAutoImplicit false

namespace FaucetApi.Faucet.Payouts

open FaucetApi.Lib.Runs
open FaucetApi.Pow.Claims
open FaucetApi.Batcher.Wallet
open FaucetApi.Batcher.Machine (BatcherConfig Batch)
open FaucetApi.Batcher.Accounting
open FaucetApi.Faucet.Machine
open FaucetApi.Faucet.Admission

variable {W Tx : Type} {env : Env} {bdk : Bdk W Tx} {cfg : BatcherConfig}
variable {ts : FaucetTrace W Tx} {s s' : State W Tx} {l : Label Tx}

def total (requests : Multiset L1PayoutRequest) : ℕ :=
  (requests.map L1PayoutRequest.amount).sum

private theorem total_add (requests requests' : Multiset L1PayoutRequest) :
    total (requests + requests') = total requests + total requests' := by
  simp [total]

theorem total_mono {requests requests' : Multiset L1PayoutRequest} (le : requests ≤ requests') :
    total requests ≤ total requests' := by
  obtain ⟨more, rfl⟩ := Multiset.le_iff_exists_add.mp le
  rw [total_add]
  exact Nat.le_add_right _ _

section

open Classical

noncomputable def countedOf (bdk : Bdk W Tx) (w : W) (batch : Batch Tx) :
    Multiset L1PayoutRequest :=
  if bdk.counts w batch.tx then ↑batch.requests else 0

noncomputable def countedRequests (bdk : Bdk W Tx) (s : Batcher.Machine.State W Tx) :
    Multiset L1PayoutRequest :=
  (s.batches.map (countedOf bdk s.wallet)).sum

/-- The requests of a batch whose transaction is out: its broadcast returned no error, or the wallet
counts it. -/
noncomputable def broadcastOf (bdk : Bdk W Tx) (w : W) (batch : Batch Tx) :
    Multiset L1PayoutRequest :=
  if bdk.counts w batch.tx ∨ batch.stage = .returned true ∨ batch.stage = .recorded true then
    ↑batch.requests
  else 0

end

/-- The accepted payouts that are still in the wallet's balance. -/
noncomputable def outstanding (env : Env) (bdk : Bdk W Tx) (s : State W Tx) :
    Multiset L1PayoutRequest :=
  acknowledged env s.pow - countedRequests bdk s.batcher

/-- The accepted payouts that have not been broadcast. -/
noncomputable def unbroadcast (env : Env) (bdk : Bdk W Tx) (s : State W Tx) :
    Multiset L1PayoutRequest :=
  acknowledged env s.pow - (s.batcher.batches.map (broadcastOf bdk s.batcher.wallet)).sum

theorem unbroadcast_le_outstanding (env : Env) (bdk : Bdk W Tx) (s : State W Tx) :
    unbroadcast env bdk s ≤ outstanding env bdk s := by
  refine tsub_le_tsub_left (List.sum_le_sum ?_) _
  intro batch _
  unfold countedOf broadcastOf
  by_cases counted : bdk.counts s.batcher.wallet batch.tx
  · rw [if_pos counted, if_pos (Or.inl counted)]
  · rw [if_neg counted]
    exact Multiset.zero_le _

theorem unbroadcast_of_unbuilt (unbuilt : s.batcher.batches = []) :
    unbroadcast env bdk s = acknowledged env s.pow := by
  simp [unbroadcast, unbuilt]

private theorem sum_map_set {α M : Type} [AddCommMonoid M] (f : α → M) {xs : List α} {i : ℕ}
    {a : α} (b : α) (here : xs[i]? = some a) :
    ((xs.set i b).map f).sum + f a = (xs.map f).sum + f b := by
  induction xs generalizing i with
  | nil => simp at here
  | cons x xs ih =>
      cases i with
      | zero =>
          obtain rfl : x = a := by simpa using here
          simp only [List.set_cons_zero, List.map_cons, List.sum_cons]
          rw [add_right_comm, add_comm (f b), add_assoc, add_comm (f b), ← add_assoc,
            add_right_comm]
      | succ i =>
          have rest := ih (i := i) (by simpa using here)
          simp only [List.set_cons_succ, List.map_cons, List.sum_cons]
          rw [add_assoc, rest, add_assoc]

private theorem batches_le_drained {bs : Batcher.Accounting.Trace W Tx}
    {b : Batcher.Machine.State W Tx} (run : Batcher.Machine.BatcherRun bdk cfg bs b) :
    (b.batches.map fun batch => (↑batch.requests : Multiset L1PayoutRequest)).sum ≤
      ↑(drainedIn bs) := by
  induction run with
  | start init =>
      obtain ⟨_, _, _, _, none, _⟩ := init
      rw [none, List.map_nil, List.sum_nil]
      exact Multiset.zero_le _
  | @next bs b b' label _ taken ih =>
      rw [drainedIn, List.flatMap_append, List.flatMap_singleton, ← drainedIn, ← Multiset.coe_add]
      have replaced {i : ℕ} {batch : Batch Tx} (stage : Batcher.Machine.Stage)
          (here : b.batches[i]? = some batch) :
          ((b.batches.set i { batch with stage := stage }).map
            fun batch => (↑batch.requests : Multiset L1PayoutRequest)).sum ≤ ↑(drainedIn bs) := by
        have moved := sum_map_set (fun batch => (↑batch.requests : Multiset L1PayoutRequest))
          { batch with stage := stage } here
        rwa [add_right_cancel moved]
      cases taken with
      | built _ _ =>
          rw [List.map_append, List.sum_append, List.map_singleton, List.sum_singleton]
          exact Multiset.add_le_add_right ih
      | broadcast here _ => exact (replaced _ here).trans (Multiset.le_add_right _ _)
      | recorded here _ => exact (replaced _ here).trans (Multiset.le_add_right _ _)
      | _ => exact ih.trans (Multiset.le_add_right _ _)

private theorem counted_le_acknowledged (run : FaucetRun env bdk cfg ts s) :
    countedRequests bdk s.batcher ≤ acknowledged env s.pow := by
  have part : countedRequests bdk s.batcher ≤
      (s.batcher.batches.map fun batch => (↑batch.requests : Multiset L1PayoutRequest)).sum := by
    refine List.sum_le_sum ?_
    intro batch _
    unfold countedOf
    split_ifs
    · exact le_rfl
    · exact Multiset.zero_le _
  rw [(acknowledged_requests_accounted run).1]
  calc countedRequests bdk s.batcher
    _ ≤ ↑(drainedIn (batcherTrace ts)) := part.trans (batches_le_drained (batcher_run run))
    _ ≤ (↑s.batcher.channel + ↑s.batcher.l1PayoutQueue) + ↑(drainedIn (batcherTrace ts)) :=
        Multiset.le_add_left _ _
    _ ≤ _ := Multiset.le_add_right _ _

/-- An accepted payout is outstanding or counted. -/
theorem outstanding_add_counted (run : FaucetRun env bdk cfg ts s) :
    total (outstanding env bdk s) + total (countedRequests bdk s.batcher) =
      total (acknowledged env s.pow) := by
  rw [← total_add, outstanding, tsub_add_cancel_of_le (counted_le_acknowledged run)]

def accepted : Label Tx → Option L1PayoutRequest
  | .pow label => handedOver label
  | .batcher _ => none

theorem acknowledged_next (taken : Step env bdk cfg s l s') :
    total (acknowledged env s'.pow) =
      total (acknowledged env s.pow) + (accepted l).elim 0 L1PayoutRequest.amount := by
  cases taken with
  | pow taken nothing =>
      rw [acknowledged_step taken, accepted, nothing]
      simp
  | claimed taken given _ =>
      rw [acknowledged_step taken, accepted, given, total_add, add_comm]
      simp [total]
  | batcher _ _ => rfl

end FaucetApi.Faucet.Payouts
