/- module: FaucetApi/Batcher/Queue
   layer: results
   digest: The payout queue is first in, first out, bounded, and drained in exact batches. -/

import FaucetApi.Batcher.Accounting

set_option autoImplicit false
set_option relaxedAutoImplicit false

namespace FaucetApi.Batcher.Queue

open FaucetApi.Lib.Runs
open FaucetApi.Pow.Claims
open FaucetApi.Batcher.Wallet
open FaucetApi.Batcher.Machine
open FaucetApi.Batcher.Accounting

variable {W Tx : Type} {bdk : Bdk W Tx} {cfg : BatcherConfig}
variable {ts : Trace W Tx} {s s' : State W Tx} {label : Label Tx}

/-! The loop over `l1_payout_queue.drain(..num_to_deque)`. -/

/-- The recipients added to the builder, and the local `total_sent`. -/
structure Draft where
  recipients : List Recipient
  totalSent : Amount
  deriving DecidableEq

/-- One round of the loop. An `Amount` is a `u64`, and its addition panics instead of wrapping. -/
def Draft.add (draft : Draft) (req : L1PayoutRequest) : Option Draft :=
  if draft.totalSent + req.amount < 2 ^ 64 then
    some ⟨draft.recipients ++ [recipientOf req], draft.totalSent + req.amount⟩
  else none

def drainLoop (requests : List L1PayoutRequest) : Option Draft :=
  requests.foldlM Draft.add ⟨[], 0⟩

def totalOf (requests : List L1PayoutRequest) : Amount :=
  (requests.map L1PayoutRequest.amount).sum

private theorem foldlM_add_eq_some {requests : List L1PayoutRequest} {draft draft' : Draft}
    (looped : requests.foldlM Draft.add draft = some draft') :
    draft'.recipients = draft.recipients ++ requests.map recipientOf ∧
      draft'.totalSent = draft.totalSent + totalOf requests := by
  induction requests generalizing draft with
  | nil =>
      obtain rfl := Option.some.inj looped
      simp [totalOf]
  | cons req requests ih =>
      rw [List.foldlM_cons] at looped
      obtain ⟨next, added, rest⟩ := Option.bind_eq_some_iff.mp looped
      unfold Draft.add at added
      split_ifs at added
      obtain rfl := Option.some.inj added
      obtain ⟨recipients, total⟩ := ih rest
      refine ⟨by simpa using recipients, ?_⟩
      simpa [totalOf, Nat.add_assoc] using total

theorem drainLoop_eq_some {requests : List L1PayoutRequest} {draft : Draft}
    (looped : drainLoop requests = some draft) :
    draft.recipients = requests.map recipientOf ∧ draft.totalSent = totalOf requests := by
  simpa using foldlM_add_eq_some looped

private theorem foldlM_add_isSome {requests : List L1PayoutRequest} {draft : Draft}
    (small : draft.totalSent + totalOf requests < 2 ^ 64) :
    (requests.foldlM Draft.add draft).isSome := by
  induction requests generalizing draft with
  | nil => rfl
  | cons req requests ih =>
      simp only [totalOf, List.map_cons, List.sum_cons, ← Nat.add_assoc] at small
      have fits : draft.totalSent + req.amount < 2 ^ 64 :=
        (Nat.le_add_right _ _).trans_lt small
      rw [List.foldlM_cons, Draft.add, if_pos fits]
      exact ih small

theorem drainLoop_isSome {requests : List L1PayoutRequest} (small : totalOf requests < 2 ^ 64) :
    (drainLoop requests).isSome := foldlM_add_isSome (by simpa using small)

/-! What was received, what was admitted, and what each tick drained. -/

def receivedBy : Label Tx → List L1PayoutRequest
  | .received request => [request]
  | _ => []

/-- The request that a step receives while the queue is shorter than `max_in_flight`. -/
def admittedBy (cfg : BatcherConfig) (x : Transition (State W Tx) (Label Tx)) :
    List L1PayoutRequest :=
  if x.source.l1PayoutQueue.length < cfg.maxInFlight then receivedBy x.label else []

def receivedIn (ts : Trace W Tx) : List L1PayoutRequest := ts.flatMap (fun x => receivedBy x.label)

def admittedIn (cfg : BatcherConfig) (ts : Trace W Tx) : List L1PayoutRequest :=
  ts.flatMap (admittedBy cfg)

/-- The batch that a tick drains, whether or not its `finish` succeeds. -/
def batchOf : Label Tx → Option (List L1PayoutRequest)
  | .tickFailed drained => some drained
  | .built batch => some batch.requests
  | _ => none

theorem queue_step (taken : Step bdk cfg s label s') :
    drainedBy label ++ s'.l1PayoutQueue =
      s.l1PayoutQueue ++ admittedBy cfg ⟨s, label, s'⟩ := by
  cases taken with
  | received _ =>
      simp only [drainedBy, admittedBy, receivedBy, pushBack, List.nil_append]
      split <;> simp
  | tickFailed _ _ => simpa [drainedBy, admittedBy, receivedBy] using drained_remaining cfg _
  | built _ _ => simpa [drainedBy, admittedBy, receivedBy] using drained_remaining cfg _
  | _ => simp [drainedBy, admittedBy, receivedBy]

/-- The drained batches, one after the other, and then the queue are what was admitted. -/
theorem drained_queue_admitted (run : BatcherRun bdk cfg ts s) :
    drainedIn ts ++ s.l1PayoutQueue = admittedIn cfg ts := by
  induction run with
  | start init =>
      obtain ⟨_, _, _, noQueue, _⟩ := init
      simp [drainedIn, admittedIn, noQueue]
  | @next ts s s' label _ taken ih =>
      have moved := queue_step taken
      simp only [drainedIn, admittedIn, List.flatMap_append, List.flatMap_singleton] at ih ⊢
      rw [← ih, List.append_assoc, List.append_assoc, moved]

private theorem queue_length_step (taken : Step bdk cfg s label s')
    (before : s.l1PayoutQueue.length ≤ cfg.maxInFlight) :
    s'.l1PayoutQueue.length ≤ cfg.maxInFlight := by
  have shrunk : (remaining cfg s.l1PayoutQueue).length ≤ s.l1PayoutQueue.length := by
    rw [remaining, List.length_drop]
    exact Nat.sub_le _ _
  cases taken with
  | received _ =>
      simp only [pushBack]
      split
      · rename_i room
        rw [List.length_append, List.length_singleton]
        exact room
      · exact before
  | tickFailed _ _ => exact shrunk.trans before
  | built _ _ => exact shrunk.trans before
  | _ => exact before

theorem queue_length_le (run : BatcherRun bdk cfg ts s) :
    s.l1PayoutQueue.length ≤ cfg.maxInFlight := by
  refine run.invariant ?_ (fun _ _ _ before taken => queue_length_step taken before)
  rintro s ⟨_, _, _, noQueue, _⟩
  simp [noQueue]

theorem admitted_sublist_received (ts : Trace W Tx) :
    (admittedIn cfg ts).Sublist (receivedIn ts) := by
  induction ts with
  | nil => exact List.Sublist.refl _
  | cons x ts ih =>
      simp only [admittedIn, receivedIn, List.flatMap_cons] at ih ⊢
      refine List.Sublist.append ?_ ih
      unfold admittedBy
      split
      · exact List.Sublist.refl _
      · exact List.nil_sublist _

theorem batch_step {requests : List L1PayoutRequest} (taken : Step bdk cfg s label s')
    (batch : batchOf label = some requests) :
    s.l1PayoutQueue = requests ++ s'.l1PayoutQueue ∧
      requests.length = min cfg.maxPerTx s.l1PayoutQueue.length := by
  have size : (drained cfg s.l1PayoutQueue).length =
      min cfg.maxPerTx s.l1PayoutQueue.length := by
    rw [drained, numToDeque, List.length_take]
    omega
  cases taken with
  | tickFailed _ _ =>
      obtain rfl := Option.some.inj batch
      exact ⟨(drained_remaining cfg _).symm, size⟩
  | built _ _ =>
      obtain rfl := Option.some.inj batch
      exact ⟨(drained_remaining cfg _).symm, size⟩
  | _ => cases batch

/-- What `finish` was given when it built a transaction. -/
theorem built_step {batch : Batch Tx} (taken : Step bdk cfg s (.built batch) s') :
    ∃ feeRate, bdk.finish s.wallet feeRate (batch.requests.map recipientOf) (some batch.tx)
      s'.wallet := by
  cases taken with
  | built _ finished => exact ⟨_, finished⟩

/-- The queue discipline of the batcher. The drained batches followed by the queue are, in order,
the requests that found the queue shorter than `max_in_flight`; they are received requests in the
order received; the queue is never longer than `max_in_flight`; every batch is the front of the
queue and as long as `max_per_tx` allows; and a transaction is built from the loop's recipients,
which with `total_sent` are those of exactly its batch. -/
theorem queue_discipline (run : BatcherRun bdk cfg ts s) :
    drainedIn ts ++ s.l1PayoutQueue = admittedIn cfg ts ∧
    (admittedIn cfg ts).Sublist (receivedIn ts) ∧
    ((receivedIn ts).Nodup → (drainedIn ts ++ s.l1PayoutQueue).Nodup) ∧
    s.l1PayoutQueue.length ≤ cfg.maxInFlight ∧
    (∀ x ∈ ts, ∀ requests, batchOf x.label = some requests →
      x.source.l1PayoutQueue = requests ++ x.target.l1PayoutQueue ∧
        requests.length = min cfg.maxPerTx x.source.l1PayoutQueue.length) ∧
    (∀ x ∈ ts, ∀ batch, x.label = .built batch → ∀ draft, drainLoop batch.requests = some draft →
      (∃ feeRate, bdk.finish x.source.wallet feeRate draft.recipients (some batch.tx)
        x.target.wallet) ∧
      draft.recipients = batch.requests.map (fun req => (req.address, req.amount)) ∧
      draft.totalSent = (batch.requests.map L1PayoutRequest.amount).sum) := by
  have order := drained_queue_admitted run
  refine ⟨order, admitted_sublist_received ts, ?_, queue_length_le run, ?_, ?_⟩
  · intro distinct
    rw [order]
    exact distinct.sublist (admitted_sublist_received ts)
  · intro x member requests batch
    exact batch_step (run.step_of_mem member) batch
  · rintro ⟨source, label, target⟩ member batch rfl draft looped
    obtain ⟨recipients, total⟩ := drainLoop_eq_some looped
    obtain ⟨feeRate, finished⟩ := built_step (run.step_of_mem member)
    exact ⟨⟨feeRate, recipients ▸ finished⟩, recipients, total⟩

def requestOf (id : CallId) : L1PayoutRequest := ⟨id, ⟨"tb1q"⟩, 5000⟩

/-- Four requests come to a queue of three, and two ticks drain it. -/
theorem queue_discipline_nonvacuous : ∃ ts s, BatcherRun ledgerBdk ⟨2, 3⟩ ts s ∧
    receivedIn ts = [requestOf 0, requestOf 1, requestOf 2, requestOf 3] ∧
    admittedIn ⟨2, 3⟩ ts = [requestOf 0, requestOf 1, requestOf 2] ∧ s.l1PayoutQueue = [] ∧
    ts.filterMap (fun x => batchOf x.label) =
      [[requestOf 0, requestOf 1], [requestOf 2]] ∧
    drainLoop [requestOf 0, requestOf 1] =
      some ⟨[(⟨"tb1q"⟩, 5000), (⟨"tb1q"⟩, 5000)], 10000⟩ := by
  have begin : BatcherRun ledgerBdk ⟨2, 3⟩ [] (bootAt 1) := .start (boot_initial Nat.one_pos)
  have queued := (((begin.next (@Step.queued _ _ _ _ _ (requestOf 0))).next
    (@Step.queued _ _ _ _ _ (requestOf 1))).next
    (@Step.queued _ _ _ _ _ (requestOf 2))).next (@Step.queued _ _ _ _ _ (requestOf 3))
  have received := (((queued.next (.received rfl)).next (.received rfl)).next
    (.received rfl)).next (.received rfl)
  have first := received.next (.built (show [requestOf 0, requestOf 1, requestOf 2] ≠ [] by simp)
    (show ledgerBdk.finish _ 250 _ (some 1) _ from ⟨rfl, fun tx _ => funded_spendable tx⟩))
  have second := first.next (.built (show [requestOf 2] ≠ [] by simp)
    (show ledgerBdk.finish _ 250 _ (some 2) _ from ⟨rfl, fun tx _ => funded_spendable tx⟩))
  have drained := (queue_discipline second).1
  refine ⟨_, _, second, rfl, drained.symm.trans rfl, rfl, rfl, by decide⟩

end FaucetApi.Batcher.Queue
