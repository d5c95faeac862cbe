/- module: FaucetApi/Batcher/Waiting
   layer: results
   digest: How long a payout request waits for its batch, and that none overtakes another. -/

import FaucetApi.Batcher.Queue
import FaucetApi.Lib.Simulation

set_option autoImplicit false
set_option relaxedAutoImplicit false

namespace FaucetApi.Batcher.Waiting

open FaucetApi.Lib.Runs
open FaucetApi.Lib.Simulation
open FaucetApi.Pow.Claims
open FaucetApi.Batcher.Wallet
open FaucetApi.Batcher.Machine
open FaucetApi.Batcher.Accounting
open FaucetApi.Batcher.Queue

variable {W Tx : Type} {bdk : Bdk W Tx} {cfg : BatcherConfig}
variable {ts a b c : Trace W Tx} {s₀ s₁ s s' : State W Tx} {label : Label Tx}
variable {request : L1PayoutRequest} {i : ℕ}

/-- The batcher's interval fires, whatever comes of it. -/
def isTick : Label Tx → Bool
  | .tickIdle => true
  | .tickFailed _ => true
  | .built _ => true
  | _ => false

def isReceipt : Label Tx → Bool
  | .received _ => true
  | _ => false

def ticks (ts : Trace W Tx) : ℕ := ts.countP (fun x => isTick x.label)

def receipts (ts : Trace W Tx) : ℕ := ts.countP (fun x => isReceipt x.label)

private theorem ticks_snoc (ts : Trace W Tx) (x : Transition (State W Tx) (Label Tx)) :
    ticks (ts ++ [x]) = ticks ts + (isTick x.label).toNat := countP_snoc _ ts x

private theorem receipts_snoc (ts : Trace W Tx) (x : Transition (State W Tx) (Label Tx)) :
    receipts (ts ++ [x]) = receipts ts + (isReceipt x.label).toNat := countP_snoc _ ts x

@[simp] theorem drainedIn_snoc (ts : Trace W Tx) (x : Transition (State W Tx) (Label Tx)) :
    drainedIn (ts ++ [x]) = drainedIn ts ++ drainedBy x.label := by
  simp [drainedIn]

/-! The queue: every tick brings a request `max_per_tx` places nearer to its front. -/

private theorem place_after_tick (cfg : BatcherConfig) {queue : List L1PayoutRequest}
    (here : queue[i]? = some request) :
    request ∈ drained cfg queue ∨
      ∃ j, (remaining cfg queue)[j]? = some request ∧ j + cfg.maxPerTx = i := by
  obtain ⟨inside, at_i⟩ := List.getElem?_eq_some_iff.mp here
  by_cases front : i < cfg.maxPerTx
  · left
    rw [drained, numToDeque, List.mem_take_iff_getElem]
    exact ⟨i, by omega, at_i⟩
  · right
    refine ⟨i - cfg.maxPerTx, ?_, by omega⟩
    rw [remaining, numToDeque, List.getElem?_drop]
    rwa [show min cfg.maxPerTx queue.length + (i - cfg.maxPerTx) = i by omega]

theorem place_step (taken : Step bdk cfg s label s') (here : s.l1PayoutQueue[i]? = some request) :
    request ∈ drainedBy label ∨ ∃ j, s'.l1PayoutQueue[j]? = some request ∧
      j + (isTick label).toNat * cfg.maxPerTx = i := by
  cases taken with
  | tickIdle empty => simp [empty] at here
  | tickFailed _ _ => simpa [drainedBy, isTick] using place_after_tick cfg here
  | built _ _ => simpa [drainedBy, isTick] using place_after_tick cfg here
  | received _ =>
      refine .inr ⟨i, ?_, by simp [isTick]⟩
      obtain ⟨inside, _⟩ := List.getElem?_eq_some_iff.mp here
      simp only [pushBack]
      split
      · rw [List.getElem?_append_left inside]
        exact here
      · exact here
  | _ => exact .inr ⟨i, here, by simp [isTick]⟩

private theorem place_stretch (later : Stretch (Step bdk cfg) s₀ b s)
    (here : s₀.l1PayoutQueue[i]? = some request) :
    request ∈ drainedIn b ∨
      ∃ j, s.l1PayoutQueue[j]? = some request ∧ j + ticks b * cfg.maxPerTx = i := by
  induction later with
  | start same => exact .inr ⟨i, same ▸ here, by simp [ticks]⟩
  | next _ taken ih =>
      rcases ih with drained | ⟨j, there, passed⟩
      · exact .inl (by simp [drained])
      · rcases place_step taken there with drained | ⟨k, next, moved⟩
        · exact .inl (by simp [drained])
        · refine .inr ⟨k, next, ?_⟩
          rw [ticks_snoc, Nat.add_mul]
          dsimp only
          omega

theorem drained_in_time (later : Stretch (Step bdk cfg) s₀ b s)
    (here : s₀.l1PayoutQueue[i]? = some request) (ticked : i < ticks b * cfg.maxPerTx) :
    request ∈ drainedIn b := by
  rcases place_stretch later here with drained | ⟨j, _, passed⟩
  · exact drained
  · omega

/-! The channel: every receipt takes one request out, into the queue if it has room. -/

private theorem channel_step (taken : Step bdk cfg s label s')
    (here : s.channel[i]? = some request) :
    (∃ j, s'.channel[j]? = some request ∧ j + (isReceipt label).toNat = i) ∨
      request ∈ s'.l1PayoutQueue ∨ request ∈ discardedBy cfg ⟨s, label, s'⟩ := by
  cases taken with
  | @received head rest channel =>
      rw [channel] at here
      cases i with
      | zero =>
          obtain rfl : head = request := by simpa using here
          right
          by_cases room : s.l1PayoutQueue.length < cfg.maxInFlight
          · exact .inl (by simp [pushBack, room])
          · exact .inr (by simp [discardedBy, room])
      | succ i => exact .inl ⟨i, by simpa using here, by simp [isReceipt]⟩
  | @queued added =>
      obtain ⟨inside, _⟩ := List.getElem?_eq_some_iff.mp here
      refine .inl ⟨i, ?_, by simp [isReceipt]⟩
      change (s.channel ++ [added])[i]? = some request
      rw [List.getElem?_append_left inside]
      exact here
  | _ => exact .inl ⟨i, here, by simp [isReceipt]⟩

private theorem channel_stretch (later : Stretch (Step bdk cfg) s₀ b s)
    (here : s₀.channel[i]? = some request) :
    (∃ j, s.channel[j]? = some request ∧ j + receipts b = i) ∨
      request ∈ s.l1PayoutQueue ∨ request ∈ drainedIn b ∨ request ∈ discardedIn cfg b := by
  induction later with
  | start same => exact .inl ⟨i, same ▸ here, by simp [receipts]⟩
  | @next b s s' label _ taken ih =>
      have gone : discardedIn cfg (b ++ [⟨s, label, s'⟩]) =
          discardedIn cfg b ++ discardedBy cfg ⟨s, label, s'⟩ := by
        simp [discardedIn]
      rcases ih with ⟨j, there, passed⟩ | queued | drained | discarded
      · rcases channel_step taken there with ⟨k, next, moved⟩ | queued | discarded
        · refine .inl ⟨k, next, ?_⟩
          rw [receipts_snoc]
          dsimp only
          omega
        · exact .inr (.inl queued)
        · exact .inr (.inr (.inr (by simp [gone, discarded])))
      · obtain ⟨j, there⟩ := List.mem_iff_getElem?.mp queued
        rcases place_step taken there with drained | ⟨k, next, _⟩
        · exact .inr (.inr (.inl (by simp [drained])))
        · exact .inr (.inl (List.mem_iff_getElem?.mpr ⟨k, next⟩))
      · exact .inr (.inr (.inl (by simp [drained])))
      · exact .inr (.inr (.inr (by simp [gone, discarded])))

/-! No overtaking. -/

/-- What was received and what is in the channel are what was queued, in that order. -/
theorem received_channel_arrived (run : BatcherRun bdk cfg ts s) :
    receivedIn ts ++ s.channel = arrived ts := by
  induction run with
  | start init =>
      obtain ⟨_, _, noChannel, _⟩ := init
      simp [receivedIn, arrived, noChannel]
  | @next ts s s' label _ taken ih =>
      simp only [receivedIn, arrived, List.flatMap_append, List.flatMap_singleton] at ih ⊢
      rw [← ih]
      cases taken with
      | received channel => simp [receivedBy, arrivals, channel]
      | _ => simp [receivedBy, arrivals]

/-- Every request that is in the channel or in the queue is settled once the batcher has received
what was in the channel before it and has then ticked often enough to drain a full queue, whether
or not those ticks could build a transaction: it has been drained for a batch, or it was received by
a full queue and dropped. And no request overtakes another: the batches, the queue and the channel
together are in the order of the requests' arrival. -/
theorem requests_wait_boundedly (run : BatcherRun bdk cfg a s₀)
    (first : Stretch (Step bdk cfg) s₀ b s₁) (second : Stretch (Step bdk cfg) s₁ c s)
    (received : s₀.channel.length ≤ receipts b)
    (ticked : cfg.maxInFlight ≤ ticks c * cfg.maxPerTx) :
    (∀ request, request ∈ s₀.channel ∨ request ∈ s₀.l1PayoutQueue →
      request ∈ drainedIn (b ++ c) ∨ request ∈ discardedIn cfg b) ∧
    (drainedIn (a ++ b ++ c) ++ s.l1PayoutQueue ++ s.channel).Sublist (arrived (a ++ b ++ c)) := by
  have middle := continued run first
  have whole := continued middle second
  refine ⟨?_, ?_⟩
  · intro request pending
    have settled : request ∈ s₁.l1PayoutQueue ∨ request ∈ drainedIn b ∨
        request ∈ discardedIn cfg b := by
      rcases pending with sent | queued
      · obtain ⟨i, here⟩ := List.mem_iff_getElem?.mp sent
        rcases channel_stretch first here with ⟨j, _, passed⟩ | settled
        · have inside := (List.getElem?_eq_some_iff.mp here).1
          omega
        · exact settled
      · obtain ⟨i, here⟩ := List.mem_iff_getElem?.mp queued
        rcases place_stretch first here with drained | ⟨j, there, _⟩
        · exact .inr (.inl drained)
        · exact .inl (List.mem_iff_getElem?.mpr ⟨j, there⟩)
    have joined : drainedIn (b ++ c) = drainedIn b ++ drainedIn c := List.flatMap_append
    rcases settled with queued | drained | discarded
    · obtain ⟨i, here⟩ := List.mem_iff_getElem?.mp queued
      have inside := (List.getElem?_eq_some_iff.mp here).1
      have bound := queue_length_le middle
      have drained := drained_in_time second here (by omega)
      exact .inl (by simp [joined, drained])
    · exact .inl (by simp [joined, drained])
    · exact .inr discarded
  · rw [drained_queue_admitted whole, ← received_channel_arrived whole]
    exact (admitted_sublist_received _).append (List.Sublist.refl _)

/-- With the default limits, ten ticks are enough. -/
theorem requests_wait_boundedly_nonvacuous : ∃ a b c : Trace Ledger ℕ, ∃ s₀ s₁ s,
    BatcherRun ledgerBdk defaultConfig a s₀ ∧ s₀.channel = [sampleRequest] ∧
    Stretch (Step ledgerBdk defaultConfig) s₀ b s₁ ∧
    Stretch (Step ledgerBdk defaultConfig) s₁ c s ∧ ticks c = 10 ∧
    (sampleRequest ∈ drainedIn (b ++ c) ∨ sampleRequest ∈ discardedIn defaultConfig b) := by
  have begin : BatcherRun ledgerBdk defaultConfig [] (bootAt 1) := .start (boot_initial Nat.one_pos)
  have queued := begin.next (show Step _ _ _ (.queued sampleRequest) _ from .queued)
  have received := (stretch_nil queued).next (.received rfl)
  have built := (stretch_nil received).next (.built (show [sampleRequest] ≠ [] by decide)
    (show ledgerBdk.finish _ 250 _ (some 1) _ from ⟨rfl, fun tx _ => funded_spendable tx⟩))
  have idle := ((((((((built.next (.tickIdle rfl)).next (.tickIdle rfl)).next (.tickIdle rfl)).next
    (.tickIdle rfl)).next (.tickIdle rfl)).next (.tickIdle rfl)).next (.tickIdle rfl)).next
    (.tickIdle rfl)).next (.tickIdle rfl)
  exact ⟨_, _, _, _, _, _, queued, rfl, received, idle, rfl,
    (requests_wait_boundedly queued received idle (by decide) (by decide)).1 _ (.inl (by decide))⟩

end FaucetApi.Batcher.Waiting
