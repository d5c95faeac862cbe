/- module: FaucetApi/Faucet/Totals
   layer: results
   digest: The total that a tick adds up never overflows under settings that start the faucet. -/

import FaucetApi.Batcher.Queue
import FaucetApi.Faucet.Provenance
import FaucetApi.L2.Units

set_option autoImplicit false
set_option relaxedAutoImplicit false

namespace FaucetApi.Faucet.Totals

open FaucetApi.Lib.Runs
open FaucetApi.Pow.Hash
open FaucetApi.Pow.Claims
open FaucetApi.Pow.Consumption
open FaucetApi.Startup
open FaucetApi.L2.Units (defaultSettings startSettings)
open FaucetApi.Batcher.Wallet
open FaucetApi.Batcher.Machine (drained recipientOf)
open FaucetApi.Batcher.Accounting
open FaucetApi.Batcher.Queue
open FaucetApi.Faucet.Machine
open FaucetApi.Faucet.Admission
open FaucetApi.Faucet.Provenance

variable {W Tx IpSrc : Type} {env : Env} {bdk : Bdk W Tx} {cfg : Batcher.Machine.BatcherConfig}
variable {ts : FaucetTrace W Tx} {s : State W Tx} {request : L1PayoutRequest}

private theorem arrived_of_queued (run : FaucetRun env bdk cfg ts s)
    (queued : request ∈ s.batcher.l1PayoutQueue) : request ∈ arrived (batcherTrace ts) := by
  rw [← Multiset.mem_coe, requests_accounted (batcher_run run)]
  simp [queued]

private theorem queued_amount (run : FaucetRun env bdk cfg ts s)
    (queued : request ∈ s.batcher.l1PayoutQueue) : request.amount = env.l1AmountPerClaim := by
  have known := acknowledged_of_arrived run (arrived_of_queued run queued)
  obtain ⟨_, _, _, _, amount, _⟩ := acknowledged_queued (pow_run run) known
  exact amount

theorem totalOf_drained (run : FaucetRun env bdk cfg ts s) :
    totalOf (drained cfg s.batcher.l1PayoutQueue) =
      (drained cfg s.batcher.l1PayoutQueue).length * env.l1AmountPerClaim := by
  have amounts : ∀ amount ∈ (drained cfg s.batcher.l1PayoutQueue).map L1PayoutRequest.amount,
      amount = env.l1AmountPerClaim := by
    intro amount member
    obtain ⟨request, inside, rfl⟩ := List.mem_map.mp member
    exact queued_amount run (List.mem_of_mem_take inside)
  rw [totalOf, List.eq_replicate_of_mem amounts, List.sum_replicate_nat, List.length_map]

private theorem length_drained_le (run : FaucetRun env bdk cfg ts s) :
    (drained cfg s.batcher.l1PayoutQueue).length ≤ min cfg.maxPerTx cfg.maxInFlight := by
  have bound := queue_length_le (batcher_run run)
  rw [drained, Batcher.Machine.numToDeque, List.length_take]
  omega

private theorem product_lt
    {count amount : ℕ} (few : count ≤ 10 ^ 10) (low : amount ≤ MAX_SATS_PER_CLAIM) :
    count * amount < 2 ^ 64 := by
  calc count * amount
    _ ≤ 10 ^ 10 * MAX_SATS_PER_CLAIM := Nat.mul_le_mul few low
    _ < 2 ^ 64 := by decide

/-- Under settings that the faucet starts with, and unless it may drain more than ten billion
requests at once, the loop of the next tick comes to its end in every reachable state: it adds every
drained request to the transaction, and its total neither overflows nor differs from what the
transaction pays. -/
theorem total_sent_never_overflows {display : Amount → String} {sha256 : Sha256}
    {readSettings : ReadableSettings IpSrc} {settings : Settings IpSrc}
    {requireNetwork : Network → UncheckedL1Address → Option L1Address}
    (accepted : Settings.tryFrom display readSettings = .ok settings)
    (limit : min settings.batcher.maxPerTx settings.batcher.maxInFlight ≤ 10 ^ 10)
    (run : FaucetRun (settings.env sha256 requireNetwork) bdk settings.batcher.toBatcherConfig
      ts s) :
    ∃ draft,
      drainLoop (drained settings.batcher.toBatcherConfig s.batcher.l1PayoutQueue) = some draft ∧
      draft.recipients = (drained settings.batcher.toBatcherConfig
        s.batcher.l1PayoutQueue).map recipientOf ∧
      draft.totalSent = draft.recipients.length * settings.l1.amountPerClaim := by
  have low := (amountPerClaim_le accepted).1
  have total := totalOf_drained run
  have small : totalOf (drained settings.batcher.toBatcherConfig s.batcher.l1PayoutQueue) <
      2 ^ 64 := by
    rw [total]
    exact product_lt ((length_drained_le run).trans limit) low
  obtain ⟨draft, looped⟩ := Option.isSome_iff_exists.mp (drainLoop_isSome small)
  obtain ⟨recipients, sent⟩ := drainLoop_eq_some looped
  refine ⟨draft, looped, recipients, ?_⟩
  rw [sent, total, recipients, List.length_map]
  rfl

def startEnv : Env := startSettings.env sampleEnv.sha256 fun _ address => some ⟨address.text⟩

/-- One claim has been queued and received. -/
theorem total_sent_never_overflows_nonvacuous : ∃ ts s draft,
    Settings.tryFrom toString defaultSettings = .ok startSettings ∧
    FaucetRun startEnv ledgerBdk startSettings.batcher.toBatcherConfig ts s ∧
    drainLoop (drained startSettings.batcher.toBatcherConfig s.batcher.l1PayoutQueue) =
      some draft ∧ draft.totalSent = 1 * 10000 := by
  have begin : FaucetRun startEnv ledgerBdk startSettings.batcher.toBatcherConfig [] boot :=
    .start faucet_boot_initial
  obtain ⟨ts, ⟨pow, _⟩, run, rfl, _⟩ := claim_run begin localIp
    (Vector.replicate 16 7) 5 120 (Vector.replicate 8 0) ⟨"tb1q"⟩ 0 1 rfl (by simp [boot])
    (by simp [boot]) (by decide) (by decide) rfl
  have received := run.next (.batcher (.received rfl) (by simp))
  obtain ⟨draft, looped, recipients, sent⟩ :=
    total_sent_never_overflows (show Settings.tryFrom toString defaultSettings = .ok startSettings
      from rfl) (by decide) received
  refine ⟨_, _, draft, rfl, received, looped, ?_⟩
  rw [sent, recipients]
  rfl

end FaucetApi.Faucet.Totals
