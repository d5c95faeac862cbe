/- module: FaucetApi/Faucet/Admission
   layer: results
   digest: Where the requests of the claims that claim_l1 acknowledged are. -/

import FaucetApi.Faucet.Machine

set_option autoImplicit false
set_option relaxedAutoImplicit false

namespace FaucetApi.Faucet.Admission

open FaucetApi.Lib.Runs
open FaucetApi.Pow.Hash
open FaucetApi.Pow.Challenges
open FaucetApi.Pow.Claims
open FaucetApi.Pow.Threads
open FaucetApi.Pow.Consumption
open FaucetApi.Batcher.Wallet
open FaucetApi.Batcher.Machine (BatcherConfig Batch bootAt boot_initial)
open FaucetApi.Batcher.Accounting
open FaucetApi.Faucet.Machine

variable {W Tx : Type} {env : Env} {bdk : Bdk W Tx} {cfg : BatcherConfig}
variable {ts : FaucetTrace W Tx} {s : State W Tx}

def acknowledgedRequest (env : Env) : CallId × Pow.Machine.Pc → Option L1PayoutRequest
  | (id, .answered (.l1 _ _ address) (.ok _)) =>
      (env.requireNetwork address).map fun checked => ⟨id, checked, env.l1AmountPerClaim⟩
  | _ => none

/-- The payout requests of all `claim_l1` calls that have returned `Ok`. -/
def acknowledged (env : Env) (s : Pow.Machine.State) : Multiset L1PayoutRequest :=
  s.pool.filterMap (acknowledgedRequest env)

private theorem acknowledgedRequest_refused (id : CallId) (claim : Claim) (e : CheckError) :
    acknowledgedRequest env (id, .answered claim (refusal e)) = none := by
  cases claim <;> rfl

private theorem acknowledged_action
    {id : CallId} {sh sh' : Pow.Machine.Shared} {pc pc' : Pow.Machine.Pc}
    {event : Pow.Machine.ThreadEvent} (action : Pow.Machine.ThreadStep env id sh pc event sh' pc') :
    acknowledgedRequest env (id, pc) = none ∧
      acknowledgedRequest env (id, pc') = handedOver (.thread id event) := by
  cases action with
  | queued checked => simp [acknowledgedRequest, handedOver, checked]
  | readRefused _ => exact ⟨rfl, acknowledgedRequest_refused _ _ _⟩
  | swapRefused _ => exact ⟨rfl, acknowledgedRequest_refused _ _ _⟩
  | rejected _ => exact ⟨rfl, acknowledgedRequest_refused _ _ _⟩
  | _ => exact ⟨rfl, rfl⟩

theorem acknowledged_step {p p' : Pow.Machine.State} {label : Pow.Machine.Label}
    (taken : Pow.Machine.Step env p label p') :
    acknowledged env p' = ↑(handedOver label).toList + acknowledged env p := by
  cases taken with
  | clock => simp [acknowledged, handedOver]
  | task _ => simp [acknowledged, handedOver]
  | @called id call _ =>
      have none : acknowledgedRequest env (id, call.entry p.shared.now) = none := by
        cases call <;> rfl
      simp [acknowledged, handedOver, none]
  | @thread id pc pc' rest event shared' pool action =>
      obtain ⟨before, after⟩ := acknowledged_action action
      simp only [acknowledged, pool]
      rw [Multiset.filterMap_cons_none _ _ before]
      cases given : handedOver (.thread id event) with
      | none => simp [Multiset.filterMap_cons_none _ _ (after.trans given)]
      | some request => simp [Multiset.filterMap_cons_some _ _ _ (after.trans given)]

/-- What was acknowledged is what arrived in the channel. -/
theorem acknowledged_arrived (run : FaucetRun env bdk cfg ts s) :
    acknowledged env s.pow = ↑(arrived (batcherTrace ts)) := by
  induction run with
  | start init => simp [acknowledged, initial_pool init.1, arrived, batcherTrace]
  | @next ts s s' label _ taken ih =>
      have grown : arrived (batcherTrace (ts ++ [⟨s, label, s'⟩])) =
          arrived (batcherTrace ts) ++ (batcherLabel label).toList.flatMap arrivals := by
        rw [batcherTrace_snoc, arrived, List.flatMap_append]
        cases part : batcherLabel label <;> simp [arrived, Transition.project, part]
      rw [grown, ← Multiset.coe_add, ← ih, add_comm]
      cases taken with
      | pow taken nothing => simp [acknowledged_step taken, batcherLabel, nothing]
      | claimed taken given _ => simp [acknowledged_step taken, batcherLabel, given, arrivals]
      | @batcher label _ _ other =>
          cases label with
          | queued request => exact (other request rfl).elim
          | _ => simp [batcherLabel, arrivals]

private theorem acknowledged_calls_le (pool : Multiset (CallId × Pow.Machine.Pc)) :
    (pool.filterMap (acknowledgedRequest env)).map L1PayoutRequest.call ≤ pool.map Prod.fst := by
  induction pool using Multiset.induction_on with
  | empty => simp
  | cons call pool ih =>
      cases given : acknowledgedRequest env call with
      | none =>
          rw [Multiset.filterMap_cons_none _ _ given, Multiset.map_cons]
          exact ih.trans (Multiset.le_cons_self _ _)
      | some request =>
          have own : request.call = call.1 := by
            unfold acknowledgedRequest at given
            split at given
            · obtain ⟨_, _, rfl⟩ := Option.map_eq_some_iff.mp given
              rfl
            · cases given
          rw [Multiset.filterMap_cons_some _ _ _ given, Multiset.map_cons, Multiset.map_cons, own]
          exact Multiset.cons_le_cons _ ih

theorem acknowledged_nodup (run : FaucetRun env bdk cfg ts s) :
    (acknowledged env s.pow).Nodup :=
  .of_map L1PayoutRequest.call
    (Multiset.nodup_of_le (acknowledged_calls_le _) (pool_ids_nodup (pow_run run)))

theorem drained_not_pending (run : FaucetRun env bdk cfg ts s) {request : L1PayoutRequest}
    (drained : request ∈ drainedIn (batcherTrace ts)) :
    request ∉ s.batcher.channel ∧ request ∉ s.batcher.l1PayoutQueue := by
  have nodup := acknowledged_nodup run
  rw [acknowledged_arrived run, requests_accounted (batcher_run run)] at nodup
  have apart := (Multiset.nodup_add.mp (Multiset.nodup_add.mp nodup).1).2.2
  have absent : request ∉ (↑s.batcher.channel + ↑s.batcher.l1PayoutQueue :
      Multiset L1PayoutRequest) := fun pending =>
    Multiset.disjoint_left.mp apart pending (Multiset.mem_coe.mpr drained)
  simpa [not_or] using absent

/-- The requests of all acknowledged claims are those in the channel, in the queue, drained for a
batch, or received while the queue already held `max_in_flight` requests, each in one place. -/
theorem acknowledged_requests_accounted (run : FaucetRun env bdk cfg ts s) :
    acknowledged env s.pow = (↑s.batcher.channel + ↑s.batcher.l1PayoutQueue) +
        ↑(drainedIn (batcherTrace ts)) + ↑(discardedIn cfg (batcherTrace ts)) ∧
      (acknowledged env s.pow).Nodup :=
  ⟨(acknowledged_arrived run).trans (requests_accounted (batcher_run run)), acknowledged_nodup run⟩

theorem claim_run (run : FaucetRun env bdk cfg ts s) (ip : Ipv4Addr) (nonce : Nonce)
    (difficulty : UInt8) (duration : Duration) (solution : Solution)
    (address : UncheckedL1Address) (getter claimer : CallId) {checked : L1Address}
    (free : s.pow.shared.challengeSet (keyOf ip .l1) = none)
    (unused : getter ∉ s.pow.pool.map Prod.fst) (unused' : claimer ∉ s.pow.pool.map Prod.fst)
    (differ : claimer ≠ getter)
    (solved : checkHash env.sha256
      (candidate nonce s.pow.shared.now difficulty duration) solution = .ok ())
    (network : env.requireNetwork address = some checked) :
    ∃ ts' s', FaucetRun env bdk cfg ts' s' ∧
      s'.batcher = { s.batcher with
        channel := s.batcher.channel ++ [⟨claimer, checked, env.l1AmountPerClaim⟩] } ∧
      batcherTrace ts' = batcherTrace ts ++
        [⟨s.batcher, .queued ⟨claimer, checked, env.l1AmountPerClaim⟩, s'.batcher⟩] ∧
      (∀ key, key ≠ keyOf ip .l1 →
        s'.pow.shared.challengeSet key = s.pow.shared.challengeSet key) ∧
      s'.pow.pool.map Prod.fst = claimer ::ₘ getter ::ₘ s.pow.pool.map Prod.fst := by
  obtain ⟨⟨⟨now, challengeSet, queue⟩, task, pool⟩, batcher⟩ := s
  have called := run.next (.pow (@Pow.Machine.Step.called env _ getter
    (.get ip .l1 nonce difficulty duration) unused) rfl)
  have installed := called.next (.pow (.act (.installed (getCas_ok.mpr ⟨free, rfl, rfl⟩))) rfl)
  have claimed := installed.next (.pow (@Pow.Machine.Step.called env _ claimer
    (.check (.l1 ip solution address)) (by simp [unused', differ])) rfl)
  have read := claimed.next (.pow (.act (.read (checkRead_ok.mpr
    ⟨Function.update_self _ _ _, rfl⟩))) rfl)
  have swapped := read.next (.pow (.act (.swapped (checkCas_ok.mpr
    ⟨Function.update_self _ _ _, rfl⟩))) rfl)
  have hashed := swapped.next (.pow (.act (.accepted solved)) rfl)
  have queued := hashed.next (.claimed (.act (.queued network)) rfl .queued)
  refine ⟨_, _, queued, rfl, ?_, ?_, ?_⟩
  · simp only [batcherTrace, List.filterMap_append, List.append_assoc]
    rfl
  · intro key other
    change Function.update (Function.update challengeSet _ _) _ _ key = challengeSet key
    exact (Function.update_of_ne other _ _).trans (Function.update_of_ne other _ _)
  · simp

def boot : State Ledger ℕ where
  pow := ⟨⟨0, fun _ => none, Pow.Eviction.EvictionQueue.new 0⟩,
    ⟨.waiting, (Pow.Eviction.EvictionQueue.new 0).farFuture⟩, 0⟩
  batcher := bootAt 1

theorem faucet_boot_initial : Initial ledgerBdk boot :=
  ⟨⟨0, 0, rfl⟩, boot_initial Nat.one_pos⟩

def firstRequest : L1PayoutRequest := ⟨1, ⟨"tb1q"⟩, 5000⟩
def secondRequest : L1PayoutRequest := ⟨3, ⟨"tb1p"⟩, 5000⟩

theorem first_claim (cfg : BatcherConfig) : ∃ ts s, FaucetRun sampleEnv ledgerBdk cfg ts s ∧
    s.batcher = { bootAt 1 with channel := [firstRequest] } ∧
    batcherTrace ts = [⟨bootAt 1, .queued firstRequest, s.batcher⟩] ∧
    (∀ key, key ≠ keyOf localIp .l1 → s.pow.shared.challengeSet key = none) ∧
    s.pow.pool.map Prod.fst = {1, 0} :=
  claim_run (.start faucet_boot_initial) localIp (Vector.replicate 16 7) 5 120
    (Vector.replicate 8 0) ⟨"tb1q"⟩ 0 1 rfl (by simp [boot]) (by simp [boot]) (by decide)
    (by decide) rfl

theorem two_claims (cfg : BatcherConfig) : ∃ ts s, FaucetRun sampleEnv ledgerBdk cfg ts s ∧
    s.batcher = { bootAt 1 with channel := [firstRequest, secondRequest] } ∧
    batcherTrace ts =
      [⟨bootAt 1, .queued firstRequest, { bootAt 1 with channel := [firstRequest] }⟩,
        ⟨{ bootAt 1 with channel := [firstRequest] }, .queued secondRequest, s.batcher⟩] := by
  obtain ⟨ts₁, ⟨pow₁, _⟩, first, rfl, trace₁, free, ids⟩ := first_claim cfg
  obtain ⟨ts₂, ⟨pow₂, _⟩, second, rfl, trace₂, _⟩ := claim_run first ⟨0x7f000002⟩
    (Vector.replicate 16 7) 5 120 (Vector.replicate 8 0) ⟨"tb1p"⟩ 2 3
    (free _ (by decide)) (by simp [ids]) (by simp [ids]) (by decide) rfl rfl
  refine ⟨_, _, second, rfl, ?_⟩
  rw [trace₂, trace₁]
  rfl

private theorem crowded_run : ∃ ts s, FaucetRun sampleEnv ledgerBdk ⟨250, 1⟩ ts s ∧
    s.batcher.channel = [] ∧ s.batcher.l1PayoutQueue = [firstRequest] ∧
    arrived (batcherTrace ts) = [firstRequest, secondRequest] ∧
    drainedIn (batcherTrace ts) = [] ∧
    discardedIn ⟨250, 1⟩ (batcherTrace ts) = [secondRequest] := by
  obtain ⟨ts, ⟨pow, _⟩, second, rfl, trace⟩ := two_claims ⟨250, 1⟩
  have received := second.next (.batcher (.received rfl) (by simp))
  have received' := received.next (.batcher (.received rfl) (by simp))
  refine ⟨_, _, received', rfl, rfl, ?_⟩
  rw [batcherTrace_snoc, batcherTrace_snoc, trace]
  exact ⟨rfl, rfl, rfl⟩

theorem acknowledged_requests_accounted_nonvacuous : ∃ ts s,
    FaucetRun sampleEnv ledgerBdk ⟨250, 1⟩ ts s ∧
      acknowledged sampleEnv s.pow = {firstRequest, secondRequest} ∧
      discardedIn ⟨250, 1⟩ (batcherTrace ts) = [secondRequest] := by
  obtain ⟨ts, s, run, channel, queue, _, drained, discarded⟩ := crowded_run
  refine ⟨ts, s, run, ?_, discarded⟩
  rw [(acknowledged_requests_accounted run).1, channel, queue, drained, discarded]
  rfl

/-- The second claim is acknowledged, and its request is nowhere. -/
theorem acknowledged_request_discarded : ∃ ts s,
    FaucetRun sampleEnv ledgerBdk ⟨250, 1⟩ ts s ∧
      acknowledged sampleEnv s.pow ≠ (↑s.batcher.channel + ↑s.batcher.l1PayoutQueue) +
        ↑(drainedIn (batcherTrace ts)) := by
  obtain ⟨ts, s, run, channel, queue, arrived, drained, _⟩ := crowded_run
  refine ⟨ts, s, run, ?_⟩
  rw [acknowledged_arrived run, channel, queue, arrived, drained]
  decide

end FaucetApi.Faucet.Admission
