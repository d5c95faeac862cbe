/- module: FaucetApi/Faucet/Provenance
   layer: results
   digest: Where the recipients of the batches come from, and how many of them a client can be. -/

import FaucetApi.Faucet.Admission
import FaucetApi.Pow.Rejection
import FaucetApi.Pow.Storage
import Mathlib.Algebra.Order.BigOperators.Group.Finset
import Mathlib.Data.Set.Card

set_option autoImplicit false
set_option relaxedAutoImplicit false

namespace FaucetApi.Faucet.Provenance

open FaucetApi.Lib.Runs
open FaucetApi.Lib.Simulation
open FaucetApi.Pow.Hash
open FaucetApi.Pow.Challenges
open FaucetApi.Pow.Claims
open FaucetApi.Pow.Threads
open FaucetApi.Pow.Consumption
open FaucetApi.Pow.Leasing
open FaucetApi.Pow.Rejection
open FaucetApi.Pow.Storage
open FaucetApi.Batcher.Wallet
open FaucetApi.Batcher.Machine (BatcherConfig BatcherRun Batch Stage bootAt boot_initial)
open FaucetApi.Batcher.Accounting
open FaucetApi.Faucet.Machine
open FaucetApi.Faucet.Admission

variable {W Tx : Type} {env : Env} {bdk : Bdk W Tx} {cfg : BatcherConfig}
variable {ts : FaucetTrace W Tx} {s₀ s : State W Tx} {request : L1PayoutRequest} {ip : Ipv4Addr}

/-- The requests that are paid by the transactions built so far, in the order of the batches. -/
def recipients (s : State W Tx) : List L1PayoutRequest := s.batcher.batches.flatMap Batch.requests

def QueuedFor (ts : Pow.Threads.Trace) (ip : Ipv4Addr) (request : L1PayoutRequest) : Prop :=
  ∃ solution address, Did ts request.call (.queued (.l1 ip solution address) request)

/-- The request pays the configured amount to an address of the right network, for a solution of
the challenge that the call `g` installed for the same client. -/
def Earned (env : Env) (ts : Pow.Threads.Trace) (g : CallId) (request : L1PayoutRequest) : Prop :=
  ∃ ip solution address old,
    env.requireNetwork address = some request.address ∧
    request.amount = env.l1AmountPerClaim ∧
    Did ts g (.installed ip .l1 old) ∧
    Did ts request.call (.swapped (.l1 ip solution address) old) ∧
    old.difficulty.toNat ≤ leadingZeroBits (env.sha256 (preimage old.nonce solution)).toList

private theorem flatMap_set {batches : List (Batch Tx)} {i : ℕ} {batch : Batch Tx} (stage : Stage)
    (here : batches[i]? = some batch) :
    (batches.set i { batch with stage := stage }).flatMap Batch.requests =
      batches.flatMap Batch.requests := by
  have same : (batches.set i { batch with stage := stage }).map Batch.requests =
      batches.map Batch.requests := by
    rw [List.map_set]
    refine List.ext_getElem? fun j => ?_
    rw [List.getElem?_set]
    split_ifs with same inside
    · rw [← same, List.getElem?_map, here]
      rfl
    · rw [← same]
      exact (List.getElem?_eq_none (not_lt.mp inside)).symm
    · rfl
  rw [List.flatMap_def, same, ← List.flatMap_def]

theorem recipients_sublist_drained {ts : Batcher.Accounting.Trace W Tx}
    {s : Batcher.Machine.State W Tx} (run : BatcherRun bdk cfg ts s) :
    (s.batches.flatMap Batch.requests).Sublist (drainedIn ts) := by
  induction run with
  | start init =>
      obtain ⟨_, _, _, _, none, _⟩ := init
      simp [none]
  | @next ts s s' label _ taken ih =>
      rw [drainedIn, List.flatMap_append, List.flatMap_singleton, ← drainedIn]
      cases taken with
      | built _ _ =>
          rw [List.flatMap_append, List.flatMap_singleton]
          exact ih.append (List.Sublist.refl _)
      | broadcast here _ =>
          rw [flatMap_set _ here]
          exact ih.trans (List.sublist_append_left _ _)
      | recorded here _ =>
          rw [flatMap_set _ here]
          exact ih.trans (List.sublist_append_left _ _)
      | _ => exact ih.trans (List.sublist_append_left _ _)

private theorem drained_nodup (run : FaucetRun env bdk cfg ts s) :
    (drainedIn (batcherTrace ts)).Nodup := by
  have nodup := acknowledged_nodup run
  rw [acknowledged_arrived run, requests_accounted (batcher_run run)] at nodup
  have drained := (Multiset.nodup_add.mp (Multiset.nodup_add.mp nodup).1).2.1
  exact Multiset.coe_nodup.mp drained

theorem acknowledged_of_arrived (run : FaucetRun env bdk cfg ts s)
    (arrived : request ∈ arrived (batcherTrace ts)) : request ∈ acknowledged env s.pow := by
  rw [acknowledged_arrived run]
  exact Multiset.mem_coe.mpr arrived

private theorem arrived_of_drained (run : FaucetRun env bdk cfg ts s)
    (drained : request ∈ drainedIn (batcherTrace ts)) : request ∈ arrived (batcherTrace ts) := by
  rw [← Multiset.mem_coe, requests_accounted (batcher_run run)]
  simp [drained]

theorem acknowledged_queued {ts : Pow.Threads.Trace} {s : Pow.Machine.State}
    (run : Pow.Machine.PowRun env ts s) (known : request ∈ acknowledged env s) :
    ∃ ip solution address, env.requireNetwork address = some request.address ∧
      request.amount = env.l1AmountPerClaim ∧
      Did ts request.call (.queued (.l1 ip solution address) request) := by
  obtain ⟨⟨id, pc⟩, member, given⟩ := (Multiset.mem_filterMap _ _).mp known
  unfold acknowledgedRequest at given
  split at given
  · rename_i id' ip solution address answer same
    obtain ⟨rfl, rfl⟩ := Prod.mk.inj same
    obtain ⟨checked, network, rfl⟩ := Option.map_eq_some_iff.mp given
    obtain ⟨event, ⟨checked', network', rfl⟩, did⟩ := pool_paid run _ _ member
    obtain rfl := Option.some.inj (network.symm.trans network')
    exact ⟨ip, solution, address, network, rfl, did⟩
  · cases given

private theorem queued_earned {ts : Pow.Threads.Trace} {s : Pow.Machine.State} {solution : Solution}
    {address : UncheckedL1Address} {source : CallId → CallId}
    (run : Pow.Machine.PowRun env ts s) (consumes : Consumes ts s source)
    (network : env.requireNetwork address = some request.address)
    (amount : request.amount = env.l1AmountPerClaim)
    (queued : Did ts request.call (.queued (.l1 ip solution address) request)) :
    ReachedHash ts request.call ∧ Earned env ts (source request.call) request := by
  obtain ⟨old, swapped, accepted⟩ := hashed_swapped run (paid_accepted run rfl queued)
  refine ⟨⟨_, old, swapped⟩, ip, solution, address, old, network, amount, ?_, swapped, ?_⟩
  · obtain ⟨x, member, label⟩ := swapped
    obtain ⟨a, b, split⟩ := List.append_of_mem member
    have hit := consumes.hit a x b _ _ _ split label
    rw [split]
    exact hit.installed.of_prefix
  · exact accepted_leadingZeroBits accepted

/-- Every recipient of every transaction that the batcher has built is there once, and was earned:
its call claimed a challenge of its own, which was installed for the same client, with a solution
that has as many leading zero bits as that challenge asks for. -/
theorem every_recipient_is_earned (run : FaucetRun env bdk cfg ts s) :
    (recipients s).Nodup ∧ ∃ source : CallId → CallId,
      Set.InjOn source {id | ∃ request ∈ recipients s, request.call = id} ∧
      ∀ request ∈ recipients s, Earned env (powTrace ts) (source request.call) request := by
  have sub := recipients_sublist_drained (batcher_run run)
  obtain ⟨source, consumes⟩ := exists_consumes (pow_run run)
  have earned : ∀ request ∈ recipients s, ReachedHash (powTrace ts) request.call ∧
      Earned env (powTrace ts) (source request.call) request := by
    intro request member
    have known := acknowledged_of_arrived run (arrived_of_drained run (sub.subset member))
    obtain ⟨ip, solution, address, network, amount, queued⟩ :=
      acknowledged_queued (pow_run run) known
    exact queued_earned (pow_run run) consumes network amount queued
  refine ⟨(drained_nodup run).sublist sub, source, consumes.distinct.mono ?_, ?_⟩
  · rintro _ ⟨request, member, rfl⟩
    exact (earned request member).1
  · exact fun request member => (earned request member).2

def bootFrom (now : ℕ) : State Ledger ℕ := ⟨boot.pow, bootAt now⟩

/-- A step that installs a challenge lets it last at least a period. -/
def InstallsFor (period : Duration) (x : Transition (State W Tx) (Label Tx)) : Prop :=
  ∀ id ip chain c, x.label = .pow (.thread id (.installed ip chain c)) →
    x.source.pow.shared.now + period ≤ c.expiresAt

theorem lasting_projected {period : Duration} (lasting : ∀ x ∈ ts, InstallsFor period x) :
    ∀ x ∈ powTrace ts, Lasting period x := by
  rintro y member id ip chain c label
  obtain ⟨x, inside, seen, source, _⟩ := mem_projected member
  rw [label] at seen
  rw [source]
  generalize at_x : x.label = l at seen
  cases l with
  | pow l =>
      cases seen
      exact lasting x inside id ip chain c at_x
  | batcher _ => cases seen

theorem paid_stretch (now : ℕ) : ∃ ts s,
    Stretch (Step sampleEnv ledgerBdk ⟨250, 2500⟩) (bootFrom now) ts s ∧
    s.batcher = ⟨now, [], [], fundedLedger, [⟨1, [firstRequest], .broadcasting⟩], .asleep⟩ ∧
    s.pow.shared.now = 0 ∧ (∀ x ∈ ts, InstallsFor 120 x) ∧
    ∀ x ∈ ts, (∀ i, x.label ≠ .batcher (.recorded i)) ∧
      ∀ update, x.label ≠ .batcher (.syncApplied update) := by
  have begin : Stretch (Step sampleEnv ledgerBdk ⟨250, 2500⟩) (bootFrom now) [] (bootFrom now) :=
    .start rfl
  have called := begin.next (.pow (@Pow.Machine.Step.called sampleEnv _ 0
    (.get localIp .l1 (Vector.replicate 16 7) 5 120) (by simp [bootFrom, boot])) rfl)
  have installed := called.next (.pow (.act (.installed (getCas_ok.mpr ⟨rfl, rfl, rfl⟩))) rfl)
  have claim := installed.next (.pow (@Pow.Machine.Step.called sampleEnv _ 1
    (.check sampleClaim) (by simp [bootFrom, boot])) rfl)
  have read := claim.next (.pow (.act (.read (checkRead_ok.mpr ⟨rfl, rfl⟩))) rfl)
  have swapped := read.next (.pow (.act (.swapped (checkCas_ok.mpr ⟨rfl, rfl⟩))) rfl)
  have accepted : checkHash sampleEnv.sha256 (candidate (Vector.replicate 16 7) 0 5 120)
      sampleClaim.solution = .ok () := by decide
  have hashed := swapped.next (.pow (.act (.accepted accepted)) rfl)
  have queued := hashed.next (.claimed (.act (.queued rfl)) rfl .queued)
  have received := queued.next (.batcher (.received rfl) (by simp))
  have built := received.next (.batcher (.built (show [firstRequest] ≠ [] by decide)
    (show ledgerBdk.finish _ 250 _ (some 1) _ from ⟨rfl, fun tx _ => funded_spendable tx⟩))
    (by simp))
  refine ⟨_, _, built, rfl, rfl, ?_, ?_⟩
  · iterate 7 refine snoc_forall ?_ (by rintro _ _ _ _ ⟨⟩)
    refine snoc_forall (snoc_forall (by simp) (by rintro _ _ _ _ ⟨⟩)) ?_
    rintro _ _ _ _ ⟨⟩
    exact le_rfl
  · iterate 9 refine snoc_forall ?_ (by simp)
    simp

/-- Two clients are paid by one batch, each for a challenge of its own. -/
theorem every_recipient_is_earned_nonvacuous : ∃ ts s,
    FaucetRun sampleEnv ledgerBdk ⟨250, 2500⟩ ts s ∧
    recipients s = [firstRequest, secondRequest] ∧
    ∃ g g', g ≠ g' ∧ Earned sampleEnv (powTrace ts) g firstRequest ∧
      Earned sampleEnv (powTrace ts) g' secondRequest := by
  obtain ⟨ts, ⟨pow, _⟩, claimed, rfl, _⟩ := two_claims ⟨250, 2500⟩
  have received := claimed.next (.batcher (.received rfl) (by simp))
  have received' := received.next (.batcher (.received rfl) (by simp))
  have built := received'.next (.batcher (.built
    (show [firstRequest, secondRequest] ≠ [] by decide)
    (show ledgerBdk.finish _ 250 _ (some 1) _ from ⟨rfl, fun tx _ => funded_spendable tx⟩))
    (by simp))
  obtain ⟨_, source, distinct, earned⟩ := every_recipient_is_earned built
  have here : firstRequest ∈ [firstRequest, secondRequest] := by decide
  have here' : secondRequest ∈ [firstRequest, secondRequest] := by decide
  refine ⟨_, _, built, rfl, _, _, ?_, earned firstRequest here, earned secondRequest here'⟩
  intro same
  exact absurd (distinct ⟨firstRequest, here, rfl⟩ ⟨secondRequest, here', rfl⟩ same) (by decide)

/-! How many of the recipients one client can be. -/

def handlers (env : Env) (bdk : Bdk W Tx) (cfg : BatcherConfig) :
    Refinement (Initial bdk) (Step env bdk cfg) Pow.Machine.Initial (Pow.Machine.Step env) where
  state := State.pow
  label := powLabel
  base := fun _ init => init.1
  part := by
    intro _ s l s' _ taken
    cases taken with
    | pow taken _ => exact taken
    | claimed taken _ _ => exact taken
    | batcher _ _ => exact rfl

def queuedBy (key : Key) : Pow.Machine.Label → Option L1PayoutRequest
  | .thread _ (.queued claim request) => if claim.key = key then some request else none
  | _ => none

def queuedIn (key : Key) (ts : Pow.Threads.Trace) : List L1PayoutRequest :=
  ts.filterMap (fun x => queuedBy key x.label)

private theorem length_queuedIn_le (key : Key) (ts : Pow.Threads.Trace) :
    (queuedIn key ts).length ≤ payments key ts := by
  rw [queuedIn, List.length_filterMap_eq_countP, payments]
  refine List.countP_mono_left fun x _ pays => ?_
  unfold queuedBy at pays
  split at pays
  · rename_i label
    split_ifs at pays with same
    · simp [label, paysFor, same]
    · simp at pays
  · simp at pays

private theorem mem_queuedIn {ts : Pow.Threads.Trace} (queued : QueuedFor ts ip request) :
    request ∈ queuedIn (keyOf ip .l1) ts := by
  obtain ⟨solution, address, x, member, label⟩ := queued
  exact List.mem_filterMap.mpr ⟨x, member, by rw [label]; exact if_pos rfl⟩

private theorem length_queuedIn_le_periods
    {period : Duration} (pos : 0 < period) (init : Initial bdk s₀)
    (run : Stretch (Step env bdk cfg) s₀ ts s) (lasting : ∀ x ∈ powTrace ts, Lasting period x)
    (ip : Ipv4Addr) :
    (queuedIn (keyOf ip .l1) (powTrace ts)).length ≤
      (s.pow.shared.now - s₀.pow.shared.now) / period + 1 := by
  have stretch : Stretch (Pow.Machine.Step env) s₀.pow (powTrace ts) s.pow :=
    (handlers env bdk cfg).stretch (.start init) run
  have none : unsettled (keyOf ip .l1) s₀.pow.pool = 0 := by
    rw [initial_pool init.1]
    rfl
  have paid := payments_add_unsettled_le (keyOf ip .l1) stretch
  calc (queuedIn (keyOf ip .l1) (powTrace ts)).length
    _ ≤ payments (keyOf ip .l1) (powTrace ts) := length_queuedIn_le _ _
    _ ≤ claims (keyOf ip .l1) (powTrace ts) := by omega
    _ ≤ (s.pow.shared.now - s₀.pow.shared.now) / period + 1 :=
        claims_le_from_start pos init.1 stretch lasting (keyOf ip .l1)

private theorem recipient_client (run : FaucetRun env bdk cfg ts s)
    (member : request ∈ recipients s) :
    request.amount = env.l1AmountPerClaim ∧
      ∃ ip ∈ clients (powTrace ts), QueuedFor (powTrace ts) ip request := by
  have sub := recipients_sublist_drained (batcher_run run)
  have known := acknowledged_of_arrived run (arrived_of_drained run (sub.subset member))
  obtain ⟨ip, solution, address, network, amount, queued⟩ := acknowledged_queued (pow_run run) known
  obtain ⟨source, consumes⟩ := exists_consumes (pow_run run)
  obtain ⟨old, swapped, _⟩ := hashed_swapped (pow_run run) (paid_accepted (pow_run run) rfl queued)
  obtain ⟨x, inside, label⟩ := swapped
  obtain ⟨a, b, split⟩ := List.append_of_mem inside
  have hit := consumes.hit a x b _ _ _ split label
  have installed : Did (powTrace ts) (source request.call) (.installed ip .l1 old) := by
    rw [split]
    exact hit.installed.of_prefix
  refine ⟨amount, ip, ?_, solution, address, queued⟩
  exact client_of_installed (pow_run run) installed

theorem ncard_recipients_le {period : Duration} (pos : 0 < period) (init : Initial bdk s₀)
    (run : Stretch (Step env bdk cfg) s₀ ts s) (lasting : ∀ x ∈ powTrace ts, Lasting period x)
    (ip : Ipv4Addr) :
    {request | request ∈ recipients s ∧ QueuedFor (powTrace ts) ip request}.ncard ≤
      (s.pow.shared.now - s₀.pow.shared.now) / period + 1 := by
  have within : {request | request ∈ recipients s ∧ QueuedFor (powTrace ts) ip request} ⊆
      ↑(queuedIn (keyOf ip .l1) (powTrace ts)).toFinset := by
    rintro request ⟨_, queued⟩
    exact Finset.mem_coe.mpr (List.mem_toFinset.mpr (mem_queuedIn queued))
  calc {request | request ∈ recipients s ∧ QueuedFor (powTrace ts) ip request}.ncard
    _ ≤ (queuedIn (keyOf ip .l1) (powTrace ts)).toFinset.card := by
        rw [← Set.ncard_coe_finset]
        exact Set.ncard_le_ncard within (Finset.finite_toSet _)
    _ ≤ (queuedIn (keyOf ip .l1) (powTrace ts)).length := List.toFinset_card_le _
    _ ≤ _ := length_queuedIn_le_periods pos init run lasting ip

theorem sum_recipients_le {period : Duration} (pos : 0 < period) (init : Initial bdk s₀)
    (run : Stretch (Step env bdk cfg) s₀ ts s) (lasting : ∀ x ∈ powTrace ts, Lasting period x) :
    ((recipients s).map L1PayoutRequest.amount).sum ≤
      (clients (powTrace ts)).card * ((s.pow.shared.now - s₀.pow.shared.now) / period + 1) *
        env.l1AmountPerClaim := by
  have limit := length_queuedIn_le_periods pos init run lasting
  have whole : FaucetRun env bdk cfg ts s := continued (.start init) run
  have amounts : ∀ amount ∈ (recipients s).map L1PayoutRequest.amount,
      amount = env.l1AmountPerClaim := by
    intro amount member
    obtain ⟨request, inside, rfl⟩ := List.mem_map.mp member
    exact (recipient_client whole inside).1
  have distinct : (recipients s).Nodup :=
    (drained_nodup whole).sublist (recipients_sublist_drained (batcher_run whole))
  rw [List.eq_replicate_of_mem amounts, List.sum_replicate_nat, List.length_map,
    ← List.toFinset_card_of_nodup distinct]
  refine Nat.mul_le_mul_right _ ?_
  have covered : (recipients s).toFinset ⊆ (clients (powTrace ts)).biUnion
      fun ip => (queuedIn (keyOf ip .l1) (powTrace ts)).toFinset := by
    intro request member
    obtain ⟨_, ip, client, queued⟩ := recipient_client whole (List.mem_toFinset.mp member)
    exact Finset.mem_biUnion.mpr ⟨ip, client, List.mem_toFinset.mpr (mem_queuedIn queued)⟩
  refine (Finset.card_le_card covered).trans (Finset.card_biUnion_le_card_mul _ _ _ ?_)
  exact fun ip _ => (List.toFinset_card_le _).trans (limit ip)

/-- Since the start of the faucet a client has been paid once at most, and once more at most for
every full period that has passed, where every challenge lasts at least a period from its
installation on. So the transactions together pay out no more than that for every client that has
asked for a challenge. -/
theorem recipients_are_rate_limited {period : Duration} (pos : 0 < period) (init : Initial bdk s₀)
    (run : Stretch (Step env bdk cfg) s₀ ts s) (lasting : ∀ x ∈ powTrace ts, Lasting period x) :
    (∀ ip, {request | request ∈ recipients s ∧ QueuedFor (powTrace ts) ip request}.ncard ≤
      (s.pow.shared.now - s₀.pow.shared.now) / period + 1) ∧
    ((recipients s).map L1PayoutRequest.amount).sum ≤
      (clients (powTrace ts)).card * ((s.pow.shared.now - s₀.pow.shared.now) / period + 1) *
        env.l1AmountPerClaim := by
  exact ⟨ncard_recipients_le pos init run lasting, sum_recipients_le pos init run lasting⟩

theorem recipients_are_rate_limited_nonvacuous : ∃ ts s,
    Stretch (Step sampleEnv ledgerBdk ⟨250, 2500⟩) boot ts s ∧
    (∀ x ∈ powTrace ts, Lasting 120 x) ∧ recipients s = [firstRequest] ∧
    ((recipients s).map L1PayoutRequest.amount).sum ≤ (clients (powTrace ts)).card *
      ((s.pow.shared.now - boot.pow.shared.now) / 120 + 1) * sampleEnv.l1AmountPerClaim := by
  obtain ⟨ts, s, later, batcher, _, installs, _⟩ := paid_stretch 1
  have lasting := lasting_projected installs
  have paid : recipients s = [firstRequest] := by rw [recipients, batcher]; rfl
  have limited := recipients_are_rate_limited (show 0 < 120 by decide) faucet_boot_initial later
    lasting
  exact ⟨ts, s, later, lasting, paid, limited.2⟩

end FaucetApi.Faucet.Provenance
