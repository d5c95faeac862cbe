/- module: FaucetApi/Pow/Rejection
   layer: results
   digest: What a claim leaves behind when its solution was accepted: a payout or an error. -/

import FaucetApi.Pow.Tokens

set_option autoImplicit false
set_option relaxedAutoImplicit false

namespace FaucetApi.Pow.Rejection

open FaucetApi.Lib.Runs
open FaucetApi.Pow.Hash
open FaucetApi.Pow.Challenges
open FaucetApi.Pow.Eviction
open FaucetApi.Pow.Claims
open FaucetApi.Pow.Machine
open FaucetApi.Pow.Threads
open FaucetApi.Pow.Consumption
open FaucetApi.Pow.Tokens

variable {env : Env} {ts : Trace} {s : State} {id : CallId} {claim : Claim}

/-- What `claim_l1` queues or `claim_l2` sends for a claim. -/
def payoutOf (env : Env) (id : CallId) : Claim → ThreadEvent → Prop
  | .l1 ip solution address, event => ∃ checked, env.requireNetwork address = some checked ∧
      event = .queued (.l1 ip solution address) ⟨id, checked, env.l1AmountPerClaim⟩
  | .l2 ip solution address, event =>
      event = .transferred (.l2 ip solution address) (l2Transaction env address)

private theorem payouts_of_payoutOf {event : ThreadEvent} (payout : payoutOf env id claim event) :
    payouts event = true := by
  cases claim with
  | l1 _ _ _ =>
      obtain ⟨_, _, rfl⟩ := payout
      rfl
  | l2 _ _ _ =>
      obtain rfl := payout
      rfl

/-- A call that has answered with success has paid out before. -/
def PaidWhenAnswered (env : Env) (ts : Trace) (id : CallId) : Pc → Prop
  | .answered claim (.ok _) => ∃ event, payoutOf env id claim event ∧ Did ts id event
  | _ => True

theorem pool_paid (run : PowRun env ts s) :
    ∀ id pc, (id, pc) ∈ s.pool → PaidWhenAnswered env ts id pc := by
  refine @thread_invariant env ts s (PaidWhenAnswered env) run ?_ ?_ ?_
  · intro ts x id pc before
    cases pc with
    | answered claim answer =>
        cases answer with
        | ok _ =>
            obtain ⟨event, payout, did⟩ := before
            exact ⟨event, payout, did.grow⟩
        | error _ => trivial
    | _ => trivial
  · intro ts x id call _
    cases call <;> trivial
  · intro ts x id pc event sh' pc' _ label action
    have did : Did (ts ++ [x]) id event := did_snoc.mpr (.inr label)
    cases action with
    | queued checked => exact ⟨_, ⟨_, checked, rfl⟩, did⟩
    | transferred => exact ⟨_, rfl, did⟩
    | _ => trivial

private def answeredOk : ThreadEvent → Pc → Prop
  | event, pc => payouts event = true → ∃ claim txid, pc = .answered claim (.ok txid)

theorem paid_answered (run : PowRun env ts s) {event : ThreadEvent} (did : Did ts id event)
    (paid : payouts event = true) : ∃ claim txid, (id, Pc.answered claim (.ok txid)) ∈ s.pool := by
  have recorded := event_recorded (Q := answeredOk) run
    (fun id sh pc event sh' pc' action fit => by
      cases action <;> first | exact ⟨_, _, rfl⟩ | simp [payouts, paidClaim] at fit)
    (fun id sh pc event event' sh' pc' held action fit => by
      obtain ⟨_, _, rfl⟩ := held fit
      cases action)
  obtain ⟨x, member, label⟩ := did
  obtain ⟨pc, here, held⟩ := recorded x member id event label
  obtain ⟨claim, txid, rfl⟩ := held paid
  exact ⟨claim, txid, here⟩

theorem rejected_unpaid (run : PowRun env ts s) {refused : StatusCode × String}
    (answered : (id, Pc.answered claim (.error refused)) ∈ s.pool) :
    (doers payouts ts).count id = 0 := by
  refine List.count_eq_zero.mpr fun member => ?_
  obtain ⟨event, paid, did⟩ := mem_doers.mp member
  obtain ⟨claim', txid, there⟩ := paid_answered run did paid
  have same := pc_unique run answered there
  simp at same

theorem swapped_claimed_until_expiry (run : PowRun env ts s) {old : Challenge}
    (swapped : Did ts id (.swapped claim old)) :
    ExpiredOrStored s claim.key old.expiresAt true := by
  obtain ⟨x, member, label⟩ := swapped
  exact expiredOrStored run x member claim.key old.expiresAt true (by rw [label, leaves])

theorem swapped_twice_expired {a b : Trace} {x : Transition State Label} {id' : CallId}
    {claim' : Claim} {old old' : Challenge} (run : PowRun env ts s) (split : ts = a ++ x :: b)
    (first : Did a id (.swapped claim old)) (second : x.label = .thread id' (.swapped claim' old'))
    (sameKey : claim.key = claim'.key) : old.expiresAt ≤ x.source.shared.now := by
  have before := run.cut split
  have taken := run.step_at split
  rw [second] at taken
  have unclaimed : old'.claimed = false :=
    swapped_unclaimed (before.next taken) (did_snoc.mpr (.inr rfl))
  rcases swapped_claimed_until_expiry before first with expired | ⟨c, stored, _, mark⟩
  · exact expired
  · rw [sameKey, swapped_stored taken] at stored
    obtain rfl := Option.some.inj stored
    simp [mark rfl] at unclaimed

/-- When a claim with an accepted solution is answered with an error, and nothing was queued or
sent, the challenge that it consumed stays claimed until it expires, so that no later call claims it
again. When a claim is answered with success, its one payout was queued or sent. -/
theorem rejected_claim_consumes_challenge (run : PowRun env ts s) :
    (∀ id claim refused old, Did ts id (.hashed claim (.ok ())) → Did ts id (.swapped claim old) →
      (id, Pc.answered claim (.error refused)) ∈ s.pool → (doers payouts ts).count id = 0 →
        ExpiredOrStored s claim.key old.expiresAt true ∧
        ∀ a x b id' claim' old', ts = a ++ x :: b → Did a id (.swapped claim old) →
          x.label = .thread id' (.swapped claim' old') → claim.key = claim'.key →
          old.expiresAt ≤ x.source.shared.now) ∧
    (∀ id claim txid, (id, Pc.answered claim (.ok txid)) ∈ s.pool →
      (doers payouts ts).count id = 1 ∧
        ∃ event, payoutOf env id claim event ∧ Did ts id event) := by
  refine ⟨?_, ?_⟩
  · intro id claim refused old _ swapped _ _
    refine ⟨swapped_claimed_until_expiry run swapped, ?_⟩
    intro a x b id' claim' old' split first second sameKey
    exact swapped_twice_expired run split first second sameKey
  · intro id claim txid answered
    obtain ⟨event, payout, did⟩ := pool_paid run _ _ answered
    have member : id ∈ doers payouts ts := mem_doers.mpr ⟨event, payouts_of_payoutOf payout, did⟩
    exact ⟨List.count_eq_one_of_mem (payouts_nodup run) member, event, payout, did⟩

def strictEnv : Env := { sampleEnv with requireNetwork := fun _ => none }

private theorem refused_run (claim : Claim) {event : ThreadEvent} {refused : StatusCode × String}
    (refuses : ∀ sh, ThreadStep strictEnv 1 sh (.settle claim) event sh
      (.answered claim (.error refused))) : ∃ ts s, PowRun strictEnv ts s ∧
    Did ts 1 (.hashed claim (.ok ())) ∧
    Did ts 1 (.swapped claim (candidate (Vector.replicate 16 7) 0 5 120)) ∧
    (1, Pc.answered claim (.error refused)) ∈ s.pool ∧
    s.shared.challengeSet claim.key =
      some (candidate (Vector.replicate 16 7) 0 5 120).markClaimed ∧ s.shared.now = 0 := by
  have begin : PowRun strictEnv [] _ := .start ⟨0, 0, rfl⟩
  have get := begin.next
    (@Step.called _ _ 0 (.get claim.ip claim.chain (Vector.replicate 16 7) 5 120) (by simp))
  have installed := get.next (.act (.installed (getCas_ok.mpr ⟨rfl, rfl, rfl⟩)))
  have claimed := installed.next (@Step.called _ _ 1 (.check claim) (by simp))
  have read := claimed.next (.act (.read (checkRead_ok.mpr ⟨Function.update_self _ _ _, rfl⟩)))
  have swapped := read.next (.act (.swapped (checkCas_ok.mpr ⟨Function.update_self _ _ _, rfl⟩)))
  have hashed := swapped.next (.act (.accepted
    (if_pos (show _ ≤ countLeadingZeros (Vector.replicate 32 (1 : UInt8)).toList by decide))))
  have answered := hashed.next (.act (refuses _))
  refine ⟨_, _, answered, (did_snoc.mpr (.inr rfl)).grow, (did_snoc.mpr (.inr rfl)).grow.grow, ?_,
    Function.update_self _ _ _, rfl⟩
  dsimp only
  exact Multiset.mem_cons_self (1, Pc.answered claim (.error refused)) _

def sampleL2Claim : Claim := .l2 localIp (Vector.replicate 8 0) ⟨"0x03"⟩

/-- One claim is for an address of the wrong network, and one cannot be sent. -/
theorem rejected_claim_consumes_challenge_nonvacuous :
    (∃ ts s, PowRun strictEnv ts s ∧ (1, Pc.answered sampleClaim wrongNetwork) ∈ s.pool ∧
      ExpiredOrStored s sampleClaim.key 120 true) ∧
    ∃ ts s, PowRun strictEnv ts s ∧ (1, Pc.answered sampleL2Claim sendError) ∈ s.pool ∧
      ExpiredOrStored s sampleL2Claim.key 120 true := by
  constructor
  · obtain ⟨ts, s, run, hashed, swapped, answered, _⟩ :=
      refused_run sampleClaim fun _ => .wrongNetwork rfl
    have rejected := (rejected_claim_consumes_challenge run).1 1 sampleClaim _ _ hashed swapped
      answered (rejected_unpaid run answered)
    exact ⟨ts, s, run, answered, rejected.1⟩
  · obtain ⟨ts, s, run, hashed, swapped, answered, _⟩ :=
      refused_run sampleL2Claim fun _ => .sendFailed
    have rejected := (rejected_claim_consumes_challenge run).1 1 sampleL2Claim _ _ hashed swapped
      answered (rejected_unpaid run answered)
    exact ⟨ts, s, run, answered, rejected.1⟩

/-- The address is of the wrong network, and the challenge is claimed long before it expires. -/
theorem rejected_claim_burns_solution : ∃ ts s, PowRun strictEnv ts s ∧
    Did ts 1 (.hashed sampleClaim (.ok ())) ∧
    (1, Pc.answered sampleClaim wrongNetwork) ∈ s.pool ∧ s.shared.now < 120 ∧
    ¬ ∃ c, s.shared.challengeSet sampleClaim.key = some c ∧ c.claimed = false := by
  obtain ⟨ts, s, run, hashed, _, answered, stored, now⟩ :=
    refused_run sampleClaim fun _ => .wrongNetwork rfl
  refine ⟨ts, s, run, hashed, answered, by rw [now]; decide, ?_⟩
  rintro ⟨c, found, unclaimed⟩
  rw [stored] at found
  obtain rfl := Option.some.inj found
  simp at unclaimed

end FaucetApi.Pow.Rejection
