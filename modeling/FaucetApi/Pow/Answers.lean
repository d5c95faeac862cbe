/- module: FaucetApi/Pow/Answers
   layer: results
   digest: Why a claim is answered as it is: its hash, another claim of the challenge, or expiry. -/

import FaucetApi.Pow.Expiry
import FaucetApi.Pow.Leasing

set_option autoImplicit false
set_option relaxedAutoImplicit false

namespace FaucetApi.Pow.Answers

open FaucetApi.Lib.Runs
open FaucetApi.Lib.Simulation
open FaucetApi.Pow.Challenges
open FaucetApi.Pow.Eviction
open FaucetApi.Pow.Claims
open FaucetApi.Pow.Machine
open FaucetApi.Pow.Threads
open FaucetApi.Pow.Consumption
open FaucetApi.Pow.Tokens
open FaucetApi.Pow.Expiry
open FaucetApi.Pow.Leasing

variable {env : Env} {ts a b : Trace} {s₀ s s' : State} {id g : CallId} {key : Key}
variable {claim : Claim} {c : Challenge} {answer : Answer}

def TakenByOther (ts : Trace) (id : CallId) (key : Key) (c : Challenge) : Prop :=
  ∃ id' claim', id' ≠ id ∧ claim'.key = key ∧ Did ts id' (.swapped claim' c)

/-- How a handler answers once `check_solution` has returned `Ok`. -/
def Settles (env : Env) : Claim → Answer → Prop
  | .l1 _ _ address, answer =>
      answer = if env.requireNetwork address = none then wrongNetwork else .ok ""
  | .l2 _ _ _, answer => answer = sendError ∨ ∃ txid, answer = .ok txid

/-- The reason for an answer, seen by a client whose challenge is `c`. -/
inductive Justified (env : Env) (ts : Trace) (id : CallId) (claim : Claim) (c : Challenge) :
    Answer → Prop
  | taken : TakenByOther ts id claim.key c →
      Justified env ts id claim c (refusal .alreadyClaimed)
  | unsolved : checkHash env.sha256 c claim.solution = .error .badProofOfWork →
      Justified env ts id claim c (refusal .badProofOfWork)
  | solved {answer : Answer} : checkHash env.sha256 c claim.solution = .ok () →
      Settles env claim answer → Justified env ts id claim c answer

/-- A call of `check_solution` is dealing with this challenge and no other. -/
def OnCourse (env : Env) (ts : Trace) (id : CallId) (claim : Claim) (c : Challenge) : Pc → Prop
  | .checkRead claim' => claim' = claim
  | .checkCas claim' old => claim' = claim ∧ old = c
  | .checkHash claim' old => claim' = claim ∧ old = c
  | .settle claim' => claim' = claim ∧ checkHash env.sha256 c claim.solution = .ok ()
  | .answered claim' answer => claim' = claim ∧ Justified env ts id claim c answer
  | _ => False

theorem TakenByOther.grow {x : Transition State Label} (taken : TakenByOther ts id key c) :
    TakenByOther (ts ++ [x]) id key c := by
  obtain ⟨id', claim', other, same, did⟩ := taken
  exact ⟨id', claim', other, same, did.grow⟩

theorem OnCourse.grow {x : Transition State Label} {pc : Pc}
    (course : OnCourse env ts id claim c pc) : OnCourse env (ts ++ [x]) id claim c pc := by
  cases pc with
  | answered claim' answer =>
      obtain ⟨same, justified⟩ := course
      refine ⟨same, ?_⟩
      cases justified with
      | taken taken => exact .taken taken.grow
      | unsolved failed => exact .unsolved failed
      | solved solved settles => exact .solved solved settles
  | _ => exact course

theorem stored_or_taken (run : PowRun env ts s) {ip : Ipv4Addr} {chain : Chain}
    (installed : Did ts g (.installed ip chain c)) :
    c.expiresAt ≤ s.shared.now ∨ s.shared.challengeSet (keyOf ip chain) = some c ∨
      (s.shared.challengeSet (keyOf ip chain) = some c.markClaimed ∧
        ∃ id' claim', claim'.key = keyOf ip chain ∧ Did ts id' (.swapped claim' c)) := by
  have unclaimed := installed_unclaimed run installed
  obtain ⟨x, member, label⟩ := installed
  obtain ⟨a, b, rfl⟩ := List.append_of_mem member
  rw [List.append_cons] at run
  obtain ⟨s₁, before, later⟩ := exists_stretch run
  obtain ⟨prior, taken, rfl⟩ := before.last
  have stored : x.target.shared.challengeSet (keyOf ip chain) = some c := by
    have effect := map_effect taken
    rw [label] at effect
    generalize x.target.shared.challengeSet = m' at effect
    cases effect with
    | installed _ => exact Function.update_self _ _ _
    | same noInstall _ _ => exact (noInstall _ _ _ _ rfl).elim
  rcases stored_until_expired before later stored with expired | kept
  · exact .inl expired
  by_cases none : claims (keyOf ip chain) b = 0
  · exact .inr (.inl (by simpa [none] using kept))
  -- whatever was claimed since then was this challenge
  obtain ⟨y, inside, claimed⟩ := List.countP_pos_iff.mp (Nat.pos_of_ne_zero none)
  obtain ⟨e, f, rfl⟩ := List.append_of_mem inside
  have early : Stretch (Step env) x.target e y.source := later.cut rfl
  have step := later.step_at rfl
  obtain ⟨id', claim', old, swapped, same⟩ := claimsFor_eq_true claimed
  rw [swapped] at step
  have passed : y.source.shared.now ≤ s.shared.now := clock_le_end (continued before later) y
    (List.mem_append_right _ (List.mem_append_right _ List.mem_cons_self))
  rcases stored_until_expired before early stored with expired | there
  · exact .inl (expired.trans passed)
  have fresh : old.claimed = false :=
    swapped_unclaimed ((continued before early).next step) (did_snoc.mpr (.inr rfl))
  have found := swapped_stored step
  rw [same, there] at found
  obtain rfl : c = old := by
    have shape := Option.some.inj found
    have flag : (c.claimed || decide (0 < claims (keyOf ip chain) e)) = false := by
      simpa [← shape] using fresh
    rw [← shape, flag, ← unclaimed]
  refine .inr (.inr ⟨?_, id', claim', same, y, ?_, ?_⟩)
  · rw [kept, Challenge.markClaimed, unclaimed]
    simp [Nat.pos_of_ne_zero none]
  · exact List.mem_append_right _ (List.mem_cons_of_mem _ inside)
  · exact swapped

private theorem not_swapped_yet (run : PowRun env ts s) {pc : Pc} (here : (id, pc) ∈ s.pool)
    (early : stage pc ≤ 1) {claim' : Claim} {old : Challenge} :
    ¬ Did ts id (.swapped claim' old) := by
  rintro ⟨x, member, label⟩
  obtain ⟨pc', there, far⟩ := event_recorded
    (Q := fun event pc => swaps event = true → 1 < stage pc) run
    (fun _ _ _ _ _ _ action fit => by cases action <;> simp_all [swaps, stage])
    (fun _ _ _ _ _ _ _ far action fit => (far fit).trans (stage_lt action))
    x member id _ label
  obtain rfl := pc_unique run here there
  exact absurd (far rfl) (not_lt.mpr early)

private theorem checkHash_error {sha256 : Hash.Sha256} {solution : Hash.Solution} {e : CheckError}
    (failed : checkHash sha256 c solution = .error e) : e = .badProofOfWork := by
  unfold checkHash at failed
  split_ifs at failed
  exact (Except.error.inj failed).symm

theorem found_or_taken (run : PowRun env ts s) {pc : Pc}
    (installed : Did ts g (.installed claim.ip claim.chain c)) (here : (id, pc) ∈ s.pool)
    (early : stage pc ≤ 1) :
    c.expiresAt ≤ s.shared.now ∨ s.shared.challengeSet claim.key = some c ∨
      (s.shared.challengeSet claim.key = some c.markClaimed ∧ TakenByOther ts id claim.key c) := by
  refine (stored_or_taken run installed).imp_right (Or.imp_right ?_)
  rintro ⟨stored, id', claim', same, did⟩
  refine ⟨stored, id', claim', ?_, same, did⟩
  rintro rfl
  exact not_swapped_yet run here early did

/-- What the handler does next is about the same challenge, or the challenge has expired. -/
theorem onCourse_action (run : PowRun env ts s) {pc pc' : Pc} {event : ThreadEvent} {sh' : Shared}
    (installed : Did ts g (.installed claim.ip claim.chain c))
    (here : (id, pc) ∈ s.pool) (course : OnCourse env ts id claim c pc)
    (action : ThreadStep env id s.shared pc event sh' pc') :
    c.expiresAt ≤ s.shared.now ∨ OnCourse env ts id claim c pc' := by
  have unclaimed := installed_unclaimed run installed
  cases action with
  | readRefused refused =>
      obtain rfl := course
      refine (found_or_taken run installed here (by simp [stage])).imp_right ?_
      rintro (stored | ⟨stored, taken⟩)
      · rcases checkRead_error.mp refused with ⟨absent, _⟩ | ⟨found, there, claimed, _⟩
        · simp [stored] at absent
        · obtain rfl := Option.some.inj (stored.symm.trans there)
          simp [unclaimed] at claimed
      · rcases checkRead_error.mp refused with ⟨absent, _⟩ | ⟨_, _, _, rfl⟩
        · simp [stored] at absent
        · exact ⟨rfl, .taken taken⟩
  | read ok =>
      obtain rfl := course
      obtain ⟨found, free⟩ := checkRead_ok.mp ok
      refine (found_or_taken run installed here (by simp [stage])).imp_right ?_
      rintro (stored | ⟨stored, _⟩)
      · exact ⟨rfl, Option.some.inj (found.symm.trans stored)⟩
      · obtain rfl := Option.some.inj (stored.symm.trans found)
        simp at free
  | swapped _ => exact .inr course
  | swapRefused refused =>
      obtain ⟨rfl, rfl⟩ := course
      obtain ⟨differs, rfl, _⟩ := checkCas_error.mp refused
      refine (found_or_taken run installed here (by simp [stage])).imp_right ?_
      rintro (stored | ⟨_, taken⟩)
      · exact (differs stored).elim
      · exact ⟨rfl, .taken taken⟩
  | accepted solved =>
      obtain ⟨rfl, rfl⟩ := course
      exact .inr ⟨rfl, solved⟩
  | rejected failed =>
      obtain ⟨rfl, rfl⟩ := course
      obtain rfl := checkHash_error failed
      exact .inr ⟨rfl, .unsolved failed⟩
  | wrongNetwork refused =>
      obtain ⟨rfl, solved⟩ := course
      exact .inr ⟨rfl, .solved solved (by rw [Settles, if_pos refused])⟩
  | queued checked =>
      obtain ⟨rfl, solved⟩ := course
      exact .inr ⟨rfl, .solved solved (by rw [Settles, if_neg (by simp [checked])])⟩
  | transferred =>
      obtain ⟨rfl, solved⟩ := course
      exact .inr ⟨rfl, .solved solved (.inr ⟨_, rfl⟩)⟩
  | sendFailed =>
      obtain ⟨rfl, solved⟩ := course
      exact .inr ⟨rfl, .solved solved (.inl rfl)⟩
  | _ => exact course.elim

private theorem onCourse_step {l : Label} (run : PowRun env ts s)
    (installed : Did ts g (.installed claim.ip claim.chain c)) (taken : Step env s l s')
    (before : c.expiresAt ≤ s.shared.now ∨
      ∃ pc, (id, pc) ∈ s.pool ∧ OnCourse env ts id claim c pc) :
    c.expiresAt ≤ s'.shared.now ∨
      ∃ pc, (id, pc) ∈ s'.pool ∧ OnCourse env (ts ++ [⟨s, l, s'⟩]) id claim c pc := by
  rcases before with expired | ⟨pc, here, course⟩
  · exact .inl (expired.trans (clock_monotone taken))
  cases taken with
  | clock => exact .inr ⟨pc, here, course.grow⟩
  | task _ => exact .inr ⟨pc, here, course.grow⟩
  | called _ => exact .inr ⟨pc, Multiset.mem_cons_of_mem here, course.grow⟩
  | @thread moving old new rest event shared' pool action =>
      have at_pool := here
      rw [pool, Multiset.mem_cons] at at_pool
      rcases at_pool with same | other
      · obtain ⟨rfl, rfl⟩ := Prod.mk.inj same
        rcases onCourse_action run installed here course action with expired | next
        · exact .inl (expired.trans (clock_monotone (.thread pool action)))
        · exact .inr ⟨new, Multiset.mem_cons_self _ _, next.grow⟩
      · exact .inr ⟨pc, Multiset.mem_cons_of_mem other, course.grow⟩

/-- A client has fetched a challenge, and its claim begins. Whatever all other calls and the
eviction do meanwhile, and whichever answer the claim gets before that challenge has expired, the
answer has its reason: another call claimed this very challenge, or the solution does not solve it,
or it does and the payout was tried. So nobody is told that the challenge is gone, or judged by
another one. -/
theorem answers_are_justified (run : PowRun env a s₀)
    (installed : Did a g (.installed claim.ip claim.chain c))
    (begins : (id, .checkRead claim) ∈ s₀.pool) (later : Stretch (Step env) s₀ b s)
    (answered : (id, .answered claim answer) ∈ s.pool) :
    c.expiresAt ≤ s.shared.now ∨ Justified env (a ++ b) id claim c answer := by
  have course : c.expiresAt ≤ s.shared.now ∨
      ∃ pc, (id, pc) ∈ s.pool ∧ OnCourse env (a ++ b) id claim c pc := by
    clear answered
    induction later with
    | start same =>
        subst same
        exact .inr ⟨_, begins, rfl⟩
    | next prior taken ih =>
        rw [← List.append_assoc]
        exact onCourse_step (continued run prior) installed.of_prefix taken ih
  rcases course with expired | ⟨pc, here, followed⟩
  · exact .inl expired
  · obtain rfl := pc_unique (continued run later) answered here
    exact .inr followed.2

theorem answers_are_justified_nonvacuous : ∃ a s₀ b s c answer, PowRun sampleEnv a s₀ ∧
    Stretch (Step sampleEnv) s₀ b s ∧ (1, .answered sampleClaim answer) ∈ s.pool ∧
    s.shared.now < c.expiresAt ∧ Justified sampleEnv (a ++ b) 1 sampleClaim c answer := by
  have begin : PowRun sampleEnv [] (startedAt 0) := .start (startedAt_initial 0)
  have get := begin.next
    (@Step.called _ _ 0 (.get localIp .l1 (Vector.replicate 16 7) 5 120) (by simp))
  have installed := get.next (.act (.installed (getCas_ok.mpr ⟨rfl, rfl, rfl⟩)))
  have claim := installed.next (@Step.called _ _ 1 (.check sampleClaim) (by simp))
  have read := (stretch_nil claim).next (.act (.read (checkRead_ok.mpr ⟨rfl, rfl⟩)))
  have swapped := read.next (.act (.swapped (checkCas_ok.mpr ⟨rfl, rfl⟩)))
  have hashed := swapped.next (.act (.accepted (by decide)))
  have queued := hashed.next (.act (.queued rfl))
  refine ⟨_, _, _, _, candidate (Vector.replicate 16 7) 0 5 120, .ok "", claim, queued, ?answered,
    by decide, (answers_are_justified claim (g := 0) (did_snoc.mpr (.inr rfl)).grow
      (by simp [Call.entry]) queued ?answered).resolve_left (by decide)⟩
  simp [sampleClaim]

end FaucetApi.Pow.Answers
