/- module: FaucetApi/Pow/Expiry
   layer: results
   digest: Calls respect the expiry of a challenge exactly where its eviction is not overdue. -/

import FaucetApi.Pow.Windows

set_option autoImplicit false
set_option relaxedAutoImplicit false

namespace FaucetApi.Pow.Expiry

open FaucetApi.Lib.Runs
open FaucetApi.Pow.Challenges
open FaucetApi.Pow.Eviction
open FaucetApi.Pow.Claims
open FaucetApi.Pow.Machine
open FaucetApi.Pow.Threads
open FaucetApi.Pow.Consumption
open FaucetApi.Pow.Tokens
open FaucetApi.Pow.Windows

variable {env : Env} {ts a b : Trace} {s s' : State} {id : CallId} {key : Key}
variable {x : Transition State Label}

/-- In the step after the trace `a`, an expired challenge is treated as absent: `get` does not hand
it out, and `check_solution` goes on to neither accept nor reject a solution of it, but answers
`NonceNotFound`. A call of `check_solution` is about the challenge that is stored when it reads,
and after that about the one that it read. -/
def ExpiryEnforced (a : Trace) (x : Transition State Label) : Prop :=
  match x.label with
  | .thread _ (.found _ _ c) => x.source.shared.now < c.expiresAt
  | .thread _ (.readRefused claim e) => ∀ c, x.source.shared.challengeSet claim.key = some c →
      c.expiresAt ≤ x.source.shared.now → e = .nonceNotFound
  | .thread _ (.swapped _ old) => x.source.shared.now < old.expiresAt
  | .thread id (.swapRefused claim e) => ∀ old, Did a id (.read claim old) →
      old.expiresAt ≤ x.source.shared.now → e = .nonceNotFound
  | _ => True

/-- Every eviction entry of the key, in the heap, popped or about to be pushed, lies ahead. -/
def NoneOverdue (s : State) (key : Key) : Prop :=
  ∀ entry ∈ keyTokens s key, s.shared.now < entry.expiresAt

def RemovedSinceRead (a : Trace) (id : CallId) (claim : Claim) : Prop :=
  ∃ c y d old z, a = c ++ y :: d ∧ y.label = .thread id (.read claim old) ∧ z ∈ d ∧
    Removes claim.key z.label

/-- Eviction is not behind for the key of a call that uses what is stored there. -/
def EvictionInTime (a : Trace) (x : Transition State Label) : Prop :=
  match x.label with
  | .thread _ (.found ip chain _) => NoneOverdue x.source (keyOf ip chain)
  | .thread _ (.readRefused claim _) => NoneOverdue x.source claim.key
  | .thread _ (.swapped claim _) => NoneOverdue x.source claim.key
  | .thread id (.swapRefused claim _) =>
      NoneOverdue x.source claim.key ∧ ¬ RemovedSinceRead a id claim
  | _ => True

theorem noneOverdue_iff (run : PowRun env ts s) :
    NoneOverdue s key ↔
      ∀ c, s.shared.challengeSet key = some c → s.shared.now < c.expiresAt := by
  have held := tokens_match_set run key
  constructor
  · intro ahead c stored
    rw [stored] at held
    have one : c.expiresAt ∈ expiries key (tokens s) := by
      rw [held]
      exact Multiset.mem_singleton_self _
    obtain ⟨entry, token, same⟩ := Multiset.mem_map.mp one
    exact same ▸ ahead entry token
  · intro fresh entry token
    obtain ⟨member, same⟩ := Multiset.mem_filter.mp token
    cases stored : s.shared.challengeSet key with
    | none =>
        rw [stored, boundExpiry, expiries, Multiset.map_eq_zero] at held
        rw [keyTokens, held] at token
        exact (Multiset.notMem_zero _ token).elim
    | some c => rw [token_expiry run stored member same]; exact fresh c stored

private theorem noneOverdue_of_stored (run : PowRun env ts s) {c : Challenge}
    (stored : s.shared.challengeSet key = some c) :
    NoneOverdue s key ↔ s.shared.now < c.expiresAt := by
  rw [noneOverdue_iff run, stored]
  simp

private theorem expiredOrStored_since {c d : Trace} {y : Transition State Label} {old : Challenge}
    (run : PowRun env (c ++ y :: d) s) (kept : ExpiredOrStored y.source key old.expiresAt false) :
    ExpiredOrStored s key old.expiresAt false := by
  induction d using List.reverseRecOn generalizing s with
  | nil =>
      obtain ⟨before, taken, rfl⟩ := run.last
      exact expiredOrStored_step before taken kept
  | append_singleton d z ih =>
      rw [← List.cons_append, ← List.append_assoc] at run
      obtain ⟨before, taken, rfl⟩ := run.last
      exact expiredOrStored_step before taken (ih before)

theorem stored_since {c d : Trace} {y : Transition State Label} {old : Challenge}
    (run : PowRun env (c ++ y :: d) s) (stored : y.source.shared.challengeSet key = some old)
    (quiet : ∀ z ∈ y :: d, ¬ Removes key z.label) :
    ∃ now, s.shared.challengeSet key = some now ∧ SameChallenge old now := by
  induction d using List.reverseRecOn generalizing s with
  | nil =>
      obtain ⟨_, taken, rfl⟩ := run.last
      exact stored_step taken (quiet y List.mem_cons_self) stored
  | append_singleton d z ih =>
      rw [← List.cons_append] at run quiet
      rw [← List.append_assoc] at run
      obtain ⟨before, taken, rfl⟩ := run.last
      obtain ⟨c', stored', same⟩ := ih before fun z' member =>
        quiet z' (List.mem_append_left _ member)
      obtain ⟨c'', stored'', same'⟩ := stored_step taken
        (quiet z (List.mem_append_right _ (List.mem_singleton_self z))) stored'
      exact ⟨c'', stored'', same.trans same'⟩

theorem clock_le_end (run : PowRun env ts s) : ∀ z ∈ ts, z.source.shared.now ≤ s.shared.now := by
  induction run with
  | start _ => simp
  | next _ taken ih =>
      have later := clock_monotone taken
      exact snoc_forall (fun z member => (ih z member).trans later) later

private theorem read_stored {claim : Claim} {old : Challenge}
    (taken : Step env s (.thread id (.read claim old)) s') :
    s.shared.challengeSet claim.key = some old := by
  cases taken with
  | thread _ action =>
      cases action with
      | read ok => exact (checkRead_ok.mp ok).1

private theorem unexpired_since_read (run : PowRun env a s) {claim : Claim}
    (reads : ∃ old, Did a id (.read claim old)) :
    (∀ old, Did a id (.read claim old) → s.shared.now < old.expiresAt) ↔
      NoneOverdue s claim.key ∧ ¬ RemovedSinceRead a id claim := by
  have stored_at {c d : Trace} {y : Transition State Label} {old : Challenge}
      (split : a = c ++ y :: d) (label : y.label = .thread id (.read claim old)) :
      y.source.shared.challengeSet claim.key = some old := by
    have taken := run.step_at split
    rw [label] at taken
    exact read_stored taken
  constructor
  · intro fresh
    refine ⟨?_, ?_⟩
    · obtain ⟨old, did⟩ := reads
      have early := fresh old did
      obtain ⟨y, member, label⟩ := did
      obtain ⟨c, d, rfl⟩ := List.append_of_mem member
      have kept : ExpiredOrStored y.source claim.key old.expiresAt false :=
        .inr ⟨old, stored_at rfl label, rfl, by simp⟩
      rcases expiredOrStored_since run kept with expired | ⟨now, stored, same, _⟩
      · exact (expired.not_gt early).elim
      · exact (noneOverdue_of_stored run stored).mpr (same ▸ early)
    · rintro ⟨c, y, d, old, z, rfl, label, member, entry, bound, removed, here⟩
      have early := fresh old ⟨y, List.mem_append_right _ List.mem_cons_self, label⟩
      have kept : ExpiredOrStored y.source claim.key old.expiresAt false :=
        .inr ⟨old, stored_at rfl label, rfl, by simp⟩
      obtain ⟨e, f, split⟩ := List.append_of_mem member
      have whole : c ++ y :: d = (c ++ y :: e) ++ z :: f := by simp [split]
      have before : PowRun env (c ++ y :: e) z.source := run.cut whole
      have taken := run.step_at whole
      rw [removed] at taken
      have passed : z.source.shared.now ≤ s.shared.now := clock_le_end run z
        (List.mem_append_right c (List.mem_cons_of_mem y member))
      rcases expiredOrStored_since before kept with expired | ⟨now, stored, same, _⟩
      · exact (expired.trans passed).not_gt early
      · obtain ⟨found, token, _, due⟩ := removed_expired before taken
        obtain ⟨bound_eq, _⟩ := removed_token taken
        rw [here, stored] at bound_eq
        obtain rfl := Option.some.inj (bound_eq.symm.trans token)
        exact ((same ▸ due).trans passed).not_gt early
  · rintro ⟨ahead, unremoved⟩ old ⟨y, member, label⟩
    obtain ⟨c, d, rfl⟩ := List.append_of_mem member
    obtain ⟨now, stored, same⟩ := stored_since run (stored_at rfl label) (by
      intro z member'
      rcases List.mem_cons.mp member' with rfl | later
      · simp [Removes, label]
      · exact fun removes => unremoved ⟨c, y, d, old, z, rfl, label, later, removes⟩)
    rw [same.2.2]
    exact (noneOverdue_of_stored run stored).mp ahead

private theorem swapRefused_read (run : PowRun env a s) {claim : Claim} {e : CheckError}
    (taken : Step env s (.thread id (.swapRefused claim e)) s') :
    e = .alreadyClaimed ∧ ∃ old, Did a id (.read claim old) := by
  cases taken with
  | thread pool action =>
      have past := pool_explained run _ _ (pool ▸ Multiset.mem_cons_self _ _)
      cases action with
      | swapRefused refused => exact ⟨(checkCas_error.mp refused).2.1, _, past.1⟩

private theorem expiryEnforced_iff (run : PowRun env a x.source)
    (taken : Step env x.source x.label x.target) :
    ExpiryEnforced a x ↔ EvictionInTime a x := by
  obtain ⟨source, label, target⟩ := x
  change Step env source label target at taken
  cases label with
  | thread id event =>
      cases event with
      | found ip chain c =>
          have stored : source.shared.challengeSet (keyOf ip chain) = some c := by
            cases taken with
            | thread _ action =>
                cases action with
                | found tried => exact (getCas_error.mp tried).1
          exact (noneOverdue_of_stored run stored).symm
      | readRefused claim e =>
          have refused : checkRead source.shared.challengeSet claim.key = .error e := by
            cases taken with
            | thread _ action =>
                cases action with
                | readRefused refused => exact refused
          change (∀ c, _ → _ → _) ↔ NoneOverdue source claim.key
          rw [noneOverdue_iff run]
          refine forall₂_congr fun c stored => ?_
          rcases checkRead_error.mp refused with ⟨absent, _⟩ | ⟨_, _, _, rfl⟩
          · simp [absent] at stored
          · simp
      | swapped claim old =>
          exact (noneOverdue_of_stored run (swapped_stored taken)).symm
      | swapRefused claim e =>
          obtain ⟨rfl, reads⟩ := swapRefused_read run taken
          refine Iff.trans (forall₂_congr fun old _ => ?_) (unexpired_since_read run reads)
          simp
      | _ => exact Iff.rfl
  | _ => exact Iff.rfl

/-- Expiry is respected in a whole run exactly when eviction is in time for each of its steps. -/
theorem expiry_enforced_iff_eviction_in_time (run : PowRun env ts s) :
    (∀ a x b, ts = a ++ x :: b → ExpiryEnforced a x) ↔
      ∀ a x b, ts = a ++ x :: b → EvictionInTime a x := by
  refine forall₃_congr fun a x b => forall_congr' fun split => ?_
  exact expiryEnforced_iff (run.cut split)
    (run.step_at split)

def firstChallenge : Challenge := candidate (Vector.replicate 16 7) 0 5 120

private theorem claimed_after (wait : Duration) : ∃ a x s, PowRun sampleEnv (a ++ [x]) s ∧
    x.label = .thread 1 (.hashed sampleClaim (.ok ())) ∧
    (∃ c y, a = c ++ [y] ∧ y.label = .thread 1 (.swapped sampleClaim firstChallenge) ∧
      y.source.shared.now = 0 + wait ∧
      ∀ d z e, c = d ++ z :: e → ExpiryEnforced d z) := by
  have begin : PowRun sampleEnv [] _ := .start ⟨0, 0, rfl⟩
  have get := begin.next
    (@Step.called _ _ 0 (.get localIp .l1 (Vector.replicate 16 7) 5 120) (by simp))
  have installed := get.next (.act (.installed (getCas_ok.mpr ⟨rfl, rfl, rfl⟩)))
  have pushed := installed.next (.act (.pushed rfl le_rfl))
  have late := pushed.next (@Step.clock _ _ wait)
  have claim := late.next (@Step.called _ _ 1 (.check sampleClaim) (by simp))
  have read := claim.next (.act (.read (checkRead_ok.mpr ⟨rfl, rfl⟩)))
  have swapped := read.next (.act (.swapped (checkCas_ok.mpr ⟨rfl, rfl⟩)))
  have hashed := swapped.next (.act (.accepted (by decide)))
  refine ⟨_, _, _, hashed, rfl, _, _, rfl, rfl, rfl, ?_⟩
  iterate 6 refine snoc_cut_forall ?_ trivial
  simp

theorem expiry_enforced_iff_eviction_in_time_nonvacuous : ∃ ts s, PowRun sampleEnv ts s ∧
    Did ts 1 (.hashed sampleClaim (.ok ())) ∧
      ∀ a x b, ts = a ++ x :: b → EvictionInTime a x := by
  obtain ⟨_, x, s, run, hashed, c, y, rfl, swapped, now, before⟩ := claimed_after 60
  refine ⟨_, s, run, did_snoc.mpr (.inr hashed),
    (expiry_enforced_iff_eviction_in_time run).mp (snoc_cut_forall (snoc_cut_forall before ?_) ?_)⟩
  · rw [ExpiryEnforced, swapped, now]
    change 0 + 60 < firstChallenge.expiresAt
    decide
  · rw [ExpiryEnforced, hashed]
    trivial

/-- The eviction task has not run for two minutes, and a solution of an expired challenge is
accepted. -/
theorem expired_challenge_accepted : ∃ ts s, PowRun sampleEnv ts s ∧
    (∃ x ∈ ts, x.label = .thread 1 (.swapped sampleClaim firstChallenge) ∧
      firstChallenge.expiresAt ≤ x.source.shared.now) ∧
    Did ts 1 (.hashed sampleClaim (.ok ())) ∧
      ¬ ∀ a x b, ts = a ++ x :: b → ExpiryEnforced a x := by
  obtain ⟨_, x, s, run, hashed, c, y, rfl, swapped, now, _⟩ := claimed_after 120
  have expired : firstChallenge.expiresAt ≤ y.source.shared.now := by
    rw [now]
    decide
  refine ⟨_, s, run, ⟨y, by simp, swapped, expired⟩, did_snoc.mpr (.inr hashed), ?_⟩
  intro enforced
  have fresh := enforced c y [x] (List.append_assoc _ _ _)
  rw [ExpiryEnforced, swapped] at fresh
  exact expired.not_gt fresh

/-- The same without a claim: an expired challenge is handed out again. -/
theorem expired_challenge_handed_out : ∃ ts s x, PowRun sampleEnv (ts ++ [x]) s ∧
    x.label = .thread 1 (.found localIp .l1 firstChallenge) ∧
      firstChallenge.expiresAt ≤ x.source.shared.now := by
  have begin : PowRun sampleEnv [] _ := .start ⟨0, 0, rfl⟩
  have get := begin.next
    (@Step.called _ _ 0 (.get localIp .l1 (Vector.replicate 16 7) 5 120) (by simp))
  have installed := get.next (.act (.installed (getCas_ok.mpr ⟨rfl, rfl, rfl⟩)))
  have late := installed.next (@Step.clock _ _ 120)
  have again := late.next
    (@Step.called _ _ 1 (.get localIp .l1 (Vector.replicate 16 8) 5 120) (by simp))
  have found := again.next (.act (.found (getCas_error.mpr ⟨rfl, rfl⟩)))
  exact ⟨_, _, _, found, rfl, le_rfl⟩

end FaucetApi.Pow.Expiry
