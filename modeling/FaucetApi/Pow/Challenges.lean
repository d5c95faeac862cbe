/- module: FaucetApi/Pow/Challenges
   layer: source model
   digest: Challenges, the challenge set and the atomic actions of get and check_solution. -/

import FaucetApi.Lib.ConcurrentMap
import FaucetApi.Pow.Hash
import Mathlib.Algebra.Group.Nat.Defs

set_option autoImplicit false
set_option relaxedAutoImplicit false

namespace FaucetApi.Pow.Challenges

open FaucetApi.Lib.ConcurrentMap
open FaucetApi.Pow.Hash

/-- Nanoseconds on the monotone clock. -/
abbrev Instant := ℕ
/-- Nanoseconds. -/
abbrev Duration := ℕ

/-- Which chain the faucet is reasoning about. -/
inductive Chain where
  | l1
  | l2
  deriving DecidableEq, Repr

structure Ipv4Addr where
  bits : UInt32
  deriving DecidableEq, Repr

def Ipv4Addr.toBits (ip : Ipv4Addr) : UInt32 := ip.bits

structure Challenge where
  nonce : Nonce
  claimed : Bool
  expiresAt : Instant
  difficulty : UInt8
  deriving DecidableEq

abbrev Key := UInt32 × Chain
abbrev ChallengeSet := AtomicMap Key Challenge

def keyOf (ip : Ipv4Addr) (chain : Chain) : Key := (ip.toBits, chain)

inductive CheckError where
  | nonceNotFound
  | badProofOfWork
  | alreadyClaimed
  deriving DecidableEq, Repr

def CheckError.display : CheckError → String
  | .alreadyClaimed =>
      "You have already claimed tokens from the faucet. Please wait and try again."
  | .badProofOfWork => "Proof of Work is invalid. Please try again."
  | .nonceNotFound => "Proof of Work took too long. The challenge is no longer valid."

/-! `Challenge::get` builds a candidate and lets one compare-and-swap decide. -/

/-- The challenge that a call of `get` at instant `now` offers, with the nonce it drew. -/
def candidate (nonce : Nonce) (now : Instant) (difficultyIfNotPresent : UInt8)
    (challengeDuration : Duration) : Challenge :=
  ⟨nonce, false, now + challengeDuration, difficultyIfNotPresent⟩

def getCas (challengeSet : ChallengeSet) (key : Key) (challenge : Challenge) :
    Except (CasFailure Challenge) (Option Challenge) × ChallengeSet :=
  cas challengeSet key none (some challenge)

/-! `Challenge::check_solution` is a read, a compare-and-swap and a hash check. -/

def checkRead (challengeSet : ChallengeSet) (key : Key) : Except CheckError Challenge :=
  match challengeSet key with
  | none => .error .nonceNotFound
  | some oldChallenge =>
      if oldChallenge.claimed then .error .alreadyClaimed else .ok oldChallenge

def Challenge.markClaimed (challenge : Challenge) : Challenge := { challenge with claimed := true }

def checkCas (challengeSet : ChallengeSet) (key : Key) (oldChallenge : Challenge) :
    Except CheckError Unit × ChallengeSet :=
  match cas challengeSet key (some oldChallenge) (some oldChallenge.markClaimed) with
  | (.ok _, challengeSet') => (.ok (), challengeSet')
  | (.error _, challengeSet') => (.error .alreadyClaimed, challengeSet')

def checkHash (sha256 : Sha256) (oldChallenge : Challenge) (solution : Solution) :
    Except CheckError Unit :=
  if countLeadingZeros (sha256 (preimage oldChallenge.nonce solution)).toList ≥
      oldChallenge.difficulty then .ok () else .error .badProofOfWork

/-- The three actions without interference from other calls. -/
def checkSolution (sha256 : Sha256) (challengeSet : ChallengeSet) (key : Key)
    (solution : Solution) : Except CheckError Unit × ChallengeSet :=
  match checkRead challengeSet key with
  | .error e => (.error e, challengeSet)
  | .ok oldChallenge =>
      match checkCas challengeSet key oldChallenge with
      | (.error e, challengeSet') => (.error e, challengeSet')
      | (.ok _, challengeSet') => (checkHash sha256 oldChallenge solution, challengeSet')

@[simp] theorem markClaimed_claimed (c : Challenge) : c.markClaimed.claimed = true := rfl

variable {challengeSet challengeSet' : ChallengeSet} {key : Key} {c old : Challenge}
variable {e : CheckError}

theorem getCas_ok {found : Option Challenge} :
    getCas challengeSet key c = (.ok found, challengeSet') ↔
      challengeSet key = none ∧ found = none ∧
        challengeSet' = Function.update challengeSet key (some c) := cas_ok

theorem getCas_error : getCas challengeSet key c = (.error ⟨some old⟩, challengeSet') ↔
    challengeSet key = some old ∧ challengeSet' = challengeSet := by
  rw [getCas, cas_error]
  constructor
  · rintro ⟨_, found, same⟩
    exact ⟨found.symm, same⟩
  · rintro ⟨found, same⟩
    exact ⟨by simp [found], found.symm, same⟩

theorem checkRead_ok : checkRead challengeSet key = .ok old ↔
    challengeSet key = some old ∧ old.claimed = false := by
  unfold checkRead
  cases challengeSet key with
  | none => simp
  | some found =>
      by_cases claimed : found.claimed
      · simp only [claimed, if_true, reduceCtorEq, Option.some.injEq, false_iff, not_and]
        rintro rfl
        simp [claimed]
      · simp only [claimed, Bool.false_eq_true, if_false, Except.ok.injEq, Option.some.injEq]
        constructor
        · rintro rfl
          exact ⟨rfl, by simpa using claimed⟩
        · exact And.left

theorem checkRead_error : checkRead challengeSet key = .error e ↔
    (challengeSet key = none ∧ e = .nonceNotFound) ∨
      (∃ found, challengeSet key = some found ∧ found.claimed = true ∧ e = .alreadyClaimed) := by
  unfold checkRead
  cases challengeSet key with
  | none => simp [@eq_comm _ CheckError.nonceNotFound]
  | some found =>
      by_cases claimed : found.claimed
      · simp [claimed, @eq_comm _ CheckError.alreadyClaimed]
      · simp [claimed]

theorem checkCas_ok : checkCas challengeSet key old = (.ok (), challengeSet') ↔
    challengeSet key = some old ∧
      challengeSet' = Function.update challengeSet key (some old.markClaimed) := by
  unfold checkCas cas
  by_cases same : challengeSet key = some old
  · simp only [same, if_true, Prod.mk.injEq, true_and]
    exact eq_comm
  · simp [same]

theorem checkCas_error : checkCas challengeSet key old = (.error e, challengeSet') ↔
    challengeSet key ≠ some old ∧ e = .alreadyClaimed ∧ challengeSet' = challengeSet := by
  unfold checkCas cas
  by_cases same : challengeSet key = some old
  · simp [same]
  · simp only [same, if_false, Prod.mk.injEq, Except.error.injEq, ne_eq, not_false_eq_true,
      true_and]
    constructor <;> rintro ⟨rfl, rfl⟩ <;> exact ⟨rfl, rfl⟩

end FaucetApi.Pow.Challenges
