/- module: FaucetApi/Pow/Acceptance
   layer: results
   digest: How many digests pass the test of a difficulty, and what so many guesses can win. -/

import FaucetApi.Lib.Oracle
import FaucetApi.Pow.Challenges
import FaucetApi.Pow.Target

set_option autoImplicit false
set_option relaxedAutoImplicit false

namespace FaucetApi.Pow.Acceptance

open FaucetApi.Lib.BigEndian
open FaucetApi.Lib.Oracle
open FaucetApi.Pow.Hash
open FaucetApi.Pow.Challenges
open FaucetApi.Pow.Target

def accepted (difficulty : UInt8) : Set Digest :=
  {digest | countLeadingZeros digest.toList ≥ difficulty}

/-- How many these are. One digest with enough zero bits is refused, the one whose count wraps. -/
def acceptedCount (difficulty : UInt8) : ℕ :=
  if difficulty = 0 then 2 ^ 256 else 2 ^ (256 - difficulty.toNat) - 1

def leading (zeros : ℕ) : Set Digest := {digest | zeros ≤ leadingZeroBits digest.toList}

/-- A solution that is tried on a challenge. -/
structure Guess where
  challenge : Challenge
  solution : Solution

def Guess.message (guess : Guess) : List UInt8 := preimage guess.challenge.nonce guess.solution

theorem card_digest : Nat.card Digest = 2 ^ 256 := by
  rw [card_vector]
  norm_num

/-! Each zero bit that is asked for leaves half of the digests. -/

theorem leading_ncard {zeros : ℕ} (le : zeros ≤ 256) :
    (leading zeros).ncard = 2 ^ (256 - zeros) := by
  have below : leading zeros = {digest : Digest | value digest.toList < 2 ^ (256 - zeros)} := by
    ext digest
    have length : digest.toList.length = 32 := digest.length_toList
    have iff := le_leadingZeroBits digest.toList
      (show zeros ≤ 8 * digest.toList.length by omega)
    rwa [length] at iff
  rw [below]
  apply ncard_value_lt
  calc 2 ^ (256 - zeros) ≤ 2 ^ 256 := Nat.pow_le_pow_right (by decide) (Nat.sub_le _ _)
    _ = 256 ^ 32 := by norm_num

private theorem zeros_mem_leading {zeros : ℕ} (le : zeros ≤ 256) :
    Vector.replicate 32 0 ∈ leading zeros := by
  have all : leadingZeroBits (Vector.replicate 32 (0 : UInt8)).toList = 256 := by decide +kernel
  rwa [leading, Set.mem_ofPred_eq, all]

private theorem accepted_eq {difficulty : UInt8} (demanding : difficulty ≠ 0) :
    accepted difficulty = leading difficulty.toNat \ {Vector.replicate 32 0} := by
  ext digest
  rw [accepted, Set.mem_ofPred_eq, Set.mem_sdiff, Set.mem_singleton_iff, ge_iff_le,
    UInt8.le_iff_toNat_le, leading, Set.mem_ofPred_eq]
  by_cases zeros : digest = Vector.replicate 32 0
  · have wrapped : countLeadingZeros digest.toList = 0 := by
      rw [zeros]
      decide +kernel
    have positive : 0 < difficulty.toNat :=
      Nat.pos_of_ne_zero fun zero => demanding (UInt8.toNat_inj.mp zero)
    rw [wrapped, UInt8.toNat_zero]
    apply iff_of_false
    · omega
    · exact fun both => both.2 zeros
  · rw [countLeadingZeros_of_nonzero zeros]
    exact (and_iff_left zeros).symm

private theorem accepted_ncard (difficulty : UInt8) :
    (accepted difficulty).ncard = acceptedCount difficulty := by
  have small := difficulty.toNat_lt
  unfold acceptedCount
  split_ifs with zero
  · subst zero
    have every : accepted 0 = Set.univ := Set.eq_univ_of_forall fun _ => UInt8.zero_le
    rw [every, Set.ncard_univ, card_digest]
  · rw [accepted_eq zero, Set.ncard_sdiff_singleton_of_mem (zeros_mem_leading (by omega)),
      leading_ncard (by omega)]

private theorem refused_ncard (difficulty : UInt8) :
    (accepted difficulty)ᶜ.ncard = 2 ^ 256 - acceptedCount difficulty := by
  rw [Set.ncard_compl, accepted_ncard, card_digest]

private theorem acceptedCount_le (difficulty : UInt8) :
    acceptedCount difficulty ≤ 2 ^ (256 - difficulty.toNat) := by
  unfold acceptedCount
  split_ifs with zero
  · subst zero
    exact le_rfl
  · exact Nat.sub_le _ _

private theorem acceptedCount_mul_le
    {difficulty : UInt8} {least : ℕ} (le : least ≤ difficulty.toNat) :
    acceptedCount difficulty * 2 ^ least ≤ 2 ^ 256 := by
  have small := difficulty.toNat_lt
  calc acceptedCount difficulty * 2 ^ least
      ≤ 2 ^ (256 - difficulty.toNat) * 2 ^ difficulty.toNat :=
        Nat.mul_le_mul (acceptedCount_le difficulty) (Nat.pow_le_pow_right (by decide) le)
    _ = 2 ^ 256 := by
        rw [← pow_add]
        congr 1
        omega

/-! Guesses that differ are hashed as different messages. -/

private theorem preimage_inj {nonce nonce' : Nonce} {solution solution' : Solution} :
    preimage nonce solution = preimage nonce' solution' ↔
      nonce = nonce' ∧ solution = solution' := by
  constructor
  · intro same
    unfold preimage at same
    obtain ⟨front, back⟩ := List.append_inj' same (by simp)
    exact ⟨Vector.toList_inj.mp (List.append_cancel_left front), Vector.toList_inj.mp back⟩
  · rintro ⟨rfl, rfl⟩
    rfl

private theorem checkHash_refuses {sha256 : Sha256} (guess : Guess) :
    checkHash sha256 guess.challenge guess.solution = .error .badProofOfWork ↔
      sha256 guess.message ∈ (accepted guess.challenge.difficulty)ᶜ := by
  rw [checkHash, Set.mem_compl_iff, accepted, Set.mem_ofPred_eq, Guess.message]
  split_ifs with enough
  · exact iff_of_false (by simp) (fun refused => refused enough)
  · exact iff_of_true rfl enough

private theorem checkHash_accepts {sha256 : Sha256} (guess : Guess) :
    checkHash sha256 guess.challenge guess.solution = .ok () ↔
      ¬ checkHash sha256 guess.challenge guess.solution = .error .badProofOfWork := by
  rw [checkHash]
  split_ifs with enough <;> simp

/-- The number of answers by which none of the guesses is accepted. -/
def losing {ι : Type} [Fintype ι] (guess : ι → Guess) : ℕ :=
  ∏ i, (2 ^ 256 - acceptedCount (guess i).challenge.difficulty)

/-- Guesses at any challenges, no two of them the same solution to the same nonce. With SHA-256 as
a random oracle, the chances of the guesses are independent, each being that of a digest to pass
the test, and no number of guesses wins more often than that number times in `2 ^ least`, where
`least` is the least difficulty among the challenges. -/
theorem guesses_win_by_chance {ι : Type} [Fintype ι] (guess : ι → Guess)
    (distinct : ∀ i j, (guess i).challenge.nonce = (guess j).challenge.nonce →
      (guess i).solution = (guess j).solution → i = j) :
    Favorable (fun i => (guess i).message)
      (fun sha256 : Sha256 => ∀ i,
        checkHash sha256 (guess i).challenge (guess i).solution = .error .badProofOfWork)
      (losing guess) ∧
    Favorable (fun i => (guess i).message)
      (fun sha256 : Sha256 => ∃ i,
        checkHash sha256 (guess i).challenge (guess i).solution = .ok ())
      ((2 ^ 256) ^ Fintype.card ι - losing guess) ∧
    ∀ least, (∀ i, least ≤ (guess i).challenge.difficulty.toNat) →
      ((2 ^ 256) ^ Fintype.card ι - losing guess) * 2 ^ least ≤
        Fintype.card ι * (2 ^ 256) ^ Fintype.card ι := by
  have messages : Function.Injective fun i => (guess i).message := by
    intro i j same
    obtain ⟨nonces, solutions⟩ := preimage_inj.mp same
    exact distinct i j nonces solutions
  have refused := favorable_forall messages fun i => (accepted (guess i).challenge.difficulty)ᶜ
  simp only [refused_ncard] at refused
  have none := refused.congr fun sha256 => forall_congr' fun i => checkHash_refuses (guess i)
  have all : Nat.card (ι → Digest) = (2 ^ 256) ^ Fintype.card ι := by
    rw [Nat.card_fun, card_digest, Nat.card_eq_fintype_card]
  refine ⟨none, ?_, fun least le => ?_⟩
  · rw [← all]
    apply none.compl.congr
    intro sha256
    rw [not_forall]
    exact exists_congr fun i => checkHash_accepts (guess i)
  · have missed := missed_all (Nat.two_pow_pos least)
      (fun i => acceptedCount (guess i).challenge.difficulty) Finset.univ
      fun i _ => acceptedCount_mul_le (le i)
    rw [Finset.card_univ] at missed
    rw [Nat.sub_mul]
    exact Nat.sub_le_iff_le_add'.mpr missed

/-- Two guesses at a challenge of difficulty one: one half and one digest more is lost each time. -/
theorem guesses_win_by_chance_nonvacuous :
    ∃ guess : Fin 2 → Guess, (∀ i, (guess i).challenge.difficulty = 1) ∧
      Favorable (fun i => (guess i).message)
        (fun sha256 : Sha256 => ∀ i,
          checkHash sha256 (guess i).challenge (guess i).solution = .error .badProofOfWork)
        (losing guess) ∧
      ((2 ^ 256) ^ 2 - losing guess) * 2 ^ 1 ≤ 2 * (2 ^ 256) ^ 2 := by
  have law := guesses_win_by_chance
    (fun i : Fin 2 => ⟨⟨Vector.replicate 16 7, false, 120, 1⟩, Vector.replicate 8 (.ofNat i)⟩)
    (by decide)
  exact ⟨_, fun _ => rfl, law.1, law.2.2 1 fun _ => le_rfl⟩

end FaucetApi.Pow.Acceptance
