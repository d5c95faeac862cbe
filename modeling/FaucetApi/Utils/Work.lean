/- module: FaucetApi/Utils/Work
   layer: results
   digest: How long the shipped solvers search, over all digests that they can meet. -/

import FaucetApi.Pow.Acceptance
import FaucetApi.Utils.Search

/-!
The candidates of the first `2 ^ 64` rounds differ, so with SHA-256 as a random oracle the rounds
are independent. How many rounds there are then depends on the zero bits that are asked for, which
are not the same for the two solvers.
-/

set_option autoImplicit false
set_option relaxedAutoImplicit false

namespace FaucetApi.Utils.Work

open FaucetApi.Lib.BigEndian
open FaucetApi.Lib.Hex
open FaucetApi.Lib.Oracle
open FaucetApi.Pow.Hash
open FaucetApi.Pow.Acceptance
open FaucetApi.Utils.Solvers
open FaucetApi.Utils.Search

def hashed (solver : Solver) (nonce : List UInt8) (rounds : ℕ) (i : Fin rounds) : List UInt8 :=
  solver.salt ++ nonce ++ (increment^[i] firstSolution).toList

def roundsRun (solver : Solver) (sha256 : Sha256) (nonce : List UInt8) (difficulty rounds : ℕ) :
    ℕ :=
  (triedFrom (solver.enough sha256 nonce difficulty) rounds firstSolution).length

/-- The test of a solver asks for this number of leading zero bits. -/
structure Asks (solver : Solver) (difficulty : ℕ) (zeros : ℕ) : Prop where
  possible : zeros ≤ 256
  test : ∀ digest : Digest,
    difficulty ≤ solver.countLeadingZeros digest.toList ↔ digest ∈ leading zeros

/-- Of all answers to the messages of the rounds, so many let the solver go on after the last, and
the rounds that it runs add up to `2 ^ zeros` for each answer that ends its search. -/
structure WorkLaw {n : ℕ} (solver : Solver) (nonce : HexText n) (difficulty zeros rounds : ℕ) :
    Prop where
  unfinished : Favorable (hashed solver nonce.bytes.toList rounds)
    (fun sha256 : Sha256 => solver.findSolution sha256 nonce.chars difficulty rounds = none)
    ((2 ^ 256 - 2 ^ (256 - zeros)) ^ rounds)
  work : AddsUp (hashed solver nonce.bytes.toList rounds)
    (fun sha256 : Sha256 => roundsRun solver sha256 nonce.bytes.toList difficulty rounds)
    (2 ^ zeros * ((2 ^ 256) ^ rounds - (2 ^ 256 - 2 ^ (256 - zeros)) ^ rounds))

variable {enough : Solution → Bool} {solver : Solver} {start : Solution} {fuel j : ℕ}

/-! The loop goes on for as long as no candidate was enough. -/

private theorem searchFrom_eq_none : searchFrom enough fuel start = none ↔
    ∀ i < fuel, enough (increment^[i] start) = false := by
  induction fuel generalizing start with
  | zero => simp [searchFrom]
  | succ fuel ih =>
      rw [searchFrom, Nat.forall_lt_succ_left]
      by_cases found : enough start
      · simp [found]
      · rw [if_neg found, ih]
        simp [found]

private theorem lt_length_triedFrom (low : j < fuel) : j < (triedFrom enough fuel start).length ↔
    ∀ i < j, enough (increment^[i] start) = false := by
  induction fuel generalizing start j with
  | zero => cases low
  | succ fuel ih =>
      rw [triedFrom, List.length_cons]
      cases j with
      | zero => simp
      | succ j =>
          rw [Nat.forall_lt_succ_left, Nat.succ_lt_succ_iff]
          by_cases found : enough start
          · simp [found]
          · rw [if_neg found, ih (Nat.lt_of_succ_lt_succ low)]
            simp [found]

private theorem length_triedFrom_le : (triedFrom enough fuel start).length ≤ fuel := by
  obtain ⟨rounds, le, tried⟩ := triedFrom_eq enough fuel start
  rwa [tried, List.length_map, List.length_range]

/-! The messages differ, and each is enough exactly if its digest has the zeros asked for. -/

private theorem hashed_injective (solver : Solver) (nonce : List UInt8) {rounds : ℕ}
    (le : rounds ≤ 2 ^ 64) :
    Function.Injective (hashed solver nonce rounds) := by
  intro i i' same
  have value_eq := congrArg value (List.append_cancel_left same)
  rw [value_iterate, value_iterate, Nat.mod_eq_of_lt (i.isLt.trans_le le),
    Nat.mod_eq_of_lt (i'.isLt.trans_le le)] at value_eq
  exact Fin.ext value_eq

private theorem enough_eq_false {difficulty zeros : ℕ} (asks : Asks solver difficulty zeros)
    (sha256 : Sha256) (nonce : List UInt8) {rounds : ℕ} (i : Fin rounds) :
    solver.enough sha256 nonce difficulty (increment^[i] firstSolution) = false ↔
      sha256 (hashed solver nonce rounds i) ∉ leading zeros := by
  rw [← asks.test]
  exact decide_eq_false_iff_not

theorem workLaw {difficulty zeros rounds n : ℕ} (shipped : Shipped solver)
    (asks : Asks solver difficulty zeros) (nonce : HexText n) (le : rounds ≤ 2 ^ 64) :
    WorkLaw solver nonce difficulty zeros rounds := by
  have distinct := hashed_injective solver nonce.bytes.toList le
  have share : (leading zeros).ncard * 2 ^ zeros = Nat.card Digest := by
    rw [leading_ncard asks.possible, card_digest, ← pow_add, Nat.sub_add_cancel asks.possible]
  constructor
  · have missed := favorable_before distinct (leading zeros) le_rfl
    rw [Nat.sub_self, pow_zero, Nat.mul_one, leading_ncard asks.possible, card_digest] at missed
    apply missed.congr
    intro sha256
    rw [findSolution_eq shipped, Option.map_eq_none_iff, searchFrom_eq_none]
    constructor
    · intro none i _
      exact (enough_eq_false asks sha256 _ i).mp (none i i.isLt)
    · intro none i inside
      exact (enough_eq_false asks sha256 _ ⟨i, inside⟩).mpr (none ⟨i, inside⟩ inside)
  · rw [← card_digest, ← leading_ncard asks.possible]
    refine addsUp_attempts distinct (fun sha256 => length_triedFrom_le) ?_ share
    intro sha256 j low
    rw [roundsRun, lt_length_triedFrom low]
    constructor
    · intro none i inside
      exact (enough_eq_false asks sha256 _ i).mp (none i inside)
    · intro none i inside
      exact (enough_eq_false asks sha256 _ ⟨i, inside.trans low⟩).mpr (none ⟨i, _⟩ inside)

/-! What the two tests ask for. -/

private theorem js_asks (difficulty : UInt8) : Asks solverJs difficulty.toNat difficulty.toNat := by
  have small := difficulty.toNat_lt
  refine ⟨small.le, fun digest => ?_⟩
  rw [js_countLeadingZeros]
  rfl

/-- Python rounds up to whole zero bytes, after two bits that it takes for granted. -/
theorem py_asks (difficulty : UInt8) :
    Asks solverPy difficulty.toNat (8 * ((difficulty.toNat + 5) / 8)) := by
  have small := difficulty.toNat_lt
  refine ⟨by omega, fun digest => ?_⟩
  rw [leading, Set.mem_ofPred_eq]
  by_cases zeros : digest = Vector.replicate 32 0
  · have all : leadingZeroBits digest.toList = 256 := by
      rw [zeros]
      decide +kernel
    rw [zeros, countLeadingZeros_zeros, ← zeros, all]
    omega
  · have short := (Pow.Target.leadingZeroBits_lt_iff digest).mpr zeros
    rw [py_countLeadingZeros (by simpa using short)]
    omega

/-- For every nonce and difficulty and up to `2 ^ 64` rounds, with SHA-256 as a random oracle: each
round of the JavaScript solver succeeds one time in `2 ^ difficulty`, independently of the others,
and it runs `2 ^ difficulty` rounds for each success. For Python the difficulty is rounded up to
whole bytes, less two. -/
theorem search_takes_its_time {n : ℕ} (nonce : HexText (n + 1)) (difficulty : UInt8) {rounds : ℕ}
    (le : rounds ≤ 2 ^ 64) :
    WorkLaw solverJs nonce difficulty.toNat difficulty.toNat rounds ∧
      WorkLaw solverPy nonce difficulty.toNat (8 * ((difficulty.toNat + 5) / 8)) rounds :=
  ⟨workLaw .js (js_asks difficulty) nonce le, workLaw .py (py_asks difficulty) nonce le⟩

theorem search_takes_its_time_nonvacuous :
    WorkLaw solverJs (HexText.ofBytes (Vector.replicate 16 7)) 18 18 (2 ^ 20) ∧
      WorkLaw solverPy (HexText.ofBytes (Vector.replicate 16 7)) 18 16 (2 ^ 20) :=
  search_takes_its_time (HexText.ofBytes (Vector.replicate 16 7)) 18
    (Nat.pow_le_pow_right (by decide) (by decide))

end FaucetApi.Utils.Work
