/- module: FaucetApi/Utils/Search
   layer: results
   digest: The solvers count through the eight-byte values and return the least that is enough. -/

import FaucetApi.Lib.BigEndian
import FaucetApi.Utils.Solvers
import Mathlib.Order.Bounds.Basic

set_option autoImplicit false
set_option relaxedAutoImplicit false

namespace FaucetApi.Utils.Search

open FaucetApi.Lib.BigEndian
open FaucetApi.Lib.Hex
open FaucetApi.Pow.Hash
open FaucetApi.Utils.Solvers

/-- The candidates that the loop tests in at most `fuel` rounds, in order. -/
def triedFrom (enough : Solution → Bool) : ℕ → Solution → List Solution
  | 0, _ => []
  | fuel + 1, solution =>
      solution :: if enough solution then [] else triedFrom enough fuel (increment solution)

/-- The solvers of the repository. -/
inductive Shipped : Solver → Prop where
  | js : Shipped solverJs
  | py : Shipped solverPy

variable {enough : Solution → Bool} {solver : Solver} {start : Solution} {fuel k : ℕ}

/-! The carry loop, by the place it has reached. -/

private theorem value_set_byte (solution : Solution) {i : ℕ} (inside : i < 8) (byte : UInt8) :
    value (solution.set i byte).toList + solution[i].toNat * 256 ^ (7 - i) =
      value solution.toList + byte.toNat * 256 ^ (7 - i) := by
  have set := value_set solution.toList (i := i) (by simpa using inside) byte
  rw [Vector.toList_set]
  simpa using set

private theorem value_incrementFrom (i : ℕ) (bound : i ≤ 8) (solution : Solution) :
    value (incrementFrom i bound solution).toList % 2 ^ 64 =
      (value solution.toList + 256 ^ (8 - i)) % 2 ^ 64 := by
  induction i generalizing solution with
  | zero => simp [incrementFrom]
  | succ i ih =>
      have inside : i < 8 := bound
      have here : 8 - (i + 1) = 7 - i := by omega
      have place : 256 ^ (8 - i) = 256 * 256 ^ (7 - i) := by
        rw [← pow_succ']
        congr 1
        omega
      rw [incrementFrom, here]
      -- a byte with room takes the carry, a full one becomes zero and hands it on
      by_cases room : solution[i] < 0xff
      · have set := value_set_byte solution inside (solution[i] + 1)
        have small : solution[i].toNat < 255 := UInt8.lt_iff_toNat_lt.mp room
        have next : (solution[i] + 1).toNat = solution[i].toNat + 1 := by
          rw [UInt8.toNat_add, UInt8.toNat_one]
          omega
        rw [next, Nat.add_mul] at set
        rw [if_pos room]
        omega
      · have set := value_set_byte solution inside 0
        have full : solution[i].toNat = 255 := by
          have high := UInt8.le_iff_toNat_le.mp (UInt8.not_lt.mp room)
          have small := solution[i].toNat_lt
          simp only [UInt8.reduceToNat] at high
          omega
        rw [full] at set
        rw [if_neg room, ih, place]
        simp only [UInt8.toNat_zero, Nat.zero_mul] at set
        omega

theorem value_increment (solution : Solution) :
    value (increment solution).toList = (value solution.toList + 1) % 2 ^ 64 := by
  have small : value (increment solution).toList < 2 ^ 64 := by
    simpa using value_lt (increment solution).toList
  rw [← Nat.mod_eq_of_lt small]
  exact value_incrementFrom 8 le_rfl solution

private theorem value_firstSolution : value firstSolution.toList = 0 := by decide

theorem value_iterate (k : ℕ) : value (increment^[k] firstSolution).toList = k % 2 ^ 64 := by
  induction k with
  | zero => exact value_firstSolution
  | succ k ih =>
      rw [Function.iterate_succ_apply', value_increment, ih]
      omega

private theorem increment_iterate (k : ℕ) :
    increment^[k] firstSolution = toVector 8 (k % 2 ^ 64) := by
  apply eq_toVector
  rw [value_iterate]
  exact (Nat.mod_mod _ _).symm

/-! The search loop. -/

theorem triedFrom_eq (enough : Solution → Bool) (fuel : ℕ) (start : Solution) :
    ∃ rounds ≤ fuel, triedFrom enough fuel start =
      (List.range rounds).map fun k => increment^[k] start := by
  induction fuel generalizing start with
  | zero => exact ⟨0, le_rfl, rfl⟩
  | succ fuel ih =>
      rw [triedFrom]
      by_cases found : enough start
      · exact ⟨1, Nat.le_add_left 1 fuel, by simp [found]⟩
      · obtain ⟨rounds, le, tail⟩ := ih (increment start)
        refine ⟨rounds + 1, Nat.succ_le_succ le, ?_⟩
        rw [if_neg found, tail, List.range_succ_eq_map, List.map_cons, List.map_map]
        rfl

theorem searchFrom_eq_find (enough : Solution → Bool) (fuel : ℕ) (start : Solution) :
    searchFrom enough fuel start = (triedFrom enough fuel start).find? enough := by
  induction fuel generalizing start with
  | zero => rfl
  | succ fuel ih =>
      rw [searchFrom, triedFrom]
      by_cases found : enough start
      · rw [if_pos found, List.find?_cons_of_pos found]
      · rw [if_neg found, if_neg found, List.find?_cons_of_neg found, ih]

private theorem searchFrom_never (never : ∀ solution, enough solution = false) :
    searchFrom enough fuel start = none := by
  rw [searchFrom_eq_find, List.find?_eq_none]
  intro solution _
  simp [never solution]

private theorem searchFrom_first (enough_at : enough (increment^[k] start) = true)
    (before : ∀ j < k, enough (increment^[j] start) = false) :
    searchFrom enough fuel start = if k < fuel then some (increment^[k] start) else none := by
  induction fuel generalizing k start with
  | zero => rfl
  | succ fuel ih =>
      rw [searchFrom]
      cases k with
      | zero =>
          have here : enough start = true := enough_at
          rw [if_pos here, if_pos (Nat.succ_pos fuel)]
          rfl
      | succ k =>
          have first : enough start = false := before 0 (Nat.succ_pos k)
          have rest : searchFrom enough fuel (increment start) =
              if k < fuel then some (increment^[k] (increment start)) else none :=
            ih enough_at fun j lt => before (j + 1) (Nat.succ_lt_succ lt)
          rw [if_neg (by simp [first]), rest, Function.iterate_succ_apply]
          simp only [Nat.add_lt_add_iff_right]

/-! What the solvers return. -/

theorem Shipped.decodeNonce (shipped : Shipped solver) {n : ℕ} (nonce : HexText n) :
    solver.decodeNonce nonce.chars = some nonce.bytes.toList := by
  cases shipped with
  | js => exact js_decodeNonce nonce.spelled
  | py => exact nonce.spelled

theorem Shipped.encodeSolution (shipped : Shipped solver) (bytes : List UInt8) :
    solver.encodeSolution bytes = encode bytes := by
  cases shipped with
  | js => exact js_encodeSolution bytes
  | py => rfl

theorem findSolution_eq (shipped : Shipped solver) (sha256 : Sha256) {n : ℕ} (nonce : HexText n)
    (difficulty fuel : ℕ) :
    solver.findSolution sha256 nonce.chars difficulty fuel =
      (searchFrom (solver.enough sha256 nonce.bytes.toList difficulty) fuel firstSolution).map
        fun solution => encode solution.toList :=
  findSolution_eq_search (shipped.decodeNonce nonce) shipped.encodeSolution sha256 difficulty fuel

def EnoughValues (enough : Solution → Bool) : Set ℕ :=
  {v | ∃ solution, enough solution = true ∧ value solution.toList = v}

private theorem exists_least {solution : Solution} (found : enough solution = true) :
    ∃ least, IsLeast (EnoughValues enough) least := by
  classical
  have some_value : ∃ v, v ∈ EnoughValues enough := ⟨_, solution, found, rfl⟩
  exact ⟨Nat.find some_value, Nat.find_spec some_value, fun v member =>
    Nat.find_min' some_value member⟩

private theorem least_lt {least : ℕ} (isLeast : IsLeast (EnoughValues enough) least) :
    least < 2 ^ 64 := by
  obtain ⟨⟨solution, _, spells⟩, _⟩ := isLeast
  have small := value_lt solution.toList
  rw [spells] at small
  simpa using small

private theorem searchFrom_least {least : ℕ} (isLeast : IsLeast (EnoughValues enough) least) :
    searchFrom enough fuel firstSolution =
      if least < fuel then some (toVector 8 least) else none := by
  have small := least_lt isLeast
  obtain ⟨⟨solution, found, spells⟩, least_le⟩ := isLeast
  have reached : increment^[least] firstSolution = toVector 8 least := by
    rw [increment_iterate, Nat.mod_eq_of_lt small]
  have same : solution = toVector 8 least :=
    eq_toVector (spells.trans (Nat.mod_eq_of_lt small).symm)
  have enough_at : enough (increment^[least] firstSolution) = true := by
    rw [reached, ← same]
    exact found
  have before : ∀ j < least, enough (increment^[j] firstSolution) = false := by
    intro j lt
    by_contra passes
    have value_eq : value (increment^[j] firstSolution).toList = j := by
      rw [value_iterate, Nat.mod_eq_of_lt (lt.trans small)]
    have le : least ≤ j := least_le ⟨_, eq_true_of_ne_false passes, value_eq⟩
    omega
  rw [searchFrom_first enough_at before, reached]

/-- For every hash function, nonce and difficulty, candidate `k` of either solver is `k` modulo
`2 ^ 64`. If some eight bytes are enough, the search returns the hexadecimal text of the least such
value, after as many rounds as that value and one; if none are, it never returns. -/
theorem findSolution_returns_least (shipped : Shipped solver) (sha256 : Sha256) {n : ℕ}
    (nonce : HexText (n + 1)) (difficulty : ℕ) :
    (∀ fuel, ∃ rounds ≤ fuel,
      triedFrom (solver.enough sha256 nonce.bytes.toList difficulty) fuel firstSolution =
        (List.range rounds).map fun k => toVector 8 (k % 2 ^ 64)) ∧
    ((∃ solution, solver.enough sha256 nonce.bytes.toList difficulty solution = true) →
      ∃ least, IsLeast (EnoughValues (solver.enough sha256 nonce.bytes.toList difficulty)) least ∧
        least < 2 ^ 64 ∧
        ∀ fuel, solver.findSolution sha256 nonce.chars difficulty fuel =
          if least < fuel then some ((Nat.toDigits 16 least).leftpad 16 '0') else none) ∧
    ((∀ solution, solver.enough sha256 nonce.bytes.toList difficulty solution = false) →
      ∀ fuel, solver.findSolution sha256 nonce.chars difficulty fuel = none) := by
  refine ⟨fun fuel => ?_, ?_, fun never fuel => ?_⟩
  · obtain ⟨rounds, le, tried⟩ := triedFrom_eq
      (solver.enough sha256 nonce.bytes.toList difficulty) fuel firstSolution
    refine ⟨rounds, le, ?_⟩
    rw [tried]
    simp only [increment_iterate]
  · rintro ⟨solution, found⟩
    obtain ⟨least, isLeast⟩ := exists_least found
    have small := least_lt isLeast
    refine ⟨least, isLeast, small, fun fuel => ?_⟩
    have text : encode (toBytes 8 least) = (Nat.toDigits 16 least).leftpad 16 '0' :=
      encode_toBytes (by simpa using small)
    rw [findSolution_eq shipped, searchFrom_least isLeast]
    split_ifs
    · rw [Option.map_some, toList_toVector, text]
    · rfl
  · rw [findSolution_eq shipped, searchFrom_never never]
    rfl

def sampleHash : Sha256 := fun data =>
  if data.drop 34 = toBytes 8 300 then Vector.replicate 32 0 else Vector.replicate 32 0xff

def sampleNonce : HexText 16 := .ofBytes (Vector.replicate 16 0)

private theorem sampleHash_enough (solution : Solution) :
    solverPy.enough sampleHash sampleNonce.bytes.toList 17 solution = true ↔
      solution = toVector 8 300 := by
  have last : (solverPy.salt ++ sampleNonce.bytes.toList ++ solution.toList).drop 34 =
      solution.toList := List.drop_left' (by decide)
  have same : solution.toList = toBytes 8 300 ↔ solution = toVector 8 300 := by
    rw [← toList_toVector, Vector.toList_inj]
  unfold Solver.enough sampleHash
  rw [last, ← same]
  split_ifs with here
  · exact iff_of_true (by decide) here
  · exact iff_of_false (by decide) here

/-- The search passes 255 and carries into the next byte. -/
theorem findSolution_returns_least_nonvacuous :
    solverPy.findSolution sampleHash sampleNonce.chars 17 300 = none ∧
      solverPy.findSolution sampleHash sampleNonce.chars 17 301 =
        some "000000000000012c".toList := by
  obtain ⟨_, returns, _⟩ := findSolution_returns_least .py sampleHash sampleNonce 17
  obtain ⟨least, isLeast, _, runs⟩ := returns ⟨toVector 8 300, (sampleHash_enough _).mpr rfl⟩
  obtain ⟨_, found, rfl⟩ := isLeast.1
  obtain rfl := (sampleHash_enough _).mp found
  exact ⟨runs 300, runs 301⟩

end FaucetApi.Utils.Search
