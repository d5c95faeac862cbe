/- module: FaucetApi/Difficulty/Rounding
   layer: results
   digest: What rounding leaves of the difficulty's guarantees, and for which configurations. -/

import FaucetApi.Difficulty.Config
import Mathlib.Order.Interval.Set.Basic
import Mathlib.Order.Nat
import Mathlib.Order.Lattice.Nat

set_option autoImplicit false
set_option relaxedAutoImplicit false

namespace FaucetApi.Difficulty.Rounding

open FaucetApi.Lib.Floating
open FaucetApi.Pow.Claims
open FaucetApi.Difficulty.Config

/-- The difficulty is between its bounds, greatest up to the minimum balance, and never greater at
a greater balance. A balance is a `u64`. -/
structure Guarantees (ar : Arithmetic) (maxDiff minDiff : UInt8) (minBalance : Amount)
    (config : DifficultyConfig) : Prop where
  bounded : ∀ x < 2 ^ 64, minDiff ≤ calculateDifficulty ar config x ∧
    calculateDifficulty ar config x ≤ maxDiff
  greatest : ∀ x ≤ minBalance, calculateDifficulty ar config x = maxDiff
  falling : ∀ x y, x ≤ y → y < 2 ^ 64 →
    calculateDifficulty ar config y ≤ calculateDifficulty ar config x

/-- The balances that are strictly between the two thresholds after their conversion. -/
def linearBalances (ar : Arithmetic) (config : DifficultyConfig) : Set Amount :=
  {x | x < 2 ^ 64 ∧ config.b < ar.round x ∧ ar.round x < config.minDiffStart}

/-- At the first and the last balance between the thresholds, the rounded line has not left the
two difficulties by half a unit or more, unless the cast saturates there. -/
def EndsFit (ar : Arithmetic) (maxDiff minDiff : UInt8) (config : DifficultyConfig) : Prop :=
  (∀ x, IsLeast (linearBalances ar config) x →
    maxDiff = 255 ∨ linearValue ar config (ar.round x) < maxDiff.toNat + 1 / 2) ∧
  ∀ x, IsGreatest (linearBalances ar config) x →
    minDiff = 0 ∨ (minDiff.toNat : ℚ) - 1 / 2 ≤ linearValue ar config (ar.round x)

/-- The two thresholds are still apart and the line fits between them. -/
def Fits (ar : Arithmetic) (maxDiff minDiff : UInt8) (config : DifficultyConfig) : Prop :=
  maxDiff = minDiff ∨ config.b < config.minDiffStart ∧ EndsFit ar maxDiff minDiff config

/-! What holds at the ends of a set of numbers and spreads through it holds all over it. -/

private theorem forall_of_least {S : Set ℕ} {Q : ℕ → Prop}
    (spreads : ∀ x ∈ S, ∀ y ∈ S, x ≤ y → Q x → Q y) (ends : ∀ x, IsLeast S x → Q x) :
    ∀ y ∈ S, Q y := by
  intro y member
  have least : IsLeast S (sInf S) := ⟨Nat.sInf_mem ⟨y, member⟩, fun _ other => Nat.sInf_le other⟩
  exact spreads _ least.1 y member (least.2 member) (ends _ least)

private theorem forall_of_greatest {S : Set ℕ} {Q : ℕ → Prop} (bounded : BddAbove S)
    (spreads : ∀ x ∈ S, ∀ y ∈ S, x ≤ y → Q y → Q x) (ends : ∀ x, IsGreatest S x → Q x) :
    ∀ y ∈ S, Q y := by
  intro y member
  have greatest : IsGreatest S (sSup S) :=
    ⟨Nat.sSup_mem ⟨y, member⟩ bounded, fun _ other => le_csSup bounded other⟩
  exact spreads y member _ greatest.1 (greatest.2 member) (ends _ greatest)

/-! The cast of the rounded line. -/

private theorem nearestAway_le_natCast {v : ℚ} {n : ℕ} : nearestAway v ≤ n ↔ v < n + 1 / 2 := by
  have nonneg : (0 : ℚ) ≤ n := Nat.cast_nonneg n
  rcases lt_or_ge v 0 with neg | pos
  · refine iff_of_true ?_ (by linarith)
    have below := nearestAway_mono neg.le
    have zero : nearestAway 0 = 0 := by exact_mod_cast nearestAway_intCast 0
    omega
  · rw [nearestAway_of_nonneg pos, ← Int.lt_add_one_iff, Int.floor_lt]
    push_cast
    constructor <;> intro below <;> linarith

private theorem natCast_le_nearestAway {v : ℚ} {n : ℕ} (pos : 0 < n) :
    (n : ℤ) ≤ nearestAway v ↔ (n : ℚ) - 1 / 2 ≤ v := by
  obtain ⟨k, rfl⟩ := Nat.exists_eq_succ_of_ne_zero pos.ne'
  rw [← not_lt, ← not_lt, not_iff_not, Nat.cast_succ, Int.lt_add_one_iff, nearestAway_le_natCast]
  push_cast
  constructor <;> intro below <;> linarith

private theorem clamp_le {v : ℚ} {d : UInt8} :
    clampToU8 (nearestAway v) ≤ d.toNat ↔ d = 255 ∨ v < d.toNat + 1 / 2 := by
  have byte := d.toNat_lt
  rw [← nearestAway_le_natCast, ← UInt8.toNat_inj]
  change _ ↔ d.toNat = 255 ∨ _
  unfold clampToU8
  omega

private theorem le_clamp {v : ℚ} {d : UInt8} :
    d.toNat ≤ clampToU8 (nearestAway v) ↔ d = 0 ∨ (d.toNat : ℚ) - 1 / 2 ≤ v := by
  have byte := d.toNat_lt
  rw [← UInt8.toNat_inj]
  change _ ↔ d.toNat = 0 ∨ _
  rcases Nat.eq_zero_or_pos d.toNat with zero | pos
  · simp [zero]
  · rw [← natCast_le_nearestAway pos]
    unfold clampToU8
    omega

variable {ar : Arithmetic} {maxDiff minDiff : UInt8} {minBalance perClaim : Amount} {bigL : ℚ}
variable {config : DifficultyConfig} {x y : Amount}

private theorem round_natCast_mono (ar : Arithmetic) (le : x ≤ y) : ar.round x ≤ ar.round y :=
  ar.mono (by exact_mod_cast le)

private theorem linear_bounded_iff (linear : x ∈ linearBalances ar config) :
    (minDiff ≤ calculateDifficulty ar config x ∧ calculateDifficulty ar config x ≤ maxDiff) ↔
      (minDiff = 0 ∨ (minDiff.toNat : ℚ) - 1 / 2 ≤ linearValue ar config (ar.round x)) ∧
        (maxDiff = 255 ∨ linearValue ar config (ar.round x) < maxDiff.toNat + 1 / 2) := by
  obtain ⟨_, above, below⟩ := linear
  rw [UInt8.le_iff_toNat_le, UInt8.le_iff_toNat_le, calculateDifficulty_linear below above,
    clamp_le, le_clamp]

section

variable (built : Built ar maxDiff minDiff minBalance perClaim bigL config)
include built

theorem bigA_nonpos : config.precomputeBigA ≤ 0 := by
  have falls : (minDiff.toNat : ℚ) ≤ maxDiff.toNat := by
    exact_mod_cast UInt8.le_iff_toNat_le.mp built.ordered
  rw [built.bigA_eq]
  exact ar.round_nonpos (div_nonpos_of_nonpos_of_nonneg (sub_nonpos.mpr falls) built.lq_pos.le)

private theorem linearValue_antitone (le : x ≤ y) :
    linearValue ar config (ar.round y) ≤ linearValue ar config (ar.round x) := by
  have product := mul_le_mul_of_nonpos_left (round_natCast_mono ar le) (bigA_nonpos built)
  exact ar.mono (by linarith [ar.mono product])

private theorem round_le_b (low : x ≤ minBalance) : ar.round x ≤ config.b := by
  rw [built.b_eq]
  exact round_natCast_mono ar low

private theorem linearValue_flat (same : maxDiff = minDiff) (v : ℚ) :
    linearValue ar config v = maxDiff.toNat := by
  have flat : config.precomputeBigA = 0 := by
    rw [built.bigA_eq, same, sub_self, zero_div, ar.round_zero]
  have height : config.precomputeBigB = maxDiff.toNat := by
    rw [built.bigB_eq, flat, zero_mul, ar.round_zero, sub_zero, round_toNat]
  unfold linearValue
  rw [flat, height, zero_mul, ar.round_zero, zero_add, round_toNat]

private theorem difficulty_flat (same : maxDiff = minDiff) (x : Amount) :
    calculateDifficulty ar config x = maxDiff := by
  rcases le_or_gt config.minDiffStart (ar.round x) with after | below
  · rw [calculateDifficulty_min after, built.m_eq, same]
  rcases le_or_gt (ar.round x) config.b with low | above
  · rw [calculateDifficulty_max below low, built.bigM_eq]
  · have byte := maxDiff.toNat_lt
    apply UInt8.toNat_inj.mp
    rw [calculateDifficulty_linear below above, linearValue_flat built same]
    have whole : nearestAway maxDiff.toNat = maxDiff.toNat := by
      exact_mod_cast nearestAway_intCast maxDiff.toNat
    rw [whole]
    unfold clampToU8
    omega

private theorem linear_bounded (ends : EndsFit ar maxDiff minDiff config) :
    ∀ x ∈ linearBalances ar config, minDiff ≤ calculateDifficulty ar config x ∧
      calculateDifficulty ar config x ≤ maxDiff := by
  have finite : BddAbove (linearBalances ar config) := ⟨2 ^ 64, fun x linear => linear.1.le⟩
  have high := forall_of_least
    (Q := fun x => maxDiff = 255 ∨ linearValue ar config (ar.round x) < maxDiff.toNat + 1 / 2)
    (fun _ _ _ _ le => Or.imp_right (linearValue_antitone built le).trans_lt) ends.1
  have low := forall_of_greatest finite
    (Q := fun x => minDiff = 0 ∨ (minDiff.toNat : ℚ) - 1 / 2 ≤ linearValue ar config (ar.round x))
    (fun _ _ _ _ le => Or.imp_right (fun fits => fits.trans (linearValue_antitone built le)))
    ends.2
  intro x linear
  exact (linear_bounded_iff linear).mpr ⟨low x linear, high x linear⟩

private theorem guarantees_of_fits (fits : Fits ar maxDiff minDiff config) :
    Guarantees ar maxDiff minDiff minBalance config := by
  rcases fits with same | ⟨apart, ends⟩
  · refine ⟨?_, ?_, ?_⟩
    · intro x _
      rw [difficulty_flat built same]
      exact ⟨built.ordered, UInt8.le_refl _⟩
    · intro x _
      exact difficulty_flat built same x
    · intro x y _ _
      rw [difficulty_flat built same, difficulty_flat built same]
      exact UInt8.le_refl _
  have bounded : ∀ x < 2 ^ 64, minDiff ≤ calculateDifficulty ar config x ∧
      calculateDifficulty ar config x ≤ maxDiff := by
    intro x small
    rcases le_or_gt config.minDiffStart (ar.round x) with after | below
    · rw [calculateDifficulty_min after, built.m_eq]
      exact ⟨UInt8.le_refl _, built.ordered⟩
    rcases le_or_gt (ar.round x) config.b with low | above
    · rw [calculateDifficulty_max below low, built.bigM_eq]
      exact ⟨built.ordered, UInt8.le_refl _⟩
    · exact linear_bounded built ends x ⟨small, above, below⟩
  refine ⟨bounded, ?_, ?_⟩
  · intro x low
    have early := round_le_b built low
    rw [calculateDifficulty_max (early.trans_lt apart) early, built.bigM_eq]
  · intro x y le small
    have order := round_natCast_mono ar le
    rcases le_or_gt config.minDiffStart (ar.round y) with after | below
    · rw [calculateDifficulty_min after, built.m_eq]
      exact (bounded x (le.trans_lt small)).1
    rcases le_or_gt (ar.round x) config.b with low | above
    · rw [calculateDifficulty_max (order.trans_lt below) low, built.bigM_eq]
      exact (bounded y small).2
    · apply UInt8.le_iff_toNat_le.mpr
      rw [calculateDifficulty_linear below (above.trans_le order),
        calculateDifficulty_linear (order.trans_lt below) above]
      exact clampToU8_mono (nearestAway_mono (linearValue_antitone built le))

private theorem fits_of_guarantees
    (guaranteed : Guarantees ar maxDiff minDiff minBalance config) :
    Fits ar maxDiff minDiff config := by
  by_cases same : maxDiff = minDiff
  · exact .inl same
  refine .inr ⟨?_, ?_, ?_⟩
  · -- where the thresholds meet, the minimum balance already gets the least difficulty
    by_contra meet
    have after : config.minDiffStart ≤ ar.round minBalance := by
      rw [← built.b_eq]
      exact not_lt.mp meet
    have least := calculateDifficulty_min after
    rw [guaranteed.greatest minBalance le_rfl, built.m_eq] at least
    exact same least
  · intro x least
    have linear := least.1
    exact ((linear_bounded_iff linear).mp (guaranteed.bounded x linear.1)).2
  · intro x greatest
    have linear := greatest.1
    exact ((linear_bounded_iff linear).mp (guaranteed.bounded x linear.1)).1

end

/-- In single precision an accepted configuration gives the guarantees exactly when its difficulties
are equal, or its thresholds have not been rounded together and its line fits between them. -/
theorem guarantees_iff_fits {coeff : FloatValue}
    (accepted : DifficultyConfig.new .single maxDiff minDiff minBalance perClaim coeff =
      .ok config) :
    Guarantees .single maxDiff minDiff minBalance config ↔
      Fits .single maxDiff minDiff config := by
  obtain ⟨bigL, _, built⟩ := new_ok accepted
  exact ⟨fits_of_guarantees built, guarantees_of_fits built⟩

/-- A minimum balance of 10 BTC swallows the product of a small amount and its coefficient, and
already gets the least difficulty. A larger one makes the line end below the least difficulty. -/
theorem guarantees_lost :
    (∃ config, DifficultyConfig.new .single 255 20 (10 ^ 9) 1 (.finite 20) = .ok config ∧
      calculateDifficulty .single config (10 ^ 9) = 20 ∧
      ¬ Guarantees .single 255 20 (10 ^ 9) config) ∧
    ∃ config, DifficultyConfig.new .single 255 20 (10 ^ 12) 10000 (.finite 20) = .ok config ∧
      calculateDifficulty .single config (10 ^ 12 + 126976) = 0 ∧
      ¬ Guarantees .single 255 20 (10 ^ 12) config := by
  have accepted : DifficultyConfig.new .single 255 20 (10 ^ 9) 1 (.finite 20) =
      .ok ⟨255, 20, 10 ^ 9, 10 ^ 9, -47 / 4, 11749999616⟩ := by decide +kernel
  have accepted' : DifficultyConfig.new .single 255 20 (10 ^ 12) 10000 (.finite 20) =
      .ok ⟨255, 20, 999999995904, 1000000192512, -10093173 / 2 ^ 33, 1175000192⟩ := by
    decide +kernel
  refine ⟨⟨_, accepted, by decide +kernel, ?_⟩, _, accepted', by decide +kernel, ?_⟩
  · intro guaranteed
    exact absurd (guaranteed.greatest (10 ^ 9) le_rfl) (by decide +kernel)
  · intro guaranteed
    exact absurd (guaranteed.bounded (10 ^ 12 + 126976) (by decide)).1 (by decide +kernel)

end FaucetApi.Difficulty.Rounding
