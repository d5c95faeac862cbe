/- module: FaucetApi/Difficulty/Formula
   layer: results
   digest: In exact arithmetic the difficulty is the documented formula. -/

import FaucetApi.Difficulty.Config
import FaucetApi.Lib.Ramp

set_option autoImplicit false
set_option relaxedAutoImplicit false

namespace FaucetApi.Difficulty.Formula

open FaucetApi.Lib.Floating
open FaucetApi.Lib.Ramp
open FaucetApi.Pow.Claims
open FaucetApi.Difficulty.Config

/-- The formula of docs/pow.md: `base(x)` between the two difficulties. -/
def documented (maxDiff minDiff : UInt8) (minBalance perClaim : Amount) (bigL : ℚ) (x : Amount) :
    ℚ :=
  let bigM : ℚ := maxDiff.toNat
  let m : ℚ := minDiff.toNat
  max m (min bigM ((m - bigM) / (bigL * perClaim) * (x - minBalance) + bigM))

/-- The nearest integer, and the greater one of two that are equally near. -/
def nearestUp (v : ℚ) : ℤ := ⌊v + 1 / 2⌋

variable {maxDiff minDiff : UInt8} {minBalance perClaim : Amount} {bigL : ℚ}
variable {config : DifficultyConfig} {x : Amount}

private theorem documented_eq_ramp :
    documented maxDiff minDiff minBalance perClaim bigL x =
      ramp (minDiff.toNat : ℚ) maxDiff.toNat minBalance (bigL * perClaim) x := rfl

private theorem nearestUp_natCast (n : ℕ) : nearestUp n = n := by
  unfold nearestUp
  rw [Int.floor_eq_iff]
  push_cast
  constructor <;> linarith

private theorem nearestUp_mono {v w : ℚ} (le : v ≤ w) : nearestUp v ≤ nearestUp w :=
  Int.floor_mono (by linarith)

section

variable (built : Built .exact maxDiff minDiff minBalance perClaim bigL config)
include built

theorem wide : 0 < bigL * perClaim :=
  mul_pos built.bigL_pos (by exact_mod_cast built.perClaim_pos)

theorem falls : (minDiff.toNat : ℚ) ≤ maxDiff.toNat := by
  exact_mod_cast UInt8.le_iff_toNat_le.mp built.ordered

private theorem linearValue_eq_line : linearValue .exact config x =
    line (minDiff.toNat : ℚ) maxDiff.toNat minBalance (bigL * perClaim) x := by
  have b_eq : config.b = minBalance := built.b_eq
  have bigA_eq : config.precomputeBigA =
      ((minDiff.toNat : ℚ) - maxDiff.toNat) / (bigL * perClaim) := built.bigA_eq
  have bigB_eq : config.precomputeBigB =
      maxDiff.toNat - config.precomputeBigA * config.b := built.bigB_eq
  change config.precomputeBigA * x + config.precomputeBigB = _
  rw [bigB_eq, b_eq, bigA_eq]
  unfold line
  ring

theorem b_eq : config.b = minBalance := built.b_eq

theorem minDiffStart_eq : config.minDiffStart = minBalance + bigL * perClaim := by
  have start : config.minDiffStart = config.b + bigL * perClaim := built.minDiffStart_eq
  rw [start, b_eq built]

private theorem linearValue_between (above : config.b < x) (below : (x : ℚ) < config.minDiffStart) :
    (minDiff.toNat : ℚ) ≤ linearValue .exact config x ∧
      linearValue .exact config x ≤ maxDiff.toNat := by
  rw [b_eq built] at above
  rw [minDiffStart_eq built] at below
  rw [linearValue_eq_line built]
  exact ⟨le_line (falls built) (wide built) below.le, line_le (falls built) (wide built) above.le⟩

private theorem rounded_between (above : config.b < x) (below : (x : ℚ) < config.minDiffStart) :
    (minDiff.toNat : ℤ) ≤ nearestAway (linearValue .exact config x) ∧
      nearestAway (linearValue .exact config x) ≤ maxDiff.toNat := by
  obtain ⟨low, high⟩ := linearValue_between built above below
  have low' := nearestAway_mono low
  have high' := nearestAway_mono high
  have whole : ∀ d : UInt8, nearestAway d.toNat = d.toNat := by
    intro d
    exact_mod_cast nearestAway_intCast d.toNat
  rw [whole] at low' high'
  exact ⟨low', high'⟩

private theorem documented_before (before : x ≤ minBalance) :
    documented maxDiff minDiff minBalance perClaim bigL x = maxDiff.toNat := by
  rw [documented_eq_ramp]
  exact ramp_before (falls built) (wide built) (by exact_mod_cast before)

private theorem documented_after (after : config.minDiffStart ≤ x) :
    documented maxDiff minDiff minBalance perClaim bigL x = minDiff.toNat := by
  rw [minDiffStart_eq built] at after
  rw [documented_eq_ramp]
  exact ramp_after (falls built) (wide built) after

private theorem documented_between (above : config.b < x) (below : (x : ℚ) < config.minDiffStart) :
    documented maxDiff minDiff minBalance perClaim bigL x = linearValue .exact config x := by
  rw [linearValue_eq_line built, documented_eq_ramp]
  rw [b_eq built] at above
  rw [minDiffStart_eq built] at below
  exact ramp_between (falls built) (wide built) above.le below.le

private theorem documented_antitone :
    Antitone (documented maxDiff minDiff minBalance perClaim bigL) := by
  intro x y le
  rw [documented_eq_ramp, documented_eq_ramp]
  exact ramp_antitone _ (falls built) (wide built) (by exact_mod_cast le)

theorem difficulty_eq_documented (x : Amount) :
    ((calculateDifficulty .exact config x).toNat : ℤ) =
      nearestUp (documented maxDiff minDiff minBalance perClaim bigL x) := by
  rcases le_or_gt config.minDiffStart (x : ℚ) with after | below
  · have branch : calculateDifficulty .exact config x = config.m := calculateDifficulty_min after
    rw [branch, built.m_eq, documented_after built after, nearestUp_natCast]
  rcases le_or_gt (x : ℚ) config.b with low | above
  · have branch : calculateDifficulty .exact config x = config.bigM :=
      calculateDifficulty_max below low
    rw [b_eq built] at low
    rw [branch, built.bigM_eq, documented_before built (by exact_mod_cast low), nearestUp_natCast]
  · have branch : (calculateDifficulty .exact config x).toNat =
        clampToU8 (nearestAway (linearValue .exact config x)) :=
      calculateDifficulty_linear below above
    obtain ⟨low, high⟩ := rounded_between built above below
    have nonneg : 0 ≤ linearValue .exact config x :=
      (Nat.cast_nonneg _).trans (linearValue_between built above below).1
    have byte := maxDiff.toNat_lt
    rw [branch, documented_between built above below]
    change _ = ⌊_⌋
    rw [← nearestAway_of_nonneg nonneg]
    unfold clampToU8
    omega

theorem difficulty_antitone {y : Amount} (le : x ≤ y) :
    calculateDifficulty .exact config y ≤ calculateDifficulty .exact config x := by
  have falls := nearestUp_mono (documented_antitone built le)
  rw [← difficulty_eq_documented built, ← difficulty_eq_documented built] at falls
  exact UInt8.le_iff_toNat_le.mpr (by exact_mod_cast falls)

theorem difficulty_at_minimum (low : x ≤ minBalance) :
    calculateDifficulty .exact config x = maxDiff := by
  have whole : ((calculateDifficulty .exact config x).toNat : ℤ) = maxDiff.toNat := by
    rw [difficulty_eq_documented built, documented_before built low, nearestUp_natCast]
  exact UInt8.toNat_inj.mp (by exact_mod_cast whole)

end

/-- For every accepted configuration and every balance, in exact arithmetic: the difficulty is the
documented formula rounded half up, the linear branch casts nothing outside the two difficulties,
and a greater balance is never more difficult. -/
theorem difficulty_is_documented_formula {coeff : FloatValue}
    (accepted : DifficultyConfig.new .exact maxDiff minDiff minBalance perClaim coeff =
      .ok config) :
    ∃ bigL, coeff = .finite bigL ∧
      (∀ x : Amount, ((calculateDifficulty .exact config x).toNat : ℤ) =
        nearestUp (documented maxDiff minDiff minBalance perClaim bigL x)) ∧
      (∀ x : Amount, config.b < x → (x : ℚ) < config.minDiffStart →
        (minDiff.toNat : ℤ) ≤ nearestAway (linearValue .exact config x) ∧
          nearestAway (linearValue .exact config x) ≤ maxDiff.toNat) ∧
      ∀ x y : Amount, x ≤ y →
        calculateDifficulty .exact config y ≤ calculateDifficulty .exact config x := by
  obtain ⟨bigL, rfl, built⟩ := new_ok accepted
  refine ⟨bigL, rfl, difficulty_eq_documented built, ?_, ?_⟩
  · intro x above below
    exact rounded_between built above below
  · intro x y le
    exact difficulty_antitone built le

theorem difficulty_is_documented_formula_nonvacuous :
    ∃ config, DifficultyConfig.new .exact 255 20 5000 10000 (.finite (25 / 2)) = .ok config ∧
      ∃ bigL, FloatValue.finite (25 / 2) = .finite bigL ∧
        ((calculateDifficulty .exact config 70000).toNat : ℤ) =
          nearestUp (documented 255 20 5000 10000 bigL 70000) := by
  have accepted : DifficultyConfig.new .exact 255 20 5000 10000 (.finite (25 / 2)) =
      .ok ⟨255, 20, 5000, 130000, -47 / 25000, 1322 / 5⟩ := by decide +kernel
  obtain ⟨bigL, same, formula, _⟩ := difficulty_is_documented_formula accepted
  exact ⟨_, accepted, bigL, same, formula 70000⟩

end FaucetApi.Difficulty.Formula
