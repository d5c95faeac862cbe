/- module: FaucetApi/Difficulty/Config
   layer: source model
   digest: The difficulty configuration and the difficulty at a balance, in a given arithmetic. -/

import FaucetApi.Lib.Floating
import FaucetApi.Pow.Claims

set_option autoImplicit false
set_option relaxedAutoImplicit false

namespace FaucetApi.Difficulty.Config

open FaucetApi.Lib.Floating
open FaucetApi.Pow.Claims

structure DifficultyConfig where
  bigM : UInt8
  m : UInt8
  b : ℚ
  minDiffStart : ℚ
  precomputeBigA : ℚ
  precomputeBigB : ℚ
  deriving DecidableEq

inductive DifficultyConfigError where
  | maxDiffMustBeGreaterThanMinDiff
  | perClaimMustBeGreaterThanZero
  | difficultyIncreaseCoefficientMustBeGreaterThanZero
  | arithmeticOverflow
  | invalidCalculation
  deriving DecidableEq

def DifficultyConfigError.display : DifficultyConfigError → String
  | .maxDiffMustBeGreaterThanMinDiff =>
      "Maximum difficulty must be greater than minimum difficulty"
  | .perClaimMustBeGreaterThanZero => "Per claim amount must be greater than zero"
  | .difficultyIncreaseCoefficientMustBeGreaterThanZero =>
      "Difficulty increase coefficient must be greater than zero"
  | .arithmeticOverflow =>
      "Arithmetic overflow occurred during difficulty configuration calculation"
  | .invalidCalculation =>
      "Invalid calculation parameters resulted in division by zero or near-zero values"

def EPSILON : ℚ := 1 / 2 ^ 23

variable (ar : Arithmetic)

/-- `DifficultyConfig::new` on a finite coefficient that passed the first three checks. -/
def precompute (maxDiff minDiff : UInt8) (minBalance perClaim : Amount) (bigL : ℚ) :
    Except DifficultyConfigError DifficultyConfig :=
  let bigM := ar.round maxDiff.toNat
  let m := ar.round minDiff.toNat
  let b := ar.round minBalance
  let q := ar.round perClaim
  let lqProduct := ar.round (bigL * q)
  if ar.isFinite lqProduct = false then .error .arithmeticOverflow else
  let minDiffStart := ar.round (b + lqProduct)
  if ar.isFinite minDiffStart = false then .error .arithmeticOverflow else
  if |lqProduct| < EPSILON then .error .invalidCalculation else
  let numerator := ar.round (m - bigM)
  let precomputeBigA := ar.round (numerator / lqProduct)
  if ar.isFinite precomputeBigA = false then .error .arithmeticOverflow else
  let abProduct := ar.round (precomputeBigA * b)
  if ar.isFinite abProduct = false then .error .arithmeticOverflow else
  let precomputeBigB := ar.round (bigM - abProduct)
  if ar.isFinite precomputeBigB = false then .error .arithmeticOverflow else
  .ok ⟨maxDiff, minDiff, b, minDiffStart, precomputeBigA, precomputeBigB⟩

def DifficultyConfig.new (maxDiff minDiff : UInt8) (minBalance perClaim : Amount)
    (difficultyIncreaseCoeff : FloatValue) : Except DifficultyConfigError DifficultyConfig :=
  if maxDiff < minDiff then .error .maxDiffMustBeGreaterThanMinDiff
  else if perClaim = 0 then .error .perClaimMustBeGreaterThanZero
  else if difficultyIncreaseCoeff.nonpos then
    .error .difficultyIncreaseCoefficientMustBeGreaterThanZero
  else
    match difficultyIncreaseCoeff with
    | .finite bigL => precompute ar maxDiff minDiff minBalance perClaim bigL
    -- its product with the positive `q` is not finite either
    | _ => .error .arithmeticOverflow

/-- The argument of `round` in the linear branch. -/
def linearValue (config : DifficultyConfig) (x : ℚ) : ℚ :=
  ar.round (ar.round (config.precomputeBigA * x) + config.precomputeBigB)

def calculateDifficulty (config : DifficultyConfig) (x : Amount) : UInt8 :=
  let x := ar.round x
  if x ≥ config.minDiffStart then config.m
  else if x ≤ config.b then config.bigM
  else UInt8.ofNat
    ((FloatValue.finite (nearestAway (linearValue ar config x))).toUnsigned (2 ^ 8))

/-- The product of the coefficient and the amount per claim, as the code computes it. -/
def lqProduct (perClaim : Amount) (bigL : ℚ) : ℚ := ar.round (bigL * ar.round perClaim)

/-- What is known of a configuration that `DifficultyConfig::new` accepted. -/
structure Built (maxDiff minDiff : UInt8) (minBalance perClaim : Amount) (bigL : ℚ)
    (config : DifficultyConfig) : Prop where
  ordered : minDiff ≤ maxDiff
  perClaim_pos : 0 < perClaim
  bigL_pos : 0 < bigL
  lq_pos : 0 < lqProduct ar perClaim bigL
  bigM_eq : config.bigM = maxDiff
  m_eq : config.m = minDiff
  b_eq : config.b = ar.round minBalance
  minDiffStart_eq : config.minDiffStart = ar.round (config.b + lqProduct ar perClaim bigL)
  bigA_eq : config.precomputeBigA =
    ar.round (((minDiff.toNat : ℚ) - maxDiff.toNat) / lqProduct ar perClaim bigL)
  bigB_eq : config.precomputeBigB =
    ar.round (maxDiff.toNat - ar.round (config.precomputeBigA * config.b))

variable {ar}
variable {maxDiff minDiff : UInt8} {minBalance perClaim : Amount} {bigL : ℚ}
variable {coeff : FloatValue} {config : DifficultyConfig} {x : Amount}

theorem round_toNat (d : UInt8) : ar.round d.toNat = d.toNat := by
  have small := d.toNat_lt
  exact_mod_cast ar.round_intCast d.toNat (by simp; omega)

private theorem round_numerator (maxDiff minDiff : UInt8) :
    ar.round ((minDiff.toNat : ℚ) - maxDiff.toNat) = (minDiff.toNat : ℚ) - maxDiff.toNat := by
  have small := maxDiff.toNat_lt
  have small' := minDiff.toNat_lt
  exact_mod_cast ar.round_intCast ((minDiff.toNat : ℤ) - maxDiff.toNat) (by omega)

private theorem precompute_ok
    (accepted : precompute ar maxDiff minDiff minBalance perClaim bigL = .ok config) :
    EPSILON ≤ |lqProduct ar perClaim bigL| ∧
      config = ⟨maxDiff, minDiff, config.b, config.minDiffStart, config.precomputeBigA,
        config.precomputeBigB⟩ ∧
      config.b = ar.round minBalance ∧
      config.minDiffStart = ar.round (config.b + lqProduct ar perClaim bigL) ∧
      config.precomputeBigA =
        ar.round (((minDiff.toNat : ℚ) - maxDiff.toNat) / lqProduct ar perClaim bigL) ∧
      config.precomputeBigB =
        ar.round (maxDiff.toNat - ar.round (config.precomputeBigA * config.b)) := by
  unfold precompute at accepted
  simp only [round_toNat, round_numerator] at accepted
  split_ifs at accepted with _ _ large
  obtain rfl := Except.ok.inj accepted
  exact ⟨not_lt.mp large, rfl, rfl, rfl, rfl, rfl⟩

theorem new_ok
    (accepted : DifficultyConfig.new ar maxDiff minDiff minBalance perClaim coeff = .ok config) :
    ∃ bigL, coeff = .finite bigL ∧ Built ar maxDiff minDiff minBalance perClaim bigL config := by
  unfold DifficultyConfig.new at accepted
  split_ifs at accepted with disordered free nonpos
  cases coeff with
  | nan => cases accepted
  | infinite _ => cases accepted
  | finite bigL =>
      obtain ⟨large, fields, b_eq, start_eq, bigA_eq, bigB_eq⟩ := precompute_ok accepted
      have bigL_pos : 0 < bigL := by simpa [FloatValue.nonpos] using nonpos
      have lq_nonneg : 0 ≤ lqProduct ar perClaim bigL :=
        ar.round_nonneg (mul_nonneg bigL_pos.le (ar.round_nonneg (Nat.cast_nonneg _)))
      have lq_pos : 0 < lqProduct ar perClaim bigL := by
        rw [abs_of_nonneg lq_nonneg] at large
        exact lt_of_lt_of_le (by norm_num [EPSILON]) large
      exact ⟨bigL, rfl, UInt8.not_lt.mp disordered, Nat.pos_of_ne_zero free, bigL_pos, lq_pos,
        congrArg DifficultyConfig.bigM fields, congrArg DifficultyConfig.m fields, b_eq, start_eq,
        bigA_eq, bigB_eq⟩

/-! The three branches of `calculate_difficulty`. -/

theorem calculateDifficulty_min (above : config.minDiffStart ≤ ar.round x) :
    calculateDifficulty ar config x = config.m := if_pos above

theorem calculateDifficulty_max (below : ar.round x < config.minDiffStart)
    (low : ar.round x ≤ config.b) : calculateDifficulty ar config x = config.bigM := by
  unfold calculateDifficulty
  rw [if_neg (not_le.mpr below), if_pos low]

/-- The saturating cast of an integer to `u8`. -/
def clampToU8 (n : ℤ) : ℕ := min n.toNat 255

theorem clampToU8_mono {n k : ℤ} (le : n ≤ k) : clampToU8 n ≤ clampToU8 k := by
  unfold clampToU8
  omega

theorem calculateDifficulty_linear (below : ar.round x < config.minDiffStart)
    (above : config.b < ar.round x) :
    (calculateDifficulty ar config x).toNat =
      clampToU8 (nearestAway (linearValue ar config (ar.round x))) := by
  unfold calculateDifficulty
  rw [if_neg (not_le.mpr below), if_neg (not_le.mpr above)]
  simp only [FloatValue.toUnsigned, ← Int.floor_toNat, Int.floor_intCast]
  rw [UInt8.toNat_ofNat', Nat.mod_eq_of_lt (by omega)]
  rfl

end FaucetApi.Difficulty.Config
