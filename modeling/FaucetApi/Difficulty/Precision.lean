/- module: FaucetApi/Difficulty/Precision
   layer: results
   digest: Configurations that single precision does no harm to. -/

import FaucetApi.Difficulty.Rounding

/-!
The precomputed line takes a difference of two products. Each of them is about as large as the
difference of the difficulties times the thresholds, in units of the width between the thresholds.
Below `2 ^ 23` a float is a whole number of halves or finer, so their difference cannot miss the
bounds by more than half a unit of difficulty.
-/

set_option autoImplicit false
set_option relaxedAutoImplicit false

namespace FaucetApi.Difficulty.Precision

open FaucetApi.Lib.Floating
open FaucetApi.Pow.Claims
open FaucetApi.Difficulty.Config
open FaucetApi.Difficulty.Rounding

def single (v : ℚ) : ℚ := Arithmetic.single.round v

private theorem single_mono : Monotone single := Arithmetic.single.mono

private theorem single_near (v : ℚ) : |single v - v| ≤ |v| / 2 ^ 24 := abs_roundTo_sub_le v

private theorem single_between {v : ℚ} (nonneg : 0 ≤ v) :
    v - v / 2 ^ 24 ≤ single v ∧ single v ≤ v + v / 2 ^ 24 := by
  have near := abs_le.mp (single_near v)
  rw [abs_of_nonneg nonneg] at near
  constructor <;> linarith

private theorem single_neg (v : ℚ) : single (-v) = -single v := roundTo_neg v

private theorem single_fraction {n : ℕ} (k : ℕ) (small : n < 2 ^ 24) :
    single (n / 2 ^ k) = n / 2 ^ k := by
  have whole := roundTo_natCast_mul_zpow (p := 24) (-k) small
  rwa [zpow_neg, zpow_natCast, ← div_eq_mul_inv] at whole

private theorem single_error {v : ℚ} (k : ℕ) (nonneg : 0 ≤ v) (small : v < 2 ^ k) :
    |single v - v| ≤ 2 ^ k / 2 ^ 25 := by
  have near := abs_roundTo_sub_le_of_lt (p := 24) (k := k) nonneg (by exact_mod_cast small)
  have half : (2 : ℚ) ^ ((k : ℤ) - (24 : ℕ)) / 2 = 2 ^ k / 2 ^ 25 := by
    rw [zpow_sub₀ two_ne_zero, zpow_natCast, zpow_natCast]
    ring
  exact near.trans_eq half

private theorem single_whole {v : ℚ} (k : ℕ) (large : 2 ^ k ≤ v) :
    ∃ n : ℤ, single v = n * (2 ^ k / 2 ^ 23) := by
  obtain ⟨n, whole⟩ := roundTo_multiple (p := 24) (k := k) (by exact_mod_cast large)
  refine ⟨n, whole.trans ?_⟩
  rw [show (k : ℤ) + 1 - (24 : ℕ) = k - (23 : ℕ) by omega, zpow_sub₀ two_ne_zero, zpow_natCast,
    zpow_natCast]

section

variable {rate b y : ℚ} {top : ℕ}
variable (falls : 0 ≤ rate) (start : 0 ≤ b) (above : b ≤ y) (byte : top ≤ 255)
variable (reach : rate * y < 2 ^ 23 - 2 ^ 9)
include falls start above byte reach

private theorem line_high : single (top + single (rate * b)) - single (rate * y) ≤ top + 1 / 4 := by
  have order := mul_le_mul_of_nonneg_left above falls
  have product := mul_nonneg falls start
  have bytes : (top : ℚ) ≤ 255 := by exact_mod_cast byte
  have first := single_mono order
  have rounded := single_between product
  have intercept := abs_le.mp (single_error (v := top + single (rate * b)) 23
    (by linarith) (by linarith))
  linarith

private theorem line_low {fallen : ℕ} (byte' : fallen ≤ 255)
    (ends : rate * (y - b) ≤ fallen + 1 / 16) :
    (top : ℚ) - fallen - 1 / 2 ≤ single (top + single (rate * b)) - single (rate * y) := by
  have order := mul_le_mul_of_nonneg_left above falls
  have product := mul_nonneg falls start
  have bytes : (top : ℚ) ≤ 255 := by exact_mod_cast byte
  have bytes' : (fallen : ℚ) ≤ 255 := by exact_mod_cast byte'
  have rounded := single_between product
  rw [mul_sub] at ends
  rcases lt_or_ge (rate * b) (2 ^ 22 - 2 ^ 10) with small | large
  · -- none of the three roundings is off by more than an eighth
    have first := abs_le.mp (single_error 22 product (by linarith))
    have last := abs_le.mp (single_error (v := rate * y) 22 (by linarith) (by linarith))
    have intercept := abs_le.mp (single_error (v := top + single (rate * b)) 22
      (by linarith) (by linarith))
    linarith
  rcases lt_or_ge (rate * b) (2 ^ 22) with middle | far
  · -- all three are off by less than three quarters, and are whole quarters
    have first := abs_le.mp (single_error 22 product middle)
    have last := abs_le.mp (single_error (v := rate * y) 23 (by linarith) (by linarith))
    have intercept := abs_le.mp (single_error (v := top + single (rate * b)) 23
      (by linarith) (by linarith))
    obtain ⟨n, whole⟩ := single_whole (v := rate * y) 21 (by linarith)
    obtain ⟨k, whole'⟩ := single_whole (v := top + single (rate * b)) 21 (by linarith)
    have bound : 4 * (top - fallen) - 3 < (k - n : ℚ) := by linarith
    have count : 4 * (top - fallen) - 2 ≤ k - n := by
      have count' : 4 * ((top : ℤ) - fallen) - 3 < k - n := by exact_mod_cast bound
      omega
    have bound' : 4 * (top - fallen) - 2 ≤ (k - n : ℚ) := by exact_mod_cast count
    linarith
  · -- the products are whole halves, and the intercept is exact
    have first := abs_le.mp (single_error 23 product (by linarith))
    have last := abs_le.mp (single_error (v := rate * y) 23 (by linarith) (by linarith))
    obtain ⟨j, whole⟩ := single_whole (v := rate * b) 22 far
    obtain ⟨n, whole'⟩ := single_whole (v := rate * y) 22 (by linarith)
    have intercept : single (top + single (rate * b)) = top + single (rate * b) := by
      have positive : (0 : ℚ) ≤ j := by linarith
      obtain ⟨i, rfl⟩ := Int.eq_ofNat_of_zero_le (by exact_mod_cast positive)
      rw [Int.cast_natCast] at whole
      have sum : top + single (rate * b) = ((2 * top + i : ℕ) : ℚ) / 2 ^ 1 := by
        rw [whole]
        push_cast
        ring
      have small : ((2 * top + i : ℕ) : ℚ) < (2 ^ 24 : ℕ) := by
        push_cast
        linarith
      rw [sum, single_fraction 1 (by exact_mod_cast small)]
    rw [intercept]
    have bound : 2 * (top - fallen) - 2 < (2 * top + j - n : ℚ) := by linarith
    have count : 2 * (top - fallen) - 1 ≤ 2 * top + j - n := by
      have count' : 2 * ((top : ℤ) - fallen) - 2 < 2 * top + j - n := by exact_mod_cast bound
      omega
    have bound' : 2 * (top - fallen) - 1 ≤ (2 * top + j - n : ℚ) := by exact_mod_cast count
    linarith

end

variable {maxDiff minDiff : UInt8} {minBalance perClaim : Amount} {bigL : ℚ}
variable {config : DifficultyConfig} {x : Amount}

private theorem product_eq (v : ℚ) :
    Arithmetic.single.round (config.precomputeBigA * v) =
      -single (-config.precomputeBigA * v) := by
  rw [← single_neg, neg_mul, neg_neg]
  rfl

def fall (maxDiff minDiff : UInt8) : ℚ := (maxDiff.toNat : ℚ) - minDiff.toNat

section

variable (built : Built .single maxDiff minDiff minBalance perClaim bigL config)
include built

private theorem fall_nonneg : 0 ≤ fall maxDiff minDiff :=
  sub_nonneg.mpr (by exact_mod_cast UInt8.le_iff_toNat_le.mp built.ordered)

private theorem b_nonneg : 0 ≤ config.b := by
  rw [built.b_eq]
  exact Arithmetic.round_nonneg (Nat.cast_nonneg _)

theorem minDiffStart_eq :
    config.minDiffStart = single (config.b + lqProduct .single perClaim bigL) :=
  built.minDiffStart_eq

theorem bigA_eq :
    config.precomputeBigA = -single (fall maxDiff minDiff / lqProduct .single perClaim bigL) := by
  rw [← single_neg, ← neg_div, fall, neg_sub]
  exact built.bigA_eq

private theorem rate_nonneg : 0 ≤ -config.precomputeBigA := neg_nonneg.mpr (bigA_nonpos built)

private theorem rate_le :
    -config.precomputeBigA * lqProduct .single perClaim bigL ≤
      fall maxDiff minDiff * (1 + 1 / 2 ^ 24) := by
  have pos := built.lq_pos
  have rounded := single_between (div_nonneg (fall_nonneg built) pos.le)
  calc -config.precomputeBigA * lqProduct .single perClaim bigL
    _ ≤ fall maxDiff minDiff / lqProduct .single perClaim bigL * (1 + 1 / 2 ^ 24) *
        lqProduct .single perClaim bigL := by
      rw [bigA_eq built, neg_neg]
      exact mul_le_mul_of_nonneg_right (by linarith) pos.le
    _ = fall maxDiff minDiff * (1 + 1 / 2 ^ 24) := by field_simp

private theorem linearValue_eq (v : ℚ) :
    linearValue .single config v =
      single (single (maxDiff.toNat + single (-config.precomputeBigA * config.b)) -
        single (-config.precomputeBigA * v)) := by
  have intercept : config.precomputeBigB =
      single (maxDiff.toNat + single (-config.precomputeBigA * config.b)) := by
    rw [built.bigB_eq, product_eq, sub_neg_eq_add]
    rfl
  unfold linearValue
  rw [product_eq, intercept, neg_add_eq_sub]
  rfl

private theorem balance_le (below : single x < config.minDiffStart) :
    single x ≤ config.b + lqProduct .single perClaim bigL := by
  rw [minDiffStart_eq built] at below
  by_contra beyond
  have later := single_mono (not_le.mp beyond).le
  have float : single (single x) = single x := roundTo_roundTo (by decide) (Nat.cast_nonneg x)
  rw [float] at later
  exact absurd below (not_lt.mpr later)

section

variable (narrow : fall maxDiff minDiff * (config.b + lqProduct .single perClaim bigL) ≤
  (2 ^ 23 - 2 ^ 10) * lqProduct .single perClaim bigL)
include narrow

private theorem rate_reach :
    -config.precomputeBigA * (config.b + lqProduct .single perClaim bigL) < 2 ^ 23 - 2 ^ 9 := by
  have pos := built.lq_pos
  have sum := add_nonneg (b_nonneg built) pos.le
  refine lt_of_mul_lt_mul_right ?_ pos.le
  calc -config.precomputeBigA * (config.b + lqProduct .single perClaim bigL) *
        lqProduct .single perClaim bigL
    _ = -config.precomputeBigA * lqProduct .single perClaim bigL *
        (config.b + lqProduct .single perClaim bigL) := by ring
    _ ≤ fall maxDiff minDiff * (1 + 1 / 2 ^ 24) *
        (config.b + lqProduct .single perClaim bigL) :=
      mul_le_mul_of_nonneg_right (rate_le built) sum
    _ = fall maxDiff minDiff * (config.b + lqProduct .single perClaim bigL) *
        (1 + 1 / 2 ^ 24) := by ring
    _ ≤ (2 ^ 23 - 2 ^ 10) * lqProduct .single perClaim bigL * (1 + 1 / 2 ^ 24) :=
      mul_le_mul_of_nonneg_right narrow (by norm_num)
    _ < (2 ^ 23 - 2 ^ 9) * lqProduct .single perClaim bigL := by linarith

private theorem line_fits (above : config.b < single x) (below : single x < config.minDiffStart) :
    (minDiff = 0 ∨ (minDiff.toNat : ℚ) - 1 / 2 ≤ linearValue .single config (single x)) ∧
      linearValue .single config (single x) < maxDiff.toNat + 1 / 2 := by
  have byte := Nat.le_of_lt_succ maxDiff.toNat_lt
  have ordered := UInt8.le_iff_toNat_le.mp built.ordered
  have falls := rate_nonneg built
  have start := b_nonneg built
  have reach : -config.precomputeBigA * single x < 2 ^ 23 - 2 ^ 9 :=
    (mul_le_mul_of_nonneg_left (balance_le built below) falls).trans_lt (rate_reach built narrow)
  have fallen : ((maxDiff.toNat - minDiff.toNat : ℕ) : ℚ) = fall maxDiff minDiff :=
    Nat.cast_sub ordered
  rw [linearValue_eq built]
  constructor
  · rcases Nat.eq_zero_or_pos minDiff.toNat with zero | pos
    · exact .inl (UInt8.toNat_inj.mp zero)
    right
    have ends : -config.precomputeBigA * (single x - config.b) ≤
        ((maxDiff.toNat - minDiff.toNat : ℕ) : ℚ) + 1 / 16 := by
      have width : single x - config.b ≤ lqProduct .single perClaim bigL := by
        linarith [balance_le built below]
      have small : fall maxDiff minDiff ≤ 255 := by
        rw [← fallen]
        exact_mod_cast (by omega : maxDiff.toNat - minDiff.toNat ≤ 255)
      rw [fallen]
      linarith [mul_le_mul_of_nonneg_left width falls, rate_le built]
    have low := line_low falls start above.le byte reach (by omega) ends
    have bottom : (minDiff.toNat : ℚ) - 1 / 2 = ((2 * minDiff.toNat - 1 : ℕ) : ℚ) / 2 ^ 1 := by
      rw [Nat.cast_sub (by omega)]
      push_cast
      ring
    rw [fallen, fall, sub_sub_cancel, bottom] at low
    rw [bottom, ← single_fraction 1 (by omega)]
    exact single_mono low
  · have high := line_high falls start above.le byte reach
    have roof : (maxDiff.toNat : ℚ) + 1 / 4 = ((4 * maxDiff.toNat + 1 : ℕ) : ℚ) / 2 ^ 2 := by
      push_cast
      ring
    rw [roof] at high
    have rounded := single_mono high
    rw [single_fraction 2 (by omega), ← roof] at rounded
    linarith

private theorem thresholds_apart (falls : 1 ≤ fall maxDiff minDiff) :
    config.b < config.minDiffStart := by
  have start := b_nonneg built
  have pos := built.lq_pos
  rw [minDiffStart_eq built]
  generalize lqProduct .single perClaim bigL = width at *
  have sum := add_nonneg start pos.le
  have rounded := single_between sum
  have whole := le_mul_of_one_le_left sum falls
  linarith

private theorem fits_of_narrow : Fits .single maxDiff minDiff config := by
  rcases eq_or_ne maxDiff minDiff with same | differ
  · exact .inl same
  have falls : 1 ≤ fall maxDiff minDiff := by
    have ordered := UInt8.le_iff_toNat_le.mp built.ordered
    have apart : minDiff.toNat ≠ maxDiff.toNat := fun same => differ (UInt8.toNat_inj.mp same.symm)
    have step : minDiff.toNat + 1 ≤ maxDiff.toNat := by omega
    have step' : (minDiff.toNat : ℚ) + 1 ≤ maxDiff.toNat := by exact_mod_cast step
    unfold fall
    linarith
  refine .inr ⟨thresholds_apart built narrow falls, ?_, ?_⟩
  · rintro x ⟨⟨_, above, below⟩, _⟩
    exact .inr (line_fits built narrow above below).2
  · rintro x ⟨⟨_, above, below⟩, _⟩
    exact (line_fits built narrow above below).1

end

private theorem lqProduct_near :
    bigL * perClaim * (1 - 1 / 2 ^ 23) ≤ lqProduct .single perClaim bigL ∧
      lqProduct .single perClaim bigL ≤ bigL * perClaim * (1 + 1 / 2 ^ 22) := by
  have amount := single_between (Nat.cast_nonneg perClaim)
  have nonneg : 0 ≤ bigL * single perClaim :=
    mul_nonneg built.bigL_pos.le (Arithmetic.round_nonneg (Nat.cast_nonneg _))
  have product := single_between nonneg
  have low := mul_le_mul_of_nonneg_left amount.1 built.bigL_pos.le
  have high := mul_le_mul_of_nonneg_left amount.2 built.bigL_pos.le
  have width : 0 ≤ bigL * perClaim := mul_nonneg built.bigL_pos.le (Nat.cast_nonneg _)
  change _ ≤ single (bigL * single perClaim) ∧ single (bigL * single perClaim) ≤ _
  constructor <;> linarith

private theorem b_near :
    minBalance * (1 - 1 / 2 ^ 24) ≤ config.b ∧ config.b ≤ minBalance * (1 + 1 / 2 ^ 24) := by
  have nonneg : (0 : ℚ) ≤ minBalance := Nat.cast_nonneg _
  have rounded := single_between nonneg
  have b_eq : config.b = single minBalance := built.b_eq
  rw [b_eq]
  constructor <;> linarith

private theorem narrow_of_inputs (near : fall maxDiff minDiff * (minBalance + bigL * perClaim) ≤
      8 * 10 ^ 6 * (bigL * perClaim)) :
    fall maxDiff minDiff * (config.b + lqProduct .single perClaim bigL) ≤
      (2 ^ 23 - 2 ^ 10) * lqProduct .single perClaim bigL := by
  have falls := fall_nonneg built
  obtain ⟨low, high⟩ := lqProduct_near built
  have start := (b_near built).2
  have nonneg : (0 : ℚ) ≤ minBalance := Nat.cast_nonneg _
  have width : 0 ≤ bigL * perClaim := mul_nonneg built.bigL_pos.le (Nat.cast_nonneg _)
  calc fall maxDiff minDiff * (config.b + lqProduct .single perClaim bigL)
    _ ≤ fall maxDiff minDiff * ((minBalance + bigL * perClaim) * (1 + 1 / 2 ^ 22)) :=
        mul_le_mul_of_nonneg_left (by linarith) falls
    _ ≤ 8 * 10 ^ 6 * (bigL * perClaim) * (1 + 1 / 2 ^ 22) := by
        rw [← mul_assoc]
        exact mul_le_mul_of_nonneg_right near (by norm_num)
    _ ≤ (2 ^ 23 - 2 ^ 10) * lqProduct .single perClaim bigL := by linarith

/-- A width that is lost in the sum makes the thresholds meet. -/
theorem thresholds_meet (far : 2 ^ 26 * (bigL * perClaim) ≤ minBalance) :
    config.minDiffStart = config.b := by
  have width := built.lq_pos
  have lost := (lqProduct_near built).2
  have start := (b_near built).1
  have amount : 0 < bigL * perClaim :=
    mul_pos built.bigL_pos (by exact_mod_cast built.perClaim_pos)
  have pos : 0 < config.b := by linarith
  have float : roundTo 24 config.b = config.b := by
    rw [built.b_eq]
    exact roundTo_roundTo (by decide) (Nat.cast_nonneg _)
  have unit : config.b < ulp 24 config.b * 2 ^ 24 := lt_ulp_mul config.b
  rw [minDiffStart_eq built]
  exact roundTo_add_of_lost (by decide) float pos width.le (by linarith)

end

/-- An accepted configuration keeps its guarantees in single precision if its upper threshold,
multiplied by the difference of its difficulties, is at most eight million times the width between
its thresholds. -/
theorem guarantees_of_near_thresholds
    (accepted : DifficultyConfig.new .single maxDiff minDiff minBalance perClaim (.finite bigL) =
      .ok config)
    (near : fall maxDiff minDiff * (minBalance + bigL * perClaim) ≤
      8 * 10 ^ 6 * (bigL * perClaim)) : Guarantees .single maxDiff minDiff minBalance config := by
  obtain ⟨_, same, built⟩ := new_ok accepted
  cases same
  exact (guarantees_iff_fits accepted).mpr (fits_of_narrow built (narrow_of_inputs built near))

/-- The configuration of `test_calculate_difficulty_with_min_balance`. -/
theorem guarantees_of_near_thresholds_nonvacuous :
    ∃ config, DifficultyConfig.new .single 255 20 5000 10000 (.finite 10) = .ok config ∧
      Guarantees .single 255 20 5000 config := by
  have accepted : DifficultyConfig.new .single 255 20 5000 10000 (.finite 10) =
      .ok ⟨255, 20, 5000, 105000, -10093173 / 2 ^ 32, 1067 / 4⟩ := by decide +kernel
  exact ⟨_, accepted, guarantees_of_near_thresholds accepted (by decide +kernel)⟩

/-- With about twice that bound the line of an accepted configuration leaves its difficulties. -/
theorem near_thresholds_bound :
    ¬ ∀ (maxDiff minDiff : UInt8) (minBalance perClaim : Amount) (bigL : ℚ)
      (config : DifficultyConfig),
      DifficultyConfig.new .single maxDiff minDiff minBalance perClaim (.finite bigL) =
        .ok config →
      fall maxDiff minDiff * (minBalance + bigL * perClaim) ≤ 2 ^ 24 * (bigL * perClaim) →
      Guarantees .single maxDiff minDiff minBalance config := by
  intro general
  have accepted : DifficultyConfig.new .single 254 146 474815016 1000
      (.finite (6410067 / 2 ^ 21)) =
      .ok ⟨254, 146, 474815008, 474818080, -9484861 / 2 ^ 28, 16777300⟩ := by decide +kernel
  have guaranteed := general 254 146 474815016 1000 _ _ accepted (by decide +kernel)
  -- the line ends at 145, below the least difficulty
  exact absurd (guaranteed.bounded 474818048 (by decide)).1 (by decide +kernel)

/-- Accepted thresholds that are too near for their size meet, and no guarantee is left of the
greatest difficulty. -/
theorem guarantees_lost_of_far_thresholds
    (accepted : DifficultyConfig.new .single maxDiff minDiff minBalance perClaim (.finite bigL) =
      .ok config)
    (falls : minDiff < maxDiff) (far : 2 ^ 26 * (bigL * perClaim) ≤ minBalance) :
    ¬ Guarantees .single maxDiff minDiff minBalance config := by
  obtain ⟨_, same, built⟩ := new_ok accepted
  cases same
  intro guaranteed
  rcases (guarantees_iff_fits accepted).mp guaranteed with equal | ⟨apart, _⟩
  · exact absurd equal (UInt8.ne_of_lt falls).symm
  · exact absurd apart (thresholds_meet built far).not_gt

end FaucetApi.Difficulty.Precision
