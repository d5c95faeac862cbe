/- module: FaucetApi/Lib/Floating
   layer: library
   digest: Floating-point values as rationals, their casts to integers, rounding to nearest even. -/

import Mathlib.Data.Int.Log
import Mathlib.Data.Rat.Floor
import Mathlib.Tactic.FieldSimp
import Mathlib.Tactic.Linarith
import Mathlib.Tactic.Positivity
import Mathlib.Tactic.Ring

set_option autoImplicit false
set_option relaxedAutoImplicit false

namespace FaucetApi.Lib.Floating

/-- The value of a floating-point number. A zero has no sign here. -/
inductive FloatValue where
  | nan
  | infinite (negative : Bool)
  | finite (value : ℚ)
  deriving DecidableEq

/-- The comparison with zero, which is false of a NaN. -/
def FloatValue.nonpos : FloatValue → Bool
  | .nan => false
  | .infinite negative => negative
  | .finite value => value ≤ 0

/-- The cast to an unsigned integer below `bound`, which truncates and saturates. -/
def FloatValue.toUnsigned (bound : ℕ) : FloatValue → ℕ
  | .nan => 0
  | .infinite true => 0
  | .infinite false => bound - 1
  | .finite value => min ⌊value⌋₊ (bound - 1)

/-- The nearest integer, and the even one of two that are equally near. -/
def nearestEven (v : ℚ) : ℤ :=
  if v - ⌊v⌋ < 1 / 2 then ⌊v⌋ else if 1 / 2 < v - ⌊v⌋ then ⌊v⌋ + 1 else ⌊v⌋ + ⌊v⌋ % 2

/-- The nearest integer, and the one further from zero of two that are equally near. -/
def nearestAway (v : ℚ) : ℤ :=
  if v < 0 then -⌊-v + 1 / 2⌋ else ⌊v + 1 / 2⌋

/-- The distance between neighbouring floats of `p` significant bits near `v`. -/
def ulp (p : ℕ) (v : ℚ) : ℚ := 2 ^ (Int.log 2 v + 1 - p)

/-- The nearest float of `p` significant bits, for a value that is not negative. -/
def roundUnsigned (p : ℕ) (v : ℚ) : ℚ := nearestEven (v / ulp p v) * ulp p v

/-- The nearest float of `p` significant bits. The exponent has no bounds. -/
def roundTo (p : ℕ) (v : ℚ) : ℚ :=
  if v < 0 then -roundUnsigned p (-v) else roundUnsigned p v

variable {p : ℕ} {v w : ℚ}

theorem abs_nearestEven_sub_le (v : ℚ) : |nearestEven v - v| ≤ 1 / 2 := by
  have low := Int.floor_le v
  have high := Int.lt_floor_add_one v
  unfold nearestEven
  rw [abs_le]
  split_ifs with below above
  · constructor <;> linarith
  · push_cast
    constructor <;> linarith
  · have tie : v - ⌊v⌋ = 1 / 2 := le_antisymm (not_lt.mp above) (not_lt.mp below)
    rcases Int.emod_two_eq_zero_or_one ⌊v⌋ with parity | parity <;> rw [parity] <;> push_cast <;>
      constructor <;> linarith

theorem nearestEven_intCast (n : ℤ) : nearestEven n = n := by
  simp [nearestEven]

theorem nearestEven_add_of_lt {n : ℤ} (nonneg : 0 ≤ w) (small : w < 1 / 2) :
    nearestEven (n + w) = n := by
  have floor : ⌊(n : ℚ) + w⌋ = n := by
    rw [Int.floor_eq_iff]
    constructor <;> linarith
  unfold nearestEven
  rw [floor, if_pos (by linarith)]

theorem nearestEven_mono (le : v ≤ w) : nearestEven v ≤ nearestEven w := by
  have first := abs_le.mp (abs_nearestEven_sub_le v)
  have second := abs_le.mp (abs_nearestEven_sub_le w)
  rcases le.eq_or_lt with rfl | lt
  · exact le_rfl
  -- two integers that are half a unit from `v` and `w` cannot be in the wrong order
  by_contra swapped
  have apart : (nearestEven w : ℚ) + 1 ≤ nearestEven v := by exact_mod_cast not_le.mp swapped
  linarith

theorem ulp_pos (p : ℕ) (v : ℚ) : 0 < ulp p v := zpow_pos two_pos _

private theorem two_zpow_log_le (pos : 0 < v) : (2 : ℚ) ^ Int.log 2 v ≤ v := by
  exact_mod_cast Int.zpow_log_le_self (b := 2) Nat.one_lt_two pos

private theorem lt_two_zpow_log (v : ℚ) : v < (2 : ℚ) ^ (Int.log 2 v + 1) := by
  exact_mod_cast Int.lt_zpow_succ_log_self (b := 2) Nat.one_lt_two v

theorem lt_ulp_mul (v : ℚ) : v < ulp p v * 2 ^ p := by
  have power : ulp p v * 2 ^ p = 2 ^ (Int.log 2 v + 1) := by
    unfold ulp
    rw [← zpow_natCast, ← zpow_add₀ two_ne_zero, sub_add_cancel]
  exact (lt_two_zpow_log v).trans_eq power.symm

private theorem two_zpow_eq (k : ℤ) (v : ℚ) (fits : Int.log 2 v + 1 - p ≤ k) :
    ∃ n : ℕ, (2 : ℚ) ^ k = (2 ^ n : ℕ) * ulp p v := by
  obtain ⟨n, gap⟩ := Int.eq_ofNat_of_zero_le (sub_nonneg.mpr fits)
  refine ⟨n, ?_⟩
  unfold ulp
  rw [Nat.cast_pow, Nat.cast_ofNat, ← zpow_natCast, ← zpow_add₀ two_ne_zero]
  congr 1
  omega

theorem abs_roundUnsigned_sub_le (v : ℚ) : |roundUnsigned p v - v| ≤ ulp p v / 2 := by
  have unit := ulp_pos p v
  have near := abs_nearestEven_sub_le (v / ulp p v)
  have scaled : roundUnsigned p v - v = (nearestEven (v / ulp p v) - v / ulp p v) * ulp p v := by
    rw [sub_mul, div_mul_cancel₀ _ unit.ne']
    rfl
  rw [scaled, abs_mul, abs_of_pos unit]
  linarith [mul_le_mul_of_nonneg_right near unit.le]

private theorem roundUnsigned_of_multiple {n : ℤ} (whole : v = n * ulp p v) :
    roundUnsigned p v = v := by
  have count : v / ulp p v = n := by
    rw [div_eq_iff (ulp_pos p v).ne']
    exact whole
  unfold roundUnsigned
  rw [count, nearestEven_intCast]
  exact whole.symm

theorem le_roundUnsigned {n : ℤ} (le : n * ulp p v ≤ v) : n * ulp p v ≤ roundUnsigned p v := by
  have count : (n : ℚ) ≤ v / ulp p v := (le_div_iff₀ (ulp_pos p v)).mpr le
  have rounded := nearestEven_mono count
  rw [nearestEven_intCast] at rounded
  exact mul_le_mul_of_nonneg_right (by exact_mod_cast rounded) (ulp_pos p v).le

theorem roundUnsigned_le {n : ℤ} (le : v ≤ n * ulp p v) : roundUnsigned p v ≤ n * ulp p v := by
  have count : v / ulp p v ≤ n := (div_le_iff₀ (ulp_pos p v)).mpr le
  have rounded := nearestEven_mono count
  rw [nearestEven_intCast] at rounded
  exact mul_le_mul_of_nonneg_right (by exact_mod_cast rounded) (ulp_pos p v).le

private theorem two_zpow_log_le_roundUnsigned (digits : 0 < p) (pos : 0 < v) :
    (2 : ℚ) ^ Int.log 2 v ≤ roundUnsigned p v := by
  obtain ⟨n, whole⟩ := two_zpow_eq (p := p) (Int.log 2 v) v (by omega)
  have below := two_zpow_log_le pos
  rw [whole] at below ⊢
  exact le_roundUnsigned (n := (2 ^ n : ℕ)) (by exact_mod_cast below)

private theorem roundUnsigned_le_two_zpow_log (v : ℚ) :
    roundUnsigned p v ≤ (2 : ℚ) ^ (Int.log 2 v + 1) := by
  obtain ⟨n, whole⟩ := two_zpow_eq (p := p) (Int.log 2 v + 1) v (by omega)
  have above := (lt_two_zpow_log v).le
  rw [whole] at above ⊢
  exact roundUnsigned_le (n := (2 ^ n : ℕ)) (by exact_mod_cast above)

theorem roundUnsigned_mono (digits : 0 < p) (pos : 0 < v) (le : v ≤ w) :
    roundUnsigned p v ≤ roundUnsigned p w := by
  rcases (Int.log_mono_right (b := 2) pos le).eq_or_lt with same | apart
  · have unit : ulp p v = ulp p w := by rw [ulp, ulp, same]
    have count : v / ulp p w ≤ w / ulp p w := div_le_div_of_nonneg_right le (ulp_pos p w).le
    unfold roundUnsigned
    rw [unit]
    exact mul_le_mul_of_nonneg_right (by exact_mod_cast nearestEven_mono count) (ulp_pos p w).le
  -- a power of two lies between them
  · calc roundUnsigned p v ≤ (2 : ℚ) ^ (Int.log 2 v + 1) := roundUnsigned_le_two_zpow_log v
      _ ≤ (2 : ℚ) ^ Int.log 2 w := zpow_le_zpow_right₀ one_le_two apart
      _ ≤ roundUnsigned p w := two_zpow_log_le_roundUnsigned digits (pos.trans_le le)

theorem roundTo_zero : roundTo p 0 = 0 := by
  simp [roundTo, roundUnsigned, nearestEven]

theorem roundTo_of_pos (pos : 0 < v) : roundTo p v = roundUnsigned p v := if_neg pos.le.not_gt

theorem roundTo_of_neg (neg : v < 0) : roundTo p v = -roundUnsigned p (-v) := if_pos neg

theorem roundTo_neg (v : ℚ) : roundTo p (-v) = -roundTo p v := by
  rcases lt_trichotomy v 0 with neg | rfl | pos
  · rw [roundTo_of_neg neg, roundTo_of_pos (neg_pos.mpr neg), neg_neg]
  · rw [neg_zero, roundTo_zero, neg_zero]
  · rw [roundTo_of_pos pos, roundTo_of_neg (neg_lt_zero.mpr pos), neg_neg]

theorem roundTo_nonneg (digits : 0 < p) (nonneg : 0 ≤ v) : 0 ≤ roundTo p v := by
  rcases nonneg.eq_or_lt with rfl | pos
  · exact roundTo_zero.ge
  · rw [roundTo_of_pos pos]
    exact (zpow_pos two_pos _).le.trans (two_zpow_log_le_roundUnsigned digits pos)

theorem roundTo_mono (digits : 0 < p) : Monotone (roundTo p) := by
  intro v w le
  rcases lt_or_ge 0 v with pos | notPos
  · rw [roundTo_of_pos pos, roundTo_of_pos (pos.trans_le le)]
    exact roundUnsigned_mono digits pos le
  · have below : roundTo p v ≤ 0 := by
      have flipped := roundTo_nonneg digits (neg_nonneg.mpr notPos)
      rw [roundTo_neg] at flipped
      linarith
    rcases lt_or_ge w 0 with neg | nonneg
    · rw [roundTo_of_neg neg, roundTo_of_neg (le.trans_lt neg)]
      exact neg_le_neg (roundUnsigned_mono digits (neg_pos.mpr neg) (neg_le_neg le))
    · exact below.trans (roundTo_nonneg digits nonneg)

/-- What `p` significant bits can write is a float. -/
theorem roundTo_natCast_mul_zpow {n : ℕ} (k : ℤ) (fits : n < 2 ^ p) :
    roundTo p (n * 2 ^ k) = n * 2 ^ k := by
  rcases n.eq_zero_or_pos with rfl | some
  · simp [roundTo_zero]
  have pos : (0 : ℚ) < n * 2 ^ k := mul_pos (by exact_mod_cast some) (zpow_pos two_pos k)
  have small : Int.log 2 ((n : ℚ) * 2 ^ k) < p + k := by
    refine (Int.lt_zpow_iff_log_lt (b := 2) Nat.one_lt_two pos).mp ?_
    rw [Nat.cast_ofNat, zpow_add₀ two_ne_zero, zpow_natCast]
    exact mul_lt_mul_of_pos_right (by exact_mod_cast fits) (zpow_pos two_pos k)
  obtain ⟨j, whole⟩ := two_zpow_eq (p := p) k ((n : ℚ) * 2 ^ k) (by omega)
  rw [roundTo_of_pos pos]
  refine roundUnsigned_of_multiple (n := n * 2 ^ j) ?_
  conv_lhs => rw [whole]
  push_cast
  ring

theorem roundTo_intCast {n : ℤ} (fits : n.natAbs < 2 ^ p) : roundTo p n = n := by
  have unsigned : ∀ m : ℕ, m < 2 ^ p → roundTo p m = m := by
    intro m fits'
    simpa using roundTo_natCast_mul_zpow 0 fits'
  obtain ⟨m, rfl | rfl⟩ := n.eq_nat_or_neg
  · rw [Int.cast_natCast]
    exact unsigned m (by simpa using fits)
  · rw [Int.cast_neg, Int.cast_natCast, roundTo_neg, unsigned m (by simpa using fits)]

theorem abs_roundTo_sub_le (v : ℚ) : |roundTo p v - v| ≤ |v| / 2 ^ p := by
  have unsigned : ∀ w : ℚ, 0 < w → |roundUnsigned p w - w| ≤ w / 2 ^ p := by
    intro w pos
    have half : ulp p w / 2 = 2 ^ Int.log 2 w / 2 ^ p := by
      unfold ulp
      rw [zpow_sub₀ two_ne_zero, zpow_add₀ two_ne_zero, zpow_natCast, zpow_one]
      ring
    calc |roundUnsigned p w - w| ≤ ulp p w / 2 := abs_roundUnsigned_sub_le w
      _ = 2 ^ Int.log 2 w / 2 ^ p := half
      _ ≤ w / 2 ^ p := div_le_div_of_nonneg_right (two_zpow_log_le pos) (pow_pos two_pos p).le
  rcases lt_trichotomy v 0 with neg | rfl | pos
  · have flipped := unsigned (-v) (neg_pos.mpr neg)
    rw [roundTo_of_neg neg, abs_of_neg neg, ← abs_neg]
    convert flipped using 2
    ring
  · simp [roundTo_zero]
  · rw [roundTo_of_pos pos, abs_of_pos pos]
    exact unsigned v pos

theorem abs_roundTo_sub_le_of_lt {k : ℤ} (nonneg : 0 ≤ v) (small : v < 2 ^ k) :
    |roundTo p v - v| ≤ 2 ^ (k - p) / 2 := by
  rcases nonneg.eq_or_lt with rfl | pos
  · rw [roundTo_zero, sub_self, abs_zero]
    exact div_nonneg (zpow_pos two_pos _).le two_pos.le
  have exponent : Int.log 2 v < k :=
    (Int.lt_zpow_iff_log_lt (b := 2) Nat.one_lt_two pos).mp (by exact_mod_cast small)
  rw [roundTo_of_pos pos]
  calc |roundUnsigned p v - v| ≤ ulp p v / 2 := abs_roundUnsigned_sub_le v
    _ ≤ 2 ^ (k - p) / 2 := by
      have unit : ulp p v ≤ 2 ^ (k - p) := zpow_le_zpow_right₀ one_le_two (by omega)
      linarith

theorem roundTo_multiple {k : ℤ} (large : 2 ^ k ≤ v) :
    ∃ n : ℤ, roundTo p v = n * 2 ^ (k + 1 - p) := by
  have pos : 0 < v := (zpow_pos two_pos k).trans_le large
  have exponent : k ≤ Int.log 2 v :=
    (Int.zpow_le_iff_le_log (b := 2) Nat.one_lt_two pos).mp (by exact_mod_cast large)
  obtain ⟨n, gap⟩ := Int.eq_ofNat_of_zero_le (sub_nonneg.mpr exponent)
  have unit : ulp p v = 2 ^ n * 2 ^ (k + 1 - p) := by
    unfold ulp
    rw [← zpow_natCast, ← zpow_add₀ two_ne_zero]
    congr 1
    omega
  refine ⟨nearestEven (v / ulp p v) * 2 ^ n, ?_⟩
  rw [roundTo_of_pos pos]
  unfold roundUnsigned
  rw [unit]
  push_cast
  ring

theorem roundTo_two_zpow (digits : 0 < p) (k : ℤ) : roundTo p (2 ^ k) = 2 ^ k := by
  simpa using roundTo_natCast_mul_zpow (p := p) (n := 1) k (Nat.one_lt_two_pow digits.ne')

theorem roundTo_roundTo (digits : 0 < p) (nonneg : 0 ≤ v) :
    roundTo p (roundTo p v) = roundTo p v := by
  rcases nonneg.eq_or_lt with rfl | pos
  · rw [roundTo_zero, roundTo_zero]
  have low := two_zpow_log_le_roundUnsigned digits pos
  rw [roundTo_of_pos pos]
  rcases (roundUnsigned_le_two_zpow_log (p := p) v).eq_or_lt with power | below
  · rw [power, roundTo_two_zpow digits]
  · have same : Int.log 2 (roundUnsigned p v) = Int.log 2 v := by
      have positive := (zpow_pos two_pos _).trans_le low
      refine le_antisymm (Int.lt_add_one_iff.mp ?_) ?_
      · exact (Int.lt_zpow_iff_log_lt (b := 2) Nat.one_lt_two positive).mp (by exact_mod_cast below)
      · exact (Int.zpow_le_iff_le_log (b := 2) Nat.one_lt_two positive).mp (by exact_mod_cast low)
    have unit : ulp p (roundUnsigned p v) = ulp p v := by rw [ulp, ulp, same]
    rw [roundTo_of_pos ((zpow_pos two_pos _).trans_le low)]
    refine roundUnsigned_of_multiple (n := nearestEven (v / ulp p v)) ?_
    rw [unit]
    rfl

/-- Less than half a unit in the last place of a float is lost when it is added. -/
theorem roundTo_add_of_lost (digits : 0 < p) (float : roundTo p v = v) (pos : 0 < v)
    (nonneg : 0 ≤ w) (lost : w < ulp p v / 2) : roundTo p (v + w) = v := by
  have unit := ulp_pos p v
  have whole : nearestEven (v / ulp p v) * ulp p v = v := by rwa [roundTo_of_pos pos] at float
  -- the next float after `v` is not beyond the next power of two
  have room : v + ulp p v ≤ 2 ^ (Int.log 2 v + 1) := by
    obtain ⟨n, power⟩ := two_zpow_eq (p := p) (Int.log 2 v + 1) v (by omega)
    have below := whole.trans_lt ((lt_two_zpow_log v).trans_eq power)
    rw [power]
    have count : nearestEven (v / ulp p v) < (2 ^ n : ℕ) := by
      exact_mod_cast lt_of_mul_lt_mul_right below unit.le
    have next : (nearestEven (v / ulp p v) : ℚ) + 1 ≤ (2 ^ n : ℕ) := by
      exact_mod_cast Int.add_one_le_iff.mpr count
    calc v + ulp p v = (nearestEven (v / ulp p v) + 1) * ulp p v := by rw [add_mul, one_mul, whole]
      _ ≤ (2 ^ n : ℕ) * ulp p v := mul_le_mul_of_nonneg_right next unit.le
  have same : Int.log 2 (v + w) = Int.log 2 v := by
    have sum : 0 < v + w := by linarith
    refine le_antisymm (Int.lt_add_one_iff.mp ?_) (Int.log_mono_right pos (by linarith))
    refine (Int.lt_zpow_iff_log_lt (b := 2) Nat.one_lt_two sum).mp ?_
    exact_mod_cast (by linarith : v + w < 2 ^ (Int.log 2 v + 1))
  have unit' : ulp p (v + w) = ulp p v := by rw [ulp, ulp, same]
  have part : w / ulp p v < 1 / 2 := by
    rw [div_lt_iff₀ unit]
    linarith
  have count : nearestEven ((v + w) / ulp p v) = nearestEven (v / ulp p v) := by
    have sum : (v + w) / ulp p v = nearestEven (v / ulp p v) + w / ulp p v := by
      rw [add_div]
      congr 1
      rw [div_eq_iff unit.ne', whole]
    rw [sum, nearestEven_add_of_lt (div_nonneg nonneg unit.le) part]
  rw [roundTo_of_pos (by linarith)]
  unfold roundUnsigned
  rw [unit', count, whole]

theorem nearestAway_of_nonneg (nonneg : 0 ≤ v) : nearestAway v = ⌊v + 1 / 2⌋ :=
  if_neg nonneg.not_gt

theorem nearestAway_intCast (n : ℤ) : nearestAway n = n := by
  have half : ∀ m : ℤ, ⌊(m : ℚ) + 1 / 2⌋ = m := by
    intro m
    rw [Int.floor_eq_iff]
    constructor <;> linarith
  unfold nearestAway
  split_ifs
  · rw [← Int.cast_neg, half, neg_neg]
  · exact half n

theorem nearestAway_mono (le : v ≤ w) : nearestAway v ≤ nearestAway w := by
  unfold nearestAway
  split_ifs with neg neg' neg'
  · exact neg_le_neg (Int.floor_mono (by linarith))
  · have below : 0 ≤ ⌊-v + 1 / 2⌋ := Int.floor_nonneg.mpr (by linarith)
    have above : 0 ≤ ⌊w + 1 / 2⌋ := Int.floor_nonneg.mpr (by linarith)
    omega
  · exact absurd (le.trans_lt neg') neg
  · exact Int.floor_mono (by linarith)

/-- How operations are rounded. Rounding keeps the order and the integers of 24 bits. -/
structure Arithmetic where
  round : ℚ → ℚ
  isFinite : ℚ → Bool
  mono : Monotone round
  round_intCast : ∀ n : ℤ, n.natAbs < 2 ^ 24 → round n = n

def Arithmetic.exact : Arithmetic where
  round := id
  isFinite := fun _ => true
  mono := monotone_id
  round_intCast := fun _ _ => rfl

def Arithmetic.single : Arithmetic where
  round := roundTo 24
  isFinite := fun v => |v| < 2 ^ 128
  mono := roundTo_mono (by decide)
  round_intCast := fun _ fits => roundTo_intCast fits

variable {ar : Arithmetic}

theorem Arithmetic.round_zero : ar.round 0 = 0 := by
  exact_mod_cast ar.round_intCast 0 (by decide)

theorem Arithmetic.round_nonneg (nonneg : 0 ≤ v) : 0 ≤ ar.round v := by
  rw [← ar.round_zero]
  exact ar.mono nonneg

theorem Arithmetic.round_nonpos (nonpos : v ≤ 0) : ar.round v ≤ 0 := by
  rw [← ar.round_zero]
  exact ar.mono nonpos

end FaucetApi.Lib.Floating
