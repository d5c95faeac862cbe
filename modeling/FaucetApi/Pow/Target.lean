/- module: FaucetApi/Pow/Target
   layer: results
   digest: The count of leading zeros against the digest as a number, and where it overflows. -/

import FaucetApi.Lib.BigEndian
import FaucetApi.Pow.Hash
import Mathlib.Data.Nat.Size

set_option autoImplicit false
set_option relaxedAutoImplicit false

namespace FaucetApi.Pow.Target

open FaucetApi.Lib.BigEndian
open FaucetApi.Pow.Hash

/-- `u8::checked_add`. -/
def checkedAdd (n k : UInt8) : Option UInt8 :=
  if n.toNat + k.toNat < 256 then some (n + k) else none

/-- The loop of `count_leading_zeros` where an overflow panics (`none`), as in the debug profile. -/
def countCheckedFrom (leadingZeros : UInt8) : List UInt8 → Option UInt8
  | [] => some leadingZeros
  | byte :: data =>
      if byte = 0 then (checkedAdd leadingZeros 8).bind fun next => countCheckedFrom next data
      else checkedAdd leadingZeros (byteLeadingZeros byte)

/-- The count of a digest does not overflow, it is the number of leading zero bits up to 255, and
the test of `check_solution` asks whether the digest is below a power of two. -/
structure Exact (digest : Digest) : Prop where
  noOverflow : countCheckedFrom 0 digest.toList = some (countLeadingZeros digest.toList)
  count : (countLeadingZeros digest.toList).toNat = min (leadingZeroBits digest.toList) 255
  test : ∀ difficulty : UInt8, countLeadingZeros digest.toList ≥ difficulty ↔
    value digest.toList < 2 ^ (256 - difficulty.toNat)

/-! The zero bits in front of a number are those that its digits leave over. -/

private theorem size_append {high low k : ℕ} (pos : 0 < high) (fits : low < 2 ^ k) :
    (high * 2 ^ k + low).size = high.size + k := by
  apply le_antisymm
  · rw [Nat.size_le, pow_add]
    have room : high + 1 ≤ 2 ^ high.size := Nat.lt_size_self high
    calc high * 2 ^ k + low < (high + 1) * 2 ^ k := by rw [Nat.add_mul]; omega
      _ ≤ 2 ^ high.size * 2 ^ k := Nat.mul_le_mul_right _ room
  · have digits : 0 < high.size := Nat.size_pos.mpr pos
    have top : 2 ^ (high.size - 1) ≤ high := Nat.lt_size.mp (by omega)
    have reached : high.size - 1 + k < (high * 2 ^ k + low).size := by
      rw [Nat.lt_size, pow_add]
      exact (Nat.mul_le_mul_right _ top).trans (Nat.le_add_right _ _)
    omega

private theorem byteLeadingZeros_add_size {byte : UInt8} (nonzero : byte ≠ 0) :
    (byteLeadingZeros byte).toNat + byte.toNat.size = 8 := by
  revert byte
  apply forall_byte
  decide +kernel

theorem leadingZeroBits_add_size (data : List UInt8) :
    leadingZeroBits data + (value data).size = 8 * data.length := by
  induction data with
  | nil => simp [leadingZeroBits]
  | cons byte data ih =>
      rw [value_cons, List.length_cons]
      by_cases zero : byte = 0
      · subst zero
        rw [leadingZeroBits_zero_cons, UInt8.toNat_zero, Nat.zero_mul, Nat.zero_add]
        omega
      · have low := value_lt data
        have power : 256 ^ data.length = 2 ^ (8 * data.length) := by
          rw [pow_mul]
          norm_num
        have pos : 0 < byte.toNat :=
          Nat.pos_of_ne_zero fun none => zero (UInt8.toNat_inj.mp none)
        have whole := byteLeadingZeros_add_size zero
        rw [power] at low ⊢
        rw [leadingZeroBits_cons zero, size_append pos low]
        omega

theorem le_leadingZeroBits (data : List UInt8) {zeros : ℕ} (le : zeros ≤ 8 * data.length) :
    zeros ≤ leadingZeroBits data ↔ value data < 2 ^ (8 * data.length - zeros) := by
  have whole := leadingZeroBits_add_size data
  rw [← Nat.size_le]
  omega

private theorem checkedAdd_eq {n k : UInt8} (fits : n.toNat + k.toNat < 256) :
    checkedAdd n k = some (n + k) := if_pos fits

private theorem checkedAdd_none {n k : UInt8} (overflows : 256 ≤ n.toNat + k.toNat) :
    checkedAdd n k = none := if_neg (Nat.not_lt.mpr overflows)

/-- The checked count succeeds exactly if the total is a `u8`, and is then the wrapping one. -/
theorem countCheckedFrom_eq (leadingZeros : UInt8) (data : List UInt8) :
    countCheckedFrom leadingZeros data =
      if leadingZeros.toNat + leadingZeroBits data < 256 then
        some (countLeadingZerosFrom leadingZeros data) else none := by
  induction data generalizing leadingZeros with
  | nil =>
      have small : leadingZeros.toNat < 256 := leadingZeros.toNat_lt
      exact (if_pos small).symm
  | cons byte data ih =>
      rw [countCheckedFrom, countLeadingZerosFrom]
      by_cases zero : byte = 0
      · subst zero
        rw [if_pos rfl, if_pos rfl, leadingZeroBits_zero_cons]
        rcases Nat.lt_or_ge (leadingZeros.toNat + 8) 256 with fits | overflows
        · have total : (leadingZeros + 8).toNat = leadingZeros.toNat + 8 := by
            rw [UInt8.toNat_add]
            exact Nat.mod_eq_of_lt fits
          rw [checkedAdd_eq fits, Option.bind_some, ih, total, Nat.add_assoc]
        · rw [checkedAdd_none overflows, Option.bind_none, if_neg (by omega)]
      · rw [if_neg zero, if_neg zero, leadingZeroBits_cons zero]
        rfl

theorem countChecked_eq_some (data : List UInt8) :
    countCheckedFrom 0 data = some (countLeadingZeros data) ↔ leadingZeroBits data < 256 := by
  rw [countCheckedFrom_eq, UInt8.toNat_zero, Nat.zero_add]
  split_ifs with fits
  · exact iff_of_true rfl fits
  · exact iff_of_false (by simp) fits

theorem leadingZeroBits_lt_iff (digest : Digest) :
    leadingZeroBits digest.toList < 256 ↔ digest ≠ Vector.replicate 32 0 := by
  have length : digest.toList.length = 32 := digest.length_toList
  have limit : 256 ≤ leadingZeroBits digest.toList ↔ value digest.toList < 1 := by
    simpa [length] using
      le_leadingZeroBits digest.toList (show 256 ≤ 8 * digest.toList.length by omega)
  rw [← Nat.not_le, not_iff_not, limit, Nat.lt_one_iff]
  constructor
  · intro none
    exact eq_toVector (v := 0) none
  · rintro rfl
    decide

theorem countLeadingZeros_of_nonzero {digest : Digest} (nonzero : digest ≠ Vector.replicate 32 0) :
    (countLeadingZeros digest.toList).toNat = leadingZeroBits digest.toList := by
  rw [countLeadingZeros_toNat, Nat.mod_eq_of_lt ((leadingZeroBits_lt_iff digest).mpr nonzero)]

/-- For every digest, the count is exact if and only if some byte is not zero. -/
theorem count_exact_iff (digest : Digest) : Exact digest ↔ digest ≠ Vector.replicate 32 0 := by
  constructor
  · intro exact
    exact (leadingZeroBits_lt_iff digest).mp ((countChecked_eq_some _).mp exact.noOverflow)
  · intro nonzero
    have short := (leadingZeroBits_lt_iff digest).mpr nonzero
    have count := countLeadingZeros_of_nonzero nonzero
    refine ⟨(countChecked_eq_some _).mpr short, ?_, fun difficulty => ?_⟩
    · rw [count]
      omega
    · have length : digest.toList.length = 32 := digest.length_toList
      have small := difficulty.toNat_lt
      have below := le_leadingZeroBits digest.toList
        (show difficulty.toNat ≤ 8 * digest.toList.length by omega)
      rw [ge_iff_le, UInt8.le_iff_toNat_le, count, below, length]

/-- Of 32 zero bytes the count overflows: it is 0, and the least digest of all passes the test for
no difficulty but zero. -/
theorem zero_digest_counts_none :
    ¬ Exact (Vector.replicate 32 0) ∧
      countCheckedFrom 0 (Vector.replicate 32 0).toList = none ∧
      countLeadingZeros (Vector.replicate 32 0).toList = 0 ∧
      leadingZeroBits (Vector.replicate 32 0).toList = 256 ∧
      value (Vector.replicate 32 0).toList < 2 ^ (256 - 1) ∧
      ¬ countLeadingZeros (Vector.replicate 32 0).toList ≥ 1 := by
  refine ⟨fun exact => ?_, by decide +kernel, by decide +kernel, by decide +kernel,
    by decide +kernel, by decide +kernel⟩
  have count := exact.count
  revert count
  decide +kernel

end FaucetApi.Pow.Target
