/- module: FaucetApi/Utils/Counters
   layer: results
   digest: The three counts of leading zeros, on every digest that does not consist of zeros. -/

import FaucetApi.Pow.Target
import FaucetApi.Utils.Solvers

set_option autoImplicit false
set_option relaxedAutoImplicit false

namespace FaucetApi.Utils.Counters

open FaucetApi.Pow.Hash
open FaucetApi.Pow.Target
open FaucetApi.Utils.Solvers

/-- The server and both solvers count the same, and a digest passes the test of a solver exactly
when it passes the server's. -/
structure CountersAgree (digest : Digest) : Prop where
  js : solverJs.countLeadingZeros digest.toList = (countLeadingZeros digest.toList).toNat
  py : solverPy.countLeadingZeros digest.toList = (countLeadingZeros digest.toList).toNat
  jsTest : ∀ difficulty : UInt8, difficulty.toNat ≤ solverJs.countLeadingZeros digest.toList ↔
    difficulty ≤ countLeadingZeros digest.toList
  pyTest : ∀ difficulty : UInt8, difficulty.toNat ≤ solverPy.countLeadingZeros digest.toList ↔
    difficulty ≤ countLeadingZeros digest.toList

def firstNonzero (data : List UInt8) : Option UInt8 := data.find? (· ≠ 0)

variable {data : List UInt8} {byte : UInt8}

private theorem leadingZeroBits_mod (found : firstNonzero data = some byte) :
    leadingZeroBits data % 8 = (byteLeadingZeros byte).toNat := by
  induction data with
  | nil => cases found
  | cons head data ih =>
      by_cases zero : head = 0
      · subst zero
        have tail : firstNonzero data = some byte := found
        rw [leadingZeroBits_zero_cons, Nat.add_mod_left, ih tail]
      · have here : firstNonzero (head :: data) = some head :=
          List.find?_cons_of_pos (decide_eq_true zero)
        obtain rfl : head = byte := Option.some.inj (here.symm.trans found)
        rw [leadingZeroBits_cons zero]
        exact Nat.mod_eq_of_lt (byteLeadingZeros_spec zero).2

private theorem firstNonzero_eq_none (none : firstNonzero data = none) :
    data = List.replicate data.length 0 := by
  rw [List.eq_replicate_iff]
  refine ⟨rfl, fun byte member => ?_⟩
  simpa using List.find?_eq_none.mp none byte member

private theorem exists_firstNonzero {digest : Digest} (nonzero : digest ≠ Vector.replicate 32 0) :
    ∃ byte, firstNonzero digest.toList = some byte := by
  cases first : firstNonzero digest.toList with
  | some byte => exact ⟨byte, rfl⟩
  | none =>
      have zeros := firstNonzero_eq_none first
      rw [digest.length_toList] at zeros
      exact (nonzero (Vector.toList_inj.mp zeros)).elim

private theorem two_zeros_iff (byte : UInt8) :
    (byteLeadingZeros byte).toNat = 2 ↔ 0x20 ≤ byte ∧ byte ≤ 0x3f := by
  revert byte
  apply forall_byte
  decide +kernel

/-- For every digest that does not consist of zeros, the three counts agree if and only if its first
byte that is not zero is one of `0x20` to `0x3f`. -/
theorem counters_agree_iff {digest : Digest} (nonzero : digest ≠ Vector.replicate 32 0) :
    CountersAgree digest ↔
      ∃ byte, firstNonzero digest.toList = some byte ∧ 0x20 ≤ byte ∧ byte ≤ 0x3f := by
  have short := (leadingZeroBits_lt_iff digest).mpr nonzero
  have server := countLeadingZeros_of_nonzero nonzero
  have js := js_countLeadingZeros digest.toList
  have py : solverPy.countLeadingZeros digest.toList =
      8 * (leadingZeroBits digest.toList / 8) + 2 := py_countLeadingZeros (by simpa using short)
  obtain ⟨byte, first⟩ := exists_firstNonzero nonzero
  have rest := leadingZeroBits_mod first
  have same_iff : solverPy.countLeadingZeros digest.toList = leadingZeroBits digest.toList ↔
      (byteLeadingZeros byte).toNat = 2 := by
    rw [py]
    omega
  constructor
  · intro agree
    have same := agree.py.trans server
    exact ⟨byte, first, (two_zeros_iff byte).mp (same_iff.mp same)⟩
  · rintro ⟨byte', first', range⟩
    obtain rfl : byte = byte' := Option.some.inj (first.symm.trans first')
    have same := same_iff.mpr ((two_zeros_iff byte).mpr range)
    refine ⟨js.trans server.symm, same.trans server.symm, fun difficulty => ?_,
      fun difficulty => ?_⟩
    · rw [js, UInt8.le_iff_toNat_le, server]
    · rw [same, UInt8.le_iff_toNat_le, server]

theorem counters_agree_iff_nonvacuous :
    CountersAgree (Vector.replicate 32 0x2f) ∧ ¬ CountersAgree (Vector.replicate 32 0x80) := by
  refine ⟨(counters_agree_iff (by decide)).mpr ⟨0x2f, by decide, by decide, by decide⟩,
    fun agree => ?_⟩
  obtain ⟨byte, first, low, high⟩ := (counters_agree_iff (by decide)).mp agree
  obtain rfl : 0x80 = byte := Option.some.inj first
  exact absurd high (by decide)

/-- Python counts two zeros before every byte. A digest that begins with `0x01` meets difficulty 7
everywhere but there, and one that begins with `0xff` meets difficulty 2 only there. -/
theorem python_counts_two :
    ¬ CountersAgree (Vector.replicate 32 0x01) ∧ ¬ CountersAgree (Vector.replicate 32 0xff) ∧
      solverPy.countLeadingZeros (Vector.replicate 32 0x01).toList = 2 ∧
      solverJs.countLeadingZeros (Vector.replicate 32 0x01).toList = 7 ∧
      countLeadingZeros (Vector.replicate 32 0x01).toList = 7 ∧
      solverPy.countLeadingZeros (Vector.replicate 32 0xff).toList = 2 ∧
      countLeadingZeros (Vector.replicate 32 0xff).toList = 0 := by
  refine ⟨fun agree => ?_, fun agree => ?_, by decide +kernel, by decide +kernel,
    by decide +kernel, by decide +kernel, by decide +kernel⟩
  · have counts := agree.py
    revert counts
    decide +kernel
  · have counts := agree.py
    revert counts
    decide +kernel

end FaucetApi.Utils.Counters
