/- module: FaucetApi/Pow/Hash
   layer: source model
   digest: The salted digest of a solution and the count of its leading zero bits. -/

import Mathlib.Data.List.TakeWhile

set_option autoImplicit false
set_option relaxedAutoImplicit false

namespace FaucetApi.Pow.Hash

abbrev Solution := Vector UInt8 8
abbrev Nonce := Vector UInt8 16
abbrev Digest := Vector UInt8 32

/-- SHA-256 is an arbitrary function to 32-byte digests. -/
abbrev Sha256 := List UInt8 → Digest

def asciiBytes (text : String) : List UInt8 := text.toList.map (fun c => c.toNat.toUInt8)

def salt : List UInt8 := asciiBytes "alpen faucet 2024"

def byteLeadingZeros (byte : UInt8) : UInt8 := if byte = 0 then 8 else 7 - byte.log2

/-- The loop of `count_leading_zeros`. The accumulator is a `u8`, whose additions wrap in the
release profile. -/
def countLeadingZerosFrom (leadingZeros : UInt8) : List UInt8 → UInt8
  | [] => leadingZeros
  | byte :: data =>
      if byte = 0 then countLeadingZerosFrom (leadingZeros + 8) data
      else leadingZeros + byteLeadingZeros byte

def countLeadingZeros (data : List UInt8) : UInt8 := countLeadingZerosFrom 0 data

def preimage (nonce : Nonce) (solution : Solution) : List UInt8 :=
  salt ++ nonce.toList ++ solution.toList

def bits (byte : UInt8) : List Bool := (List.range 8).map (fun i => byte.toNat.testBit (7 - i))

/-- How many zero bits a byte string begins with. -/
def leadingZeroBits (data : List UInt8) : ℕ :=
  ((data.flatMap bits).takeWhile (fun bit => !bit)).length

example : salt.length = 17 := by decide
example : countLeadingZeros [0, 0, 0x1f] = 19 := by decide
example : leadingZeroBits [0, 0, 0x1f] = 19 := by decide

theorem forall_byte {P : UInt8 → Prop} (table : ∀ n : Fin 256, P (UInt8.ofNat n)) (byte : UInt8) :
    P byte := by
  have entry := table ⟨byte.toNat, byte.toNat_lt⟩
  rwa [UInt8.ofNat_toNat] at entry

theorem byteLeadingZeros_spec {byte : UInt8} (nonzero : byte ≠ 0) :
    ((bits byte).takeWhile (fun bit => !bit)).length = (byteLeadingZeros byte).toNat ∧
      (byteLeadingZeros byte).toNat < 8 := by
  revert byte
  apply forall_byte
  decide +kernel

@[simp] theorem bits_length (byte : UInt8) : (bits byte).length = 8 := by simp [bits]

theorem leadingZeroBits_zero_cons (data : List UInt8) :
    leadingZeroBits (0 :: data) = 8 + leadingZeroBits data := by
  have zeros : ∀ bit ∈ bits 0, (!bit) = true := by decide
  simp only [leadingZeroBits, List.flatMap_cons]
  rw [List.takeWhile_append_of_pos zeros, List.length_append, bits_length]

theorem leadingZeroBits_cons {byte : UInt8} (nonzero : byte ≠ 0) (data : List UInt8) :
    leadingZeroBits (byte :: data) = (byteLeadingZeros byte).toNat := by
  obtain ⟨count, short⟩ := byteLeadingZeros_spec nonzero
  simp only [leadingZeroBits, List.flatMap_cons]
  rw [List.takeWhile_append, if_neg (by rw [count, bits_length]; omega), count]

theorem leadingZeroBits_zeros_append (n : ℕ) (data : List UInt8) :
    leadingZeroBits (List.replicate n 0 ++ data) = 8 * n + leadingZeroBits data := by
  induction n with
  | zero => simp
  | succ n ih =>
      rw [List.replicate_succ, List.cons_append, leadingZeroBits_zero_cons, ih]
      omega

private theorem countLeadingZerosFrom_toNat (data : List UInt8) (leadingZeros : UInt8) :
    (countLeadingZerosFrom leadingZeros data).toNat =
      (leadingZeros.toNat + leadingZeroBits data) % 256 := by
  induction data generalizing leadingZeros with
  | nil =>
      have bound := leadingZeros.toNat_lt
      simp only [countLeadingZerosFrom, leadingZeroBits, List.flatMap_nil, List.takeWhile_nil,
        List.length_nil]
      omega
  | cons byte data ih =>
      by_cases zero : byte = 0
      · subst zero
        have wrapped : (leadingZeros + 8).toNat = (leadingZeros.toNat + 8) % 256 := rfl
        rw [countLeadingZerosFrom, if_pos rfl, ih, leadingZeroBits_zero_cons, wrapped]
        omega
      · rw [countLeadingZerosFrom, if_neg zero, leadingZeroBits_cons zero, UInt8.toNat_add]

/-- The server counts the zero bits, but only up to 255: a digest of zeros counts as none. -/
theorem countLeadingZeros_toNat (data : List UInt8) :
    (countLeadingZeros data).toNat = leadingZeroBits data % 256 := by
  simpa [countLeadingZeros] using countLeadingZerosFrom_toNat data 0

theorem countLeadingZeros_le (data : List UInt8) :
    (countLeadingZeros data).toNat ≤ leadingZeroBits data := by
  rw [countLeadingZeros_toNat]
  exact Nat.mod_le _ _

end FaucetApi.Pow.Hash
