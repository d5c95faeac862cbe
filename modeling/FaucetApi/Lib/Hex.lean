/- module: FaucetApi/Lib/Hex
   layer: library
   digest: Byte strings as hexadecimal text, in either case, and back. -/

import Mathlib.Data.Nat.Notation

set_option autoImplicit false
set_option relaxedAutoImplicit false

namespace FaucetApi.Lib.Hex

/-- The value of a hexadecimal digit, in either case. -/
def digitValue (c : Char) : Option ℕ :=
  if '0' ≤ c ∧ c ≤ '9' then some (c.toNat - '0'.toNat)
  else if 'a' ≤ c ∧ c ≤ 'f' then some (c.toNat - 'a'.toNat + 10)
  else if 'A' ≤ c ∧ c ≤ 'F' then some (c.toNat - 'A'.toNat + 10)
  else none

/-- Two digits of lower case, the high one first. -/
def encodeByte (byte : UInt8) : List Char :=
  [Nat.digitChar (byte.toNat / 16), Nat.digitChar (byte.toNat % 16)]

def encode (bytes : List UInt8) : List Char := bytes.flatMap encodeByte

def decode : List Char → Option (List UInt8)
  | [] => some []
  | [_] => none
  | high :: low :: text =>
      match digitValue high, digitValue low, decode text with
      | some h, some l, some bytes => some (UInt8.ofNat (16 * h + l) :: bytes)
      | _, _, _ => none

private theorem digit_table : ∀ n : Fin 16, digitValue (Nat.digitChar n) = some n.val := by decide

private theorem digitValue_digitChar {n : ℕ} (small : n < 16) :
    digitValue (Nat.digitChar n) = some n := digit_table ⟨n, small⟩

theorem decode_encode (bytes : List UInt8) : decode (encode bytes) = some bytes := by
  induction bytes with
  | nil => rfl
  | cons byte bytes ih =>
      have bound := byte.toNat_lt
      have high := digitValue_digitChar (show byte.toNat / 16 < 16 by omega)
      have low := digitValue_digitChar (show byte.toNat % 16 < 16 by omega)
      have whole : 16 * (byte.toNat / 16) + byte.toNat % 16 = byte.toNat := by omega
      change decode (Nat.digitChar (byte.toNat / 16) :: Nat.digitChar (byte.toNat % 16) ::
        encode bytes) = _
      simp only [decode, high, low, ih, whole, UInt8.ofNat_toNat]

/-- A text that spells `n` bytes. -/
structure HexText (n : ℕ) where
  chars : List Char
  bytes : Vector UInt8 n
  spelled : decode chars = some bytes.toList

def HexText.ofBytes {n : ℕ} (bytes : Vector UInt8 n) : HexText n :=
  ⟨encode bytes.toList, bytes, decode_encode _⟩

end FaucetApi.Lib.Hex
