/- module: FaucetApi/Lib/BigEndian
   layer: library
   digest: Byte strings as numbers, the most significant byte first, and their hexadecimal text. -/

import FaucetApi.Lib.Hex
import Mathlib.Data.Nat.Digits.Defs
import Mathlib.Data.Set.Card

set_option autoImplicit false
set_option relaxedAutoImplicit false

namespace FaucetApi.Lib.BigEndian

open FaucetApi.Lib.Hex

/-- The number that a byte string spells. -/
def value (bytes : List UInt8) : ℕ := Nat.ofDigits 256 (bytes.reverse.map UInt8.toNat)

/-- The low `n` bytes of a number. -/
def toBytes : ℕ → ℕ → List UInt8
  | 0, _ => []
  | n + 1, v => toBytes n (v / 256) ++ [UInt8.ofNat v]

variable {bytes bytes' : List UInt8}

@[simp] theorem value_nil : value [] = 0 := rfl

@[simp] theorem value_singleton (byte : UInt8) : value [byte] = byte.toNat :=
  Nat.ofDigits_singleton

theorem value_append (bytes bytes' : List UInt8) :
    value (bytes ++ bytes') = value bytes * 256 ^ bytes'.length + value bytes' := by
  unfold value
  rw [List.reverse_append, List.map_append, Nat.ofDigits_append, List.length_map,
    List.length_reverse]
  ring

theorem value_cons (byte : UInt8) (bytes : List UInt8) :
    value (byte :: bytes) = byte.toNat * 256 ^ bytes.length + value bytes := by
  rw [← List.singleton_append, value_append, value_singleton]

private theorem digits_lt (bytes : List UInt8) :
    ∀ digit ∈ bytes.reverse.map UInt8.toNat, digit < 256 := by
  intro digit member
  obtain ⟨byte, _, rfl⟩ := List.mem_map.mp member
  exact byte.toNat_lt

theorem value_lt (bytes : List UInt8) : value bytes < 256 ^ bytes.length := by
  simpa [value] using Nat.ofDigits_lt_base_pow_length (by decide) (digits_lt bytes)

theorem value_inj (same : bytes.length = bytes'.length) (equal : value bytes = value bytes') :
    bytes = bytes' := by
  have digits := Nat.ofDigits_inj_of_len_eq (by decide) (by simp [same]) (digits_lt bytes)
    (digits_lt bytes') equal
  have reversed := (List.map_inj_right fun _ _ => UInt8.toNat_inj.mp).mp digits
  exact List.reverse_inj.mp reversed

theorem value_set (bytes : List UInt8) {i : ℕ} (inside : i < bytes.length) (byte : UInt8) :
    value (bytes.set i byte) + bytes[i].toNat * 256 ^ (bytes.length - 1 - i) =
      value bytes + byte.toNat * 256 ^ (bytes.length - 1 - i) := by
  induction bytes generalizing i with
  | nil => cases inside
  | cons head bytes ih =>
      cases i with
      | zero =>
          rw [List.set_cons_zero, value_cons, value_cons]
          simp only [List.getElem_cons_zero, List.length_cons, Nat.add_sub_cancel, Nat.sub_zero]
          omega
      | succ i =>
          have tail := ih (Nat.lt_of_succ_lt_succ inside)
          have place : (head :: bytes).length - 1 - (i + 1) = bytes.length - 1 - i := by
            rw [List.length_cons]
            omega
          rw [List.set_cons_succ, value_cons, value_cons, List.length_set, List.getElem_cons_succ,
            place]
          omega

@[simp] theorem length_toBytes (n v : ℕ) : (toBytes n v).length = n := by
  induction n generalizing v with
  | zero => rfl
  | succ n ih => rw [toBytes, List.length_append, ih, List.length_singleton]

theorem value_toBytes (n v : ℕ) : value (toBytes n v) = v % 256 ^ n := by
  induction n generalizing v with
  | zero => exact (Nat.mod_one v).symm
  | succ n ih =>
      have split : v % 256 ^ (n + 1) = v % 256 + 256 * (v / 256 % 256 ^ n) := by
        rw [pow_succ', Nat.mod_mul]
      rw [toBytes, value_append, ih, value_singleton, List.length_singleton, pow_one,
        UInt8.toNat_ofNat', split]
      omega

/-- The low `n` bytes of a number, with their count. -/
def toVector (n v : ℕ) : Vector UInt8 n := ⟨(toBytes n v).toArray, length_toBytes n v⟩

@[simp] theorem toList_toVector (n v : ℕ) : (toVector n v).toList = toBytes n v := rfl

theorem eq_toVector {n v : ℕ} {bytes : Vector UInt8 n} (spells : value bytes.toList = v % 256 ^ n) :
    bytes = toVector n v := by
  apply Vector.toList_inj.mp
  apply value_inj
  · rw [toList_toVector, length_toBytes, Vector.length_toList]
  · rw [toList_toVector, value_toBytes, spells]

theorem ncard_value_lt {n m : ℕ} (le : m ≤ 256 ^ n) :
    {bytes : Vector UInt8 n | value bytes.toList < m}.ncard = m := by
  have spelled (v : ℕ) (below : v < m) : value (toVector n v).toList = v := by
    rw [toList_toVector, value_toBytes, Nat.mod_eq_of_lt (below.trans_le le)]
  have range : {bytes : Vector UInt8 n | value bytes.toList < m} =
      toVector n '' (Finset.range m : Set ℕ) := by
    ext bytes
    simp only [Set.mem_ofPred_eq, Set.mem_image, Finset.mem_coe, Finset.mem_range]
    constructor
    · intro below
      exact ⟨_, below, (eq_toVector (Nat.mod_eq_of_lt (below.trans_le le)).symm).symm⟩
    · rintro ⟨v, below, rfl⟩
      rwa [spelled v below]
  have injective : Set.InjOn (toVector n) (Finset.range m : Set ℕ) := by
    intro v below w below' same
    simp only [Finset.mem_coe, Finset.mem_range] at below below'
    rw [← spelled v below, ← spelled w below', same]
  rw [range, injective.ncard_image, Set.ncard_coe_finset, Finset.card_range]

theorem card_vector (n : ℕ) : Nat.card (Vector UInt8 n) = 256 ^ n := by
  have every : {bytes : Vector UInt8 n | value bytes.toList < 256 ^ n} = Set.univ := by
    apply Set.eq_univ_of_forall
    intro bytes
    simpa using value_lt bytes.toList
  rw [← Set.ncard_univ, ← every, ncard_value_lt le_rfl]

instance finite_vector (n : ℕ) : Finite (Vector UInt8 n) := by
  apply Nat.finite_of_card_ne_zero
  rw [card_vector]
  positivity

/-! The digits of a number, padded with zeros on the left, are those of its bytes. -/

private theorem leftpad_append_singleton {α : Type} (width : ℕ) (pad last : α) (text : List α) :
    (text ++ [last]).leftpad (width + 1) pad = text.leftpad width pad ++ [last] := by
  simp [List.leftpad]

theorem leftpad_toDigits_succ {base width : ℕ} (two_le : 1 < base) (pos : 0 < width) (v : ℕ) :
    (Nat.toDigits base v).leftpad (width + 1) '0' =
      (Nat.toDigits base (v / base)).leftpad width '0' ++ [Nat.digitChar (v % base)] := by
  rcases Nat.lt_or_ge v base with small | large
  · obtain ⟨width, rfl⟩ := Nat.exists_eq_succ_of_ne_zero pos.ne'
    rw [Nat.toDigits_of_lt_base small, Nat.div_eq_of_lt small, Nat.mod_eq_of_lt small,
      Nat.toDigits_zero]
    simp [List.leftpad, List.replicate_succ']
  · rw [Nat.toDigits_of_base_le two_le large, leftpad_append_singleton]

theorem encode_toBytes {n v : ℕ} (fits : v < 256 ^ (n + 1)) :
    encode (toBytes (n + 1) v) = (Nat.toDigits 16 v).leftpad (2 * (n + 1)) '0' := by
  induction n generalizing v with
  | zero =>
      have high : v / 16 < 16 := by omega
      have low : (UInt8.ofNat v).toNat = v := by
        rw [UInt8.toNat_ofNat']
        omega
      rw [leftpad_toDigits_succ (by decide) (by decide), Nat.toDigits_of_lt_base high]
      simp [toBytes, encode, encodeByte, low, List.leftpad]
  | succ n ih =>
      have fits' : v / 256 < 256 ^ (n + 1) := Nat.div_lt_of_lt_mul (by rwa [← pow_succ'])
      have halves : (UInt8.ofNat v).toNat / 16 = v / 16 % 16 ∧
          (UInt8.ofNat v).toNat % 16 = v % 16 := by
        rw [UInt8.toNat_ofNat']
        omega
      have last : encode [UInt8.ofNat v] =
          [Nat.digitChar (v / 16 % 16), Nat.digitChar (v % 16)] := by
        simp only [encode, encodeByte, List.flatMap_cons, List.flatMap_nil, List.append_nil,
          halves.1, halves.2]
      calc encode (toBytes (n + 2) v)
          = encode (toBytes (n + 1) (v / 256)) ++ encode [UInt8.ofNat v] := List.flatMap_append
        _ = (Nat.toDigits 16 (v / 256)).leftpad (2 * (n + 1)) '0' ++
              [Nat.digitChar (v / 16 % 16), Nat.digitChar (v % 16)] := by rw [ih fits', last]
        _ = (Nat.toDigits 16 v).leftpad (2 * (n + 2)) '0' := by
            have width : 2 * (n + 2) = 2 * (n + 1) + 1 + 1 := by ring
            have quotient : v / 16 / 16 = v / 256 := Nat.div_div_eq_div_mul _ _ _
            rw [width, leftpad_toDigits_succ (by decide) (by omega),
              leftpad_toDigits_succ (by decide) (by omega), quotient, List.append_assoc,
              List.singleton_append]

example : encode (toBytes 2 300) = "012c".toList := by decide

end FaucetApi.Lib.BigEndian
