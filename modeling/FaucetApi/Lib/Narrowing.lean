/- module: FaucetApi/Lib/Narrowing
   layer: library
   digest: Narrowing a number to a width by truncation and by saturation. -/

import Mathlib.Order.Lattice.Nat
import Mathlib.Algebra.Order.Ring.Nat

set_option autoImplicit false
set_option relaxedAutoImplicit false

namespace FaucetApi.Lib.Narrowing

/-- The low bits, as a narrowing cast keeps them. -/
def truncate (width n : ℕ) : ℕ := n % 2 ^ width

/-- The greatest number that fits, where `n` does not. -/
def saturate (width n : ℕ) : ℕ := min n (2 ^ width - 1)

variable {width n k : ℕ}

theorem truncate_of_fits (fits : n < 2 ^ width) : truncate width n = n := Nat.mod_eq_of_lt fits

theorem saturate_of_fits (fits : n < 2 ^ width) : saturate width n = n :=
  min_eq_left (Nat.le_sub_one_of_lt fits)

theorem saturate_of_too_wide (wide : 2 ^ width ≤ n) : saturate width n = 2 ^ width - 1 :=
  min_eq_right ((Nat.sub_le _ _).trans wide)

theorem saturate_mono (le : n ≤ k) : saturate width n ≤ saturate width k := min_le_min_right _ le

theorem truncate_le_saturate : truncate width n ≤ saturate width n := by
  have small : truncate width n < 2 ^ width := Nat.mod_lt _ (Nat.two_pow_pos width)
  exact le_min (Nat.mod_le _ _) (Nat.le_sub_one_of_lt small)

theorem truncate_eq_saturate :
    truncate width n = saturate width n ↔ n < 2 ^ width ∨ n % 2 ^ width = 2 ^ width - 1 := by
  rcases Nat.lt_or_ge n (2 ^ width) with fits | wide
  · rw [truncate_of_fits fits, saturate_of_fits fits]
    exact iff_of_true rfl (.inl fits)
  · rw [saturate_of_too_wide wide]
    constructor
    · exact Or.inr
    · intro ones
      exact ones.resolve_left (Nat.not_lt.mpr wide)

example : truncate 8 256 = 0 ∧ saturate 8 256 = 255 := by decide

end FaucetApi.Lib.Narrowing
