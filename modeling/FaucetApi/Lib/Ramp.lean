/- module: FaucetApi/Lib/Ramp
   layer: library
   digest: A falling line clamped between its two ends. -/

import Mathlib.Algebra.Order.Field.Basic
import Mathlib.Tactic.FieldSimp
import Mathlib.Tactic.Linarith
import Mathlib.Tactic.Ring

set_option autoImplicit false
set_option relaxedAutoImplicit false

namespace FaucetApi.Lib.Ramp

universe u

variable {K : Type u} [Field K] [LinearOrder K]

/-- The line through `high` at `start` and `low` at `start + width`. -/
def line (low high start width x : K) : K := (low - high) / width * (x - start) + high

/-- The line, held at `high` before its start and at `low` after its end. -/
def ramp (low high start width x : K) : K := max low (min high (line low high start width x))

variable [IsStrictOrderedRing K] {low high start width x y : K}

omit [LinearOrder K] [IsStrictOrderedRing K] in
theorem line_start : line low high start width start = high := by
  simp [line]

omit [LinearOrder K] [IsStrictOrderedRing K] in
theorem line_end (wide : width ≠ 0) : line low high start width (start + width) = low := by
  unfold line
  rw [add_sub_cancel_left, div_mul_cancel₀ _ wide, sub_add_cancel]

theorem line_antitone (start : K) (falls : low ≤ high) (wide : 0 < width) :
    Antitone (line low high start width) := by
  intro x y le
  have slope : (low - high) / width ≤ 0 :=
    div_nonpos_of_nonpos_of_nonneg (sub_nonpos.mpr falls) wide.le
  have steps := mul_le_mul_of_nonpos_left (sub_le_sub_right le start) slope
  unfold line
  linarith

theorem line_le (falls : low ≤ high) (wide : 0 < width) (after : start ≤ x) :
    line low high start width x ≤ high := by
  have below := line_antitone start falls wide after
  rwa [line_start] at below

theorem le_line (falls : low ≤ high) (wide : 0 < width) (before : x ≤ start + width) :
    low ≤ line low high start width x := by
  have above := line_antitone start falls wide before
  rwa [line_end wide.ne'] at above

theorem ramp_antitone (start : K) (falls : low ≤ high) (wide : 0 < width) :
    Antitone (ramp low high start width) := by
  intro x y le
  exact max_le_max_left low (min_le_min_left high (line_antitone start falls wide le))

theorem ramp_before (falls : low ≤ high) (wide : 0 < width) (before : x ≤ start) :
    ramp low high start width x = high := by
  have above := line_antitone start falls wide before
  rw [line_start] at above
  unfold ramp
  rw [min_eq_left above, max_eq_right falls]

theorem ramp_after (falls : low ≤ high) (wide : 0 < width) (after : start + width ≤ x) :
    ramp low high start width x = low := by
  have below := line_antitone start falls wide after
  rw [line_end wide.ne'] at below
  unfold ramp
  rw [min_eq_right (below.trans falls), max_eq_left below]

theorem ramp_between (falls : low ≤ high) (wide : 0 < width) (after : start ≤ x)
    (before : x ≤ start + width) : ramp low high start width x = line low high start width x := by
  unfold ramp
  rw [min_eq_right (line_le falls wide after), max_eq_right (le_line falls wide before)]

end FaucetApi.Lib.Ramp
