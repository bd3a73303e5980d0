/-
This file compares doubling under a cap with doubling whose exponent and result are clamped.
-/

import Mathlib.Algebra.Order.Ring.Nat
import Mathlib.Tactic.Common

namespace FastDownloader.Foundation

/-- The exponent goes up to a limit, and the result goes up to a top. -/
def clampedDoubling (start cap limit top exponent : Nat) : Nat :=
  min (min (start * 2 ^ min exponent limit) cap) top

variable {start cap limit top exponent later : Nat}

theorem doubled_lt (positive : 0 < start) (larger : exponent < later) : start * 2 ^ exponent < start * 2 ^ later :=
  Nat.mul_lt_mul_of_pos_left (Nat.pow_lt_pow_right Nat.one_lt_two larger) positive

/-- The clamps change nothing exactly when the top is not reached before the cap and the limit is not either. -/
theorem clampedDoubling_eq_iff :
    clampedDoubling start cap limit top exponent = min cap (start * 2 ^ exponent) ↔
      (cap ≤ top ∨ start * 2 ^ exponent ≤ top) ∧ (exponent ≤ limit ∨ start = 0 ∨ cap ≤ start * 2 ^ limit) := by
  unfold clampedDoubling
  rcases Nat.lt_or_ge limit exponent with beyond | within
  · rw [Nat.min_eq_right beyond.le]
    rcases Nat.eq_zero_or_pos start with rfl | positive
    · simp
    · have grown := doubled_lt positive beyond
      omega
  · rw [Nat.min_eq_left within]
    omega

theorem clampedDoubling_mono (ordered : exponent ≤ later) :
    clampedDoubling start cap limit top exponent ≤ clampedDoubling start cap limit top later := by
  have exponents : min exponent limit ≤ min later limit := min_le_min_right limit ordered
  have powers : start * 2 ^ min exponent limit ≤ start * 2 ^ min later limit :=
    Nat.mul_le_mul_left start (Nat.pow_le_pow_right Nat.two_pos exponents)
  exact min_le_min_right top (min_le_min_right cap powers)

/-- From the limit on the result is the cap exactly when the cap is within both clamps. -/
theorem clampedDoubling_eq_cap_iff (reached : limit ≤ exponent) :
    clampedDoubling start cap limit top exponent = cap ↔ cap ≤ start * 2 ^ limit ∧ cap ≤ top := by
  unfold clampedDoubling
  rw [Nat.min_eq_right reached]
  omega

end FastDownloader.Foundation
