import Changelog.Scalar
import Mathlib.Data.Rat.Floor
import Mathlib.Tactic.Linarith

/-! Layout with exact numbers. Rational numbers take the place of single-precision ones: every finite
single-precision number is one of them, and no operation rounds. -/

namespace Changelog

instance : Scalar ℚ where
  decidableLt := inferInstance
  decidableLe := inferInstance
  ofInt n := n
  floor x := ⌊x⌋
  ceil x := ⌈x⌉
  same x y := x == y

namespace Scalar

@[simp] theorem ofNat_rat (n : Nat) : (ofNat n : ℚ) = n := rfl

@[simp] theorem zero_rat : (zero : ℚ) = 0 := rfl

/-- Rational numbers are always comparable, so the larger of two is their maximum. -/
@[simp] theorem larger_rat (a b : ℚ) : larger a b = max a b := by
  unfold larger
  rw [if_pos (le_refl a)]
  rcases lt_or_ge a b with h | h
  · rw [if_pos h, max_eq_right h.le]
  · rw [if_neg (not_lt.2 h), max_eq_left h]

/-- Rows are never negative, so cutting a height off at zero leaves them as they are. -/
@[simp] theorem max_natCast_zero (n : Nat) : max (n : ℚ) 0 = n :=
  max_eq_left (Nat.cast_nonneg n)

end Scalar

end Changelog
