import Changelog.Number.Binary
import Mathlib.Algebra.Order.Field.Power
import Mathlib.Data.Rat.Cast.Order
import Mathlib.Tactic.Linarith
import Mathlib.Tactic.Ring

/-! Rounding to the nearest number keeps the order. The exponent of a fraction depends only on between which
powers of two it lies, so a larger fraction has no smaller exponent; where the exponents agree, the mantissa
is a rounded quotient, and where they differ, the full mantissa of the larger one decides. -/

namespace Changelog.Number

variable {a b c : Nat}

theorem div_le_roundQuotient (a b : Nat) : a / b ≤ roundQuotient a b := by
  unfold roundQuotient
  dsimp only
  split_ifs <;> omega

/-- Rounding goes up by one at most. -/
theorem roundQuotient_le (a b : Nat) : roundQuotient a b ≤ a / b + 1 := by
  unfold roundQuotient
  dsimp only
  split_ifs <;> omega

@[simp]
theorem roundQuotient_zero (b : Nat) : roundQuotient 0 b = 0 := by
  unfold roundQuotient
  simp

/-- A larger number is rounded to no smaller one. Where the quotients agree, the remainders decide. -/
theorem roundQuotient_mono (h : a ≤ c) : roundQuotient a b ≤ roundQuotient c b := by
  rcases (Nat.div_le_div_right h : a / b ≤ c / b).lt_or_eq with hLess | hSame
  · exact (roundQuotient_le a b).trans (Nat.le_trans hLess (div_le_roundQuotient c b))
  · -- with one quotient, the remainders are in order
    have hLeft := Nat.div_add_mod a b
    have hRight := Nat.div_add_mod c b
    rw [hSame] at hLeft
    unfold roundQuotient
    dsimp only
    rw [hSame]
    split_ifs <;> omega

/-- A common factor makes no difference, also for the tie between two numbers. -/
theorem roundQuotient_mul_right (hc : 0 < c) :
    roundQuotient (a * c) (b * c) = roundQuotient a b := by
  have hLess (x y : Nat) : 2 * (x * c) < y * c ↔ 2 * x < y := by
    rw [← Nat.mul_assoc, Nat.mul_lt_mul_right hc]
  have hMore (x y : Nat) : y * c < 2 * (x * c) ↔ y < 2 * x := by
    rw [← Nat.mul_assoc, Nat.mul_lt_mul_right hc]
  simp only [roundQuotient, Nat.mul_div_mul_right a b hc, Nat.mul_mod_mul_right, hLess, hMore]

theorem roundQuotient_le_of_lt {n : Nat} (h : a < b * n) : roundQuotient a b ≤ n :=
  (roundQuotient_le a b).trans (Nat.div_lt_of_lt_mul h)

/-- Rounding does not go below an integer that the fraction is above. -/
theorem le_roundQuotient_of_le {n : Nat} (hb : 0 < b) (h : b * n ≤ a) : n ≤ roundQuotient a b :=
  ((Nat.le_div_iff_mul_le hb).2 (by rwa [Nat.mul_comm])).trans (div_le_roundQuotient a b)

/-- The exponent of the number nearest to `a / b`: the mantissa does not exceed its length there, and fills
it unless the exponent is the least. -/
structure Format.IsExponent (f : Format) (a b : Nat) (e : Int) : Prop where
  minExponent_le : f.minExponent ≤ e
  lt : (a : ℚ) < b * 2 ^ (e + f.precision)
  full : e = f.minExponent ∨ (b : ℚ) * 2 ^ (e + f.precision - 1) ≤ a

/-- The comparison in integers that picks the exponent is the one of the fractions. -/
theorem scaled_lt_iff (a b p : Nat) (e : Int) :
    a * 2 ^ (-e).toNat < b * 2 ^ (e.toNat + p) ↔ (a : ℚ) < b * 2 ^ (e + p) := by
  have hPos : (0 : ℚ) < 2 ^ (-e).toNat := by positivity
  have hExponent : e + p = ((e.toNat + p : Nat) : Int) - ((-e).toNat : Nat) := by
    push_cast
    omega
  rw [hExponent, zpow_sub₀ two_ne_zero, zpow_natCast, zpow_natCast, ← mul_div_assoc, lt_div_iff₀ hPos]
  exact_mod_cast Iff.rfl

theorem two_pow_log2_le {n : Nat} (hn : n ≠ 0) : (2 : ℚ) ^ (n.log2 : Int) ≤ n := by
  exact_mod_cast Nat.log2_self_le hn

theorem lt_two_pow_log2_succ (n : Nat) : (n : ℚ) < 2 ^ (n.log2 + 1 : Int) := by
  exact_mod_cast (Nat.lt_log2_self : n < 2 ^ (n.log2 + 1))

namespace Format

variable {f : Format} {e e' : Int}

/-- The exponent that is chosen in rounding `a / b`. -/
def exponentOf (f : Format) (a b : Nat) : Int :=
  let low : Int := (Nat.log2 a : Int) - Nat.log2 b - f.precision
  let fits (e : Int) : Bool :=
    a * Nat.pow 2 (-e).toNat < b * Nat.pow 2 (e.toNat + f.precision)
  max f.minExponent (if fits low then low else low + 1)

/-- What is counted by the bits of the number nearest to `a / b`, where that has the exponent `e`. -/
def fieldAt (f : Format) (a b : Nat) (e : Int) : Nat :=
  (e - f.minExponent).toNat * 2 ^ (f.precision - 1) +
    roundQuotient (a * 2 ^ (-e).toNat) (b * 2 ^ e.toNat)

theorem isExponent_of_low {low : Int} (hAbove : (a : ℚ) < b * 2 ^ (low + f.precision))
    (hBelow : (b : ℚ) * 2 ^ (low + f.precision - 1) ≤ a) :
    f.IsExponent a b (max f.minExponent low) := by
  refine ⟨le_max_left .., hAbove.trans_le ?_, ?_⟩
  · gcongr
    · exact one_le_two
    · exact le_max_right ..
  · rcases max_choice f.minExponent low with hLeast | hLow
    · exact .inl hLeast
    · rw [hLow]
      exact .inr hBelow

/-- The exponent that is picked by the logarithms, or the one above it, is that of the fraction. -/
theorem isExponent_exponentOf (f : Format) (ha : a ≠ 0) (hb : b ≠ 0) :
    f.IsExponent a b (f.exponentOf a b) := by
  unfold exponentOf
  dsimp only
  generalize hLow : (a.log2 : Int) - b.log2 - f.precision = low
  have hAbove : (a : ℚ) < b * 2 ^ (low + 1 + f.precision) := by
    refine (lt_two_pow_log2_succ a).trans_le
      ((?_ : _ ≤ (2 : ℚ) ^ (b.log2 : Int) * 2 ^ (low + 1 + f.precision)).trans
        (mul_le_mul_of_nonneg_right (two_pow_log2_le hb) (by positivity)))
    rw [← zpow_add₀ two_ne_zero, ← hLow]
    exact (congrArg _ (by ring)).le
  have hBelow : (b : ℚ) * 2 ^ (low + f.precision - 1) ≤ a := by
    refine ((mul_le_mul_of_nonneg_right (lt_two_pow_log2_succ b).le (by positivity)).trans
      (?_ : (2 : ℚ) ^ (b.log2 + 1 : Int) * 2 ^ (low + f.precision - 1) ≤ _)).trans (two_pow_log2_le ha)
    rw [← zpow_add₀ two_ne_zero, ← hLow]
    exact (congrArg _ (by ring)).le
  split_ifs with hFits
  · exact isExponent_of_low ((scaled_lt_iff ..).1 (of_decide_eq_true hFits)) hBelow
  · have hFull := not_lt.1 (mt (scaled_lt_iff a b f.precision low).2
      (of_decide_eq_false (Bool.eq_false_of_not_eq_true hFits)))
    refine isExponent_of_low hAbove (le_of_eq_of_le (congrArg _ (congrArg _ ?_)) hFull)
    ring

/-- A larger fraction has no smaller exponent. -/
theorem IsExponent.le_of_le (h : f.IsExponent a b e) (h' : f.IsExponent c b e') (hac : a ≤ c) :
    e ≤ e' := by
  rcases h.full with rfl | hFull
  · exact h'.minExponent_le
  · have hLess : (b : ℚ) * 2 ^ (e + f.precision - 1) < b * 2 ^ (e' + f.precision) :=
      (hFull.trans (Nat.cast_le.2 hac)).trans_lt h'.lt
    have hPow := lt_of_mul_lt_mul_left hLess (Nat.cast_nonneg b)
    have := (zpow_lt_zpow_iff_right₀ one_lt_two).1 hPow
    omega

theorem IsExponent.unique (h : f.IsExponent a b e) (h' : f.IsExponent a b e') : e = e' :=
  le_antisymm (h.le_of_le h' (Nat.le_refl a)) (h'.le_of_le h (Nat.le_refl a))

/-- So the nearest number may be taken at any exponent that is right, without the search for it. -/
theorem nearest_eq_of_isExponent (h : f.IsExponent a b e) (hb : b ≠ 0) :
    f.nearest false a b = min (f.fieldAt a b e) f.infinityField := by
  by_cases ha : a = 0
  · subst ha
    have hLeast : e = f.minExponent := h.full.resolve_right fun hFull => by
      have hPos : (0 : ℚ) < b := by exact_mod_cast Nat.pos_of_ne_zero hb
      have : (0 : ℚ) < b * 2 ^ (e + f.precision - 1) := by positivity
      rw [Nat.cast_zero] at hFull
      linarith
    simp [nearest, fieldAt, hLeast]
  · rw [h.unique (isExponent_exponentOf f ha hb), nearest, if_neg ha]
    exact Nat.zero_add _

/-- Zero has the least exponent, all other fractions the one that is searched. -/
theorem exists_isExponent (f : Format) (a : Nat) (hb : b ≠ 0) : ∃ e, f.IsExponent a b e := by
  by_cases ha : a = 0
  · subst ha
    have hPos : (0 : ℚ) < b := by exact_mod_cast Nat.pos_of_ne_zero hb
    exact ⟨f.minExponent, le_refl _, by rw [Nat.cast_zero]; positivity, .inl rfl⟩
  · exact ⟨_, isExponent_exponentOf f ha hb⟩

/-- The mantissa is rounded to no more than the least power of two that exceeds its length. -/
theorem IsExponent.roundQuotient_le (h : f.IsExponent a b e) :
    roundQuotient (a * 2 ^ (-e).toNat) (b * 2 ^ e.toNat) ≤ 2 ^ f.precision := by
  refine roundQuotient_le_of_lt ?_
  rw [Nat.mul_assoc, ← Nat.pow_add]
  exact (scaled_lt_iff ..).2 h.lt

/-- A mantissa fills its length unless the exponent is the least. -/
theorem IsExponent.le_roundQuotient (h : f.IsExponent a b e) (hb : b ≠ 0) (hp : 0 < f.precision)
    (hNotLeast : e ≠ f.minExponent) :
    2 ^ (f.precision - 1) ≤ roundQuotient (a * 2 ^ (-e).toNat) (b * 2 ^ e.toNat) := by
  refine le_roundQuotient_of_le (by positivity) ?_
  rw [Nat.mul_assoc, ← Nat.pow_add]
  refine not_lt.1 (mt (scaled_lt_iff ..).1 (not_lt.2 ?_))
  have hFull := h.full.resolve_left hNotLeast
  rwa [Nat.cast_sub hp, Nat.cast_one, ← add_sub_assoc]

/-- A larger fraction has no smaller field: at one exponent by its mantissa, and otherwise by the
exponent. -/
theorem fieldAt_mono (h : f.IsExponent a b e) (h' : f.IsExponent c b e') (hb : b ≠ 0)
    (hp : 0 < f.precision) (hac : a ≤ c) : f.fieldAt a b e ≤ f.fieldAt c b e' := by
  rcases (h.le_of_le h' hac).eq_or_lt with rfl | hLess
  · exact Nat.add_le_add_left (roundQuotient_mono (Nat.mul_le_mul_right _ hac)) _
  · have hLeast := h.minExponent_le
    have hStep : (e - f.minExponent).toNat + 1 ≤ (e' - f.minExponent).toNat := by omega
    have hDouble : 2 ^ f.precision = 2 ^ (f.precision - 1) + 2 ^ (f.precision - 1) := by
      rw [← Nat.two_mul, ← Nat.pow_succ', Nat.succ_eq_add_one, Nat.sub_add_cancel hp]
    calc f.fieldAt a b e
        ≤ (e - f.minExponent).toNat * 2 ^ (f.precision - 1) + 2 ^ f.precision :=
          Nat.add_le_add_left h.roundQuotient_le _
      _ = ((e - f.minExponent).toNat + 1) * 2 ^ (f.precision - 1) + 2 ^ (f.precision - 1) := by
          rw [hDouble]; ring
      _ ≤ f.fieldAt c b e' :=
          Nat.add_le_add (Nat.mul_le_mul_right _ hStep) (h'.le_roundQuotient hb hp (by omega))

/-- A larger fraction is not rounded to a smaller number. -/
theorem nearest_mono (f : Format) (hp : 0 < f.precision) (hb : b ≠ 0) (h : a ≤ c) :
    f.nearest false a b ≤ f.nearest false c b := by
  obtain ⟨e, he⟩ := exists_isExponent f a hb
  obtain ⟨e', he'⟩ := exists_isExponent f c hb
  rw [nearest_eq_of_isExponent he hb, nearest_eq_of_isExponent he' hb]
  exact min_le_min_right _ (fieldAt_mono he he' hb hp h)

theorem nearest_le_infinityField (f : Format) (hb : b ≠ 0) :
    f.nearest false a b ≤ f.infinityField := by
  obtain ⟨e, he⟩ := exists_isExponent f a hb
  rw [nearest_eq_of_isExponent he hb]
  exact min_le_right ..

end Format

end Changelog.Number
