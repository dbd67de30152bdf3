import Changelog.Proofs.Number.Place
import Changelog.Proofs.OrderedScalar

/-! Single-precision numbers are ordered. Magnitudes are counted in units of the least positive number,
which is `2 ^ (-149)`, and products in units of its square. A product is the number nearest to that
fraction, and rounding keeps the order, so products keep the order of factors that are not negative. -/

namespace Changelog.Number

open Float.Model (UnpackedFloat)
open Float.Model.UnpackedFloat

variable {m m' : Nat} {e e' : Int}

/-- Shifting to the right keeps the last digit that was lost, and whether there was any other. -/
theorem shiftRight_succ (p k : Nat) :
    ExtendedMantissa.ofMantissaAndAccuracy p .exact >>> (k + 1) =
      ⟨p / 2 ^ (k + 1), p / 2 ^ k % 2 != 0, p % 2 ^ k != 0⟩ := by
  induction k with
  | zero =>
      show ExtendedMantissa.mk (p / 2) (p % 2 != 0) false = _
      simp [Nat.mod_one]
  | succ k ih =>
      show (ExtendedMantissa.ofMantissaAndAccuracy p .exact >>> (k + 1)).shiftRightOne = _
      rw [ih]
      have hSticky : (p / 2 ^ k % 2 != 0 || p % 2 ^ k != 0) = (p % 2 ^ (k + 1) != 0) := by
        have hPos : 0 < 2 ^ k := by positivity
        rw [Nat.mod_pow_succ, Bool.eq_iff_iff]
        simp only [Bool.or_eq_true, bne_iff_ne, ne_eq, Nat.add_eq_zero_iff, Nat.mul_eq_zero, hPos.ne',
          false_or]
        tauto
      rw [ExtendedMantissa.shiftRightOne, hSticky, Nat.div_div_eq_div_mul, ← Nat.pow_succ]

/-- These two tell how to round, so shifting is dividing and rounding. -/
theorem roundedMantissa_shiftRight (p k : Nat) :
    (ExtendedMantissa.ofMantissaAndAccuracy p .exact >>> k).roundedMantissa =
      roundQuotient p (2 ^ k) := by
  cases k with
  | zero =>
      show p = _
      simp [roundQuotient, Nat.mod_one]
  | succ k =>
      have hLess : p % 2 ^ k < 2 ^ k := Nat.mod_lt _ (by positivity)
      rw [shiftRight_succ, roundQuotient, Nat.mod_pow_succ, Nat.pow_succ]
      generalize p % 2 ^ k = rest at hLess
      generalize p / (2 ^ k * 2) = quotient
      -- the bit after the mantissa is half of the last digit, and the rest is less than that
      rcases Nat.mod_two_eq_zero_or_one (p / 2 ^ k) with hBit | hBit <;>
        rcases Nat.eq_zero_or_pos rest with rfl | hPos
      · simp [hBit, ExtendedMantissa.roundedMantissa, ExtendedMantissa.accuracy,
          Accuracy.roundToNearestEven]
      · have hSticky : (rest != 0) = true := bne_iff_ne.2 hPos.ne'
        simp [hBit, hSticky, ExtendedMantissa.roundedMantissa, ExtendedMantissa.accuracy,
          Accuracy.roundToNearestEven]
        omega
      · simp only [hBit, ExtendedMantissa.roundedMantissa, ExtendedMantissa.accuracy]
        rw [if_neg (by omega), if_neg (by omega)]
        rfl
      · have hSticky : (rest != 0) = true := bne_iff_ne.2 hPos.ne'
        simp only [hBit, hSticky, ExtendedMantissa.roundedMantissa, ExtendedMantissa.accuracy]
        rw [if_neg (by omega), if_pos (by omega)]
        rfl

/-- The exponent at which `p * 2 ^ e` is rounded. -/
def singleExponent (p : Nat) (e : Int) : Int :=
  max (p.log2 + e - 23) (-149)

theorem targetExponent_eq (p : Nat) (e : Int) :
    Float.Model.Format.targetExponent .binary32 (Float.Model.totalExponent p e) =
      singleExponent p e := by
  have hBits : (Float.Model.Format.binary32.mantissaBits : Int) = 24 := by decide
  have hLeast : Float.Model.Format.binary32.minExponent = -149 := by decide
  rw [Float.Model.Format.targetExponent, Float.Model.totalExponent, singleExponent, hBits, hLeast]
  omega

/-- A mantissa with digits to spare is shifted until it has its length. -/
theorem shiftToTargetExponent_eq (p : Nat) (e : Int) :
    shiftToTargetExponent .binary32 p e .exact =
      (ExtendedMantissa.ofMantissaAndAccuracy p .exact >>> (singleExponent p e - e).toNat,
        e + (singleExponent p e - e).toNat) := by
  rw [shiftToTargetExponent, targetExponent_eq]
  rfl

/-- The exponent at which `p * 2 ^ (n - 298)` is rounded is that of the fraction. -/
theorem isExponent_singleExponent {p : Nat} (hp : 0 < p) (n : Nat) :
    Format.single.IsExponent (p * 2 ^ n) (2 ^ 298) (singleExponent p (n - 298)) := by
  have hCast : ((p * 2 ^ n : Nat) : ℚ) = p * 2 ^ (n : Int) := by push_cast; rw [zpow_natCast]
  have hUnit : ((2 ^ 298 : Nat) : ℚ) = 2 ^ (298 : Int) := Nat.cast_pow 2 298
  have hPos : (0 : ℚ) < 2 ^ (n : Int) := by positivity
  refine ⟨le_max_right .., ?_, ?_⟩
  · rw [hCast, hUnit, ← zpow_add₀ two_ne_zero]
    refine (mul_lt_mul_of_pos_right (lt_two_pow_log2_succ p) hPos).trans_le ?_
    rw [← zpow_add₀ two_ne_zero]
    refine zpow_le_zpow_right₀ one_le_two ?_
    show _ ≤ 298 + (singleExponent p (n - 298) + (24 : Nat))
    rw [singleExponent]
    omega
  · rcases max_choice ((p.log2 : Int) + (n - 298) - 23) (-149) with hChoice | hLeast
    · refine .inr ?_
      rw [hCast, hUnit, ← zpow_add₀ two_ne_zero]
      refine le_trans ?_ (mul_le_mul_of_nonneg_right (two_pow_log2_le hp.ne') hPos.le)
      rw [← zpow_add₀ two_ne_zero]
      refine zpow_le_zpow_right₀ one_le_two ?_
      show 298 + (singleExponent p (n - 298) + (24 : Nat) - 1) ≤ _
      rw [singleExponent, hChoice]
      omega
    · exact .inl hLeast

/-- Rounding the fraction is rounding the mantissa, since the powers of two in both cancel. -/
theorem roundQuotient_units {p n : Nat} {t : Int} (ht : (n : Int) - 298 ≤ t) :
    roundQuotient (p * 2 ^ n * 2 ^ (-t).toNat) (2 ^ 298 * 2 ^ t.toNat) =
      roundQuotient p (2 ^ (t - (n - 298)).toNat) := by
  have hPow : 2 ^ 298 * 2 ^ t.toNat = 2 ^ (t - (n - 298)).toNat * (2 ^ n * 2 ^ (-t).toNat) := by
    rw [← Nat.pow_add, ← Nat.pow_add, ← Nat.pow_add]
    congr 1
    omega
  rw [hPow, Nat.mul_assoc, roundQuotient_mul_right (by positivity)]

theorem field_single (r : Nat) (t : Int) :
    (t - Format.single.minExponent).toNat * 2 ^ (Format.single.precision - 1) + r =
      singleField r t := by
  have hLeast : Format.single.minExponent = -149 := rfl
  have hDigits : Format.single.precision = 24 := rfl
  rw [hLeast, hDigits, sub_neg_eq_add, singleField]

/-- A rounded mantissa of proper length stays as it is. -/
theorem shiftToTargetExponent_of_lt {r : Nat} {t : Int} (hr : r < 2 ^ 24) (ht : -149 ≤ t) :
    shiftToTargetExponent .binary32 r t .exact =
      (ExtendedMantissa.ofMantissaAndAccuracy r .exact, t) := by
  have hDigits : r.log2 ≤ 23 := by
    rcases Nat.eq_zero_or_pos r with rfl | hPos
    · decide
    · exact Nat.le_of_lt_succ ((Nat.log2_lt hPos.ne').2 hr)
  have hNone : (singleExponent r t - t).toNat = 0 := by
    rw [singleExponent]
    omega
  rw [shiftToTargetExponent_eq, hNone]
  exact congrArg _ (add_zero t)

/-- One that was rounded up to a digit more is halved, exactly. -/
theorem shiftToTargetExponent_of_full {t : Int} (ht : -149 ≤ t) :
    shiftToTargetExponent .binary32 (2 ^ 24) t .exact =
      (ExtendedMantissa.ofMantissaAndAccuracy (2 ^ 23) .exact, t + 1) := by
  have hOne : (singleExponent (2 ^ 24) t - t).toNat = 1 := by
    rw [singleExponent, Nat.log2_two_pow]
    omega
  rw [shiftToTargetExponent_eq, hOne]
  rfl

section

variable {p r : Nat} {em : ExtendedMantissa} {t t' : Int}
  (hFirst : shiftToTargetExponent .binary32 p e .exact = (em, t)) (hRounded : em.roundedMantissa = r)
  (hSecond : shiftToTargetExponent .binary32 r t .exact =
    (ExtendedMantissa.ofMantissaAndAccuracy m .exact, t'))

include hFirst hRounded hSecond

/-- What is rounded to nothing is zero. -/
theorem roundWithAccuracy_of_zero (hZero : m = 0) :
    roundWithAccuracy .binary32 .positive p e .exact = .zero .positive := by
  rw [roundWithAccuracy, hFirst]
  dsimp only
  rw [hRounded, hSecond]
  exact dif_pos hZero

/-- Anything else is a finite number still, before it is packed. -/
theorem roundWithAccuracy_of_pos (hPos : 0 < m) :
    roundWithAccuracy .binary32 .positive p e .exact = .finite .positive m t' hPos := by
  rw [roundWithAccuracy, hFirst]
  dsimp only
  rw [hRounded, hSecond]
  exact dif_neg hPos.ne'

end

/-- Rounding `p * 2 ^ (n - 298)` gives the number nearest to the fraction. -/
theorem place?_pack_round {p n : Nat} (hp : 0 < p)
    (hStart : (n : Int) - 298 ≤ singleExponent p (n - 298)) :
    place? (unpack .binary32
        (pack .binary32 (roundWithAccuracy .binary32 .positive p (n - 298) .exact))) =
      some ((Format.single.nearest false (p * 2 ^ n) (2 ^ 298) : Nat) : Int) := by
  have hIs := isExponent_singleExponent hp n
  have hLeast : -149 ≤ singleExponent p (n - 298) := hIs.minExponent_le
  have hUpper : _ ≤ 2 ^ 24 := hIs.roundQuotient_le
  have hLower : _ → 2 ^ 23 ≤ _ := hIs.le_roundQuotient (by positivity) (by decide)
  have hFirst := shiftToTargetExponent_eq p (n - 298)
  have hRounded := roundedMantissa_shiftRight p (singleExponent p (n - 298) - (n - 298)).toNat
  rw [Int.toNat_of_nonneg (by omega), add_sub_cancel] at hFirst
  rw [Format.nearest_eq_of_isExponent hIs (by positivity), Format.fieldAt, field_single,
    roundQuotient_units hStart]
  rw [roundQuotient_units hStart] at hUpper hLower
  generalize singleExponent p (n - 298) = t at *
  generalize roundQuotient p (2 ^ (t - (n - 298)).toNat) = r at *
  have hFull : t = -149 ∨ 2 ^ 23 ≤ r := or_iff_not_imp_left.2 hLower
  rcases hUpper.lt_or_eq with hLess | hTop
  · have hSecond := shiftToTargetExponent_of_lt hLess hLeast
    rcases Nat.eq_zero_or_pos r with rfl | hPos
    · obtain rfl : t = -149 := hFull.resolve_right (by decide)
      rw [roundWithAccuracy_of_zero hFirst hRounded hSecond rfl]
      rfl
    · rw [roundWithAccuracy_of_pos hFirst hRounded hSecond hPos,
        place?_pack_finite hPos ⟨hLess, hLeast, hFull⟩]
  · -- the mantissa is rounded up to the next power of two
    have hSecond := shiftToTargetExponent_of_full hLeast
    rw [← hTop] at hSecond
    have hField : singleField (2 ^ 23) (t + 1) = singleField r t := by
      rw [singleField, singleField]
      omega
    rw [roundWithAccuracy_of_pos hFirst hRounded hSecond (by decide),
      place?_pack_finite _ ⟨by decide, by omega, .inr (Nat.le_refl _)⟩, hField]

/-- How many times the least positive number a magnitude is, for values that are neither negative nor
infinite. -/
inductive Units : UnpackedFloat → Nat → Prop
  | zero (s : Sign) : Units (.zero s) 0
  | finite (m : Nat) (e : Int) (hPos : 0 < m) (hRounded : Rounded m e) :
      Units (.finite .positive m e hPos) (m * 2 ^ (e + 149).toNat)

variable {u v w : UnpackedFloat} {a b c : Nat}

/-- A value that is not negative is infinite or counts units. -/
theorem eq_infinity_or_units (hu : Representable u) {x : Int} (hPlace : place? u = some x) (hx : 0 ≤ x) :
    u = .infinity .positive ∨ ∃ a, Units u a := by
  cases u with
  | notANumber => cases hPlace
  | infinity s =>
      cases s with
      | positive => exact .inl rfl
      | negative =>
          obtain rfl := Option.some.inj hPlace
          exact absurd hx (by decide)
  | zero s => exact .inr ⟨0, .zero s⟩
  | finite s m e hPos =>
      cases s with
      | positive => exact .inr ⟨_, .finite m e hPos hu.1⟩
      | negative =>
          obtain rfl := Option.some.inj hPlace
          have := singleField_pos hPos e
          simp only [Sign.apply] at hx
          omega

/-- The count of units grows with the place. -/
theorem Rounded.units_le (h : Rounded m e) (h' : Rounded m' e')
    (hField : singleField m e ≤ singleField m' e') :
    m * 2 ^ (e + 149).toNat ≤ m' * 2 ^ (e' + 149).toNat := by
  rcases (h.field_le_iff h').1 hField with hLess | ⟨rfl, hLe⟩
  · have hFull := h'.full.resolve_left (by have := h.minExponent_le; omega)
    have hLeast := h.minExponent_le
    calc m * 2 ^ (e + 149).toNat
        ≤ 2 ^ 24 * 2 ^ (e + 149).toNat := Nat.mul_le_mul_right _ h.mantissa_lt.le
      _ = 2 ^ 23 * 2 ^ ((e + 149).toNat + 1) := by rw [Nat.pow_succ]; ring
      _ ≤ m' * 2 ^ (e' + 149).toNat :=
          Nat.mul_le_mul hFull (Nat.pow_le_pow_right two_pos (by omega))
  · exact Nat.mul_le_mul_right _ hLe

/-- So magnitudes in order have their units in order. -/
theorem Units.le_of_le {x y : Int} (hu : Units u a) (hv : Units v b) (hx : place? u = some x)
    (hy : place? v = some y) (hxy : x ≤ y) : a ≤ b := by
  cases hu with
  | zero s => exact Nat.zero_le b
  | finite m e hPos hRounded =>
      obtain rfl := Option.some.inj hx
      cases hv with
      | zero s =>
          obtain rfl := Option.some.inj hy
          have := singleField_pos hPos e
          simp only [Sign.apply] at hxy
          omega
      | finite m' e' hPos' hRounded' =>
          obtain rfl := Option.some.inj hy
          exact hRounded.units_le hRounded' (Int.ofNat_le.1 hxy)

theorem Units.place_lt {y : Int} (hv : Units v b) (hRepresentable : Representable v)
    (hy : place? v = some y) : y < Format.single.infinityField := by
  cases hv with
  | zero s =>
      obtain rfl := Option.some.inj hy
      decide
  | finite m e hPos hRounded =>
      obtain rfl := Option.some.inj hy
      exact Int.ofNat_lt.2 (hRounded.field_lt_infinityField hRepresentable.2)

/-- A product has digits to spare at the sum of the exponents, so rounding it shifts to the right. -/
theorem Rounded.first_le (h : Rounded m e) (h' : Rounded m' e') (hPos : 0 < m) (hPos' : 0 < m') :
    e + e' ≤ singleExponent (m * m') (e + e') := by
  have hProduct : m * m' ≠ 0 := (Nat.mul_pos hPos hPos').ne'
  rw [singleExponent]
  by_cases hFull : 2 ^ 23 ≤ m * m'
  · have := (Nat.le_log2 hProduct).2 hFull
    omega
  · have hLeast := h.full.resolve_right fun hm => hFull (hm.trans (Nat.le_mul_of_pos_right m hPos'))
    have hLeast' := h'.full.resolve_right fun hm => hFull (hm.trans (Nat.le_mul_of_pos_left m' hPos))
    omega

/-- The place of a product. -/
def productPlace? (u v : UnpackedFloat) : Option Int :=
  place? (unpack .binary32 (pack .binary32 (UnpackedFloat.mul .binary32 u v)))

theorem productPlace?_eq (hMul : UnpackedFloat.mul .binary32 u v = w) (hw : Representable w) :
    productPlace? u v = place? w := by
  rw [productPlace?, hMul, unpack_pack hw]

/-- The product of two magnitudes is the number nearest to the product of their units. -/
theorem Units.productPlace? (hu : Units u a) (hv : Units v b) :
    productPlace? u v = some ((Format.single.nearest false (a * b) (2 ^ 298) : Nat) : Int) := by
  cases hu with
  | zero s =>
      rw [Nat.zero_mul]
      cases hv with
      | zero s' => exact productPlace?_eq rfl trivial
      | finite m e hPos hRounded => exact productPlace?_eq rfl trivial
  | finite m e hPos hRounded =>
      cases hv with
      | zero s => exact productPlace?_eq rfl trivial
      | finite m' e' hPos' hRounded' =>
          have hFirst := hRounded.first_le hRounded' hPos hPos'
          have hLeast := hRounded.minExponent_le
          have hLeast' := hRounded'.minExponent_le
          obtain ⟨n, hn⟩ : ∃ n : Nat, e + e' = n - 298 := ⟨(e + e' + 298).toNat, by omega⟩
          have hUnits : m * 2 ^ (e + 149).toNat * (m' * 2 ^ (e' + 149).toNat) = m * m' * 2 ^ n := by
            have hn : n = (e + 149).toNat + (e' + 149).toNat := by omega
            rw [hn, Nat.pow_add]
            ring
          rw [hn] at hFirst
          rw [hUnits, ← place?_pack_round (Nat.mul_pos hPos hPos') hFirst, Number.productPlace?,
            UnpackedFloat.mul, hn]
          rfl

/-- If a product is infinite or no number and has a place, this is the last one. -/
theorem eq_infinityField_of_mul {p : Int} (h : productPlace? u v = some p)
    (hMul : UnpackedFloat.mul .binary32 u v = .infinity .positive ∨
      UnpackedFloat.mul .binary32 u v = .notANumber) : p = Format.single.infinityField := by
  rcases hMul with hMul | hMul
  · rw [productPlace?_eq hMul trivial] at h
    exact (Option.some.inj h).symm
  · rw [productPlace?_eq hMul trivial] at h
    cases h

theorem productPlace?_infinity_left (hv : v = .infinity .positive ∨ ∃ b, Units v b) {p : Int}
    (h : productPlace? (.infinity .positive) v = some p) : p = Format.single.infinityField := by
  rcases hv with rfl | ⟨b, hb⟩
  · exact eq_infinityField_of_mul h (.inl rfl)
  · cases hb with
    | zero s => exact eq_infinityField_of_mul h (.inr rfl)
    | finite m e hPos hRounded => exact eq_infinityField_of_mul h (.inl rfl)

theorem productPlace?_infinity_right (hu : u = .infinity .positive ∨ ∃ a, Units u a) {p : Int}
    (h : productPlace? u (.infinity .positive) = some p) : p = Format.single.infinityField := by
  rcases hu with rfl | ⟨a, ha⟩
  · exact eq_infinityField_of_mul h (.inl rfl)
  · cases ha with
    | zero s => exact eq_infinityField_of_mul h (.inr rfl)
    | finite m e hPos hRounded => exact eq_infinityField_of_mul h (.inl rfl)

/-- If the first factor is larger, then a product of values that are not negative is no smaller. -/
theorem productPlace?_mono (hu : Representable u) (hv : Representable v) (hw : Representable w)
    {x y z p q : Int} (hx : place? u = some x) (hy : place? v = some y) (hz : place? w = some z)
    (hx0 : 0 ≤ x) (hxy : x ≤ y) (hz0 : 0 ≤ z) (hp : productPlace? u w = some p)
    (hq : productPlace? v w = some q) : p ≤ q := by
  have hMagnitude := eq_infinity_or_units hu hx hx0
  have hMagnitude' := eq_infinity_or_units hv hy (hx0.trans hxy)
  have hMagnitude'' := eq_infinity_or_units hw hz hz0
  rcases hMagnitude'' with rfl | ⟨c, hc⟩
  · rw [productPlace?_infinity_right hMagnitude hp, productPlace?_infinity_right hMagnitude' hq]
  · rcases hMagnitude' with rfl | ⟨b, hb⟩
    · rw [productPlace?_infinity_left (.inr ⟨c, hc⟩) hq]
      rcases hMagnitude with rfl | ⟨a, ha⟩
      · rw [productPlace?_infinity_left (.inr ⟨c, hc⟩) hp]
      · obtain rfl := Option.some.inj ((ha.productPlace? hc).symm.trans hp)
        exact Int.ofNat_le.2 (Format.nearest_le_infinityField _ (by positivity))
    · rcases hMagnitude with rfl | ⟨a, ha⟩
      · obtain rfl := Option.some.inj hx
        exact absurd hxy (not_le.2 (hb.place_lt hv hy))
      · obtain rfl := Option.some.inj ((ha.productPlace? hc).symm.trans hp)
        obtain rfl := Option.some.inj ((hb.productPlace? hc).symm.trans hq)
        exact Int.ofNat_le.2 (Format.nearest_mono _ (by decide) (by positivity)
          (Nat.mul_le_mul_right c (ha.le_of_le hb hx hy hxy)))

/-- Where a number stands among all numbers. -/
def placeOf? (x : Float32) : Option Int :=
  place? x.toModel.unpack

/-- Numbers are compared by their places, and what has no place is comparable with nothing. -/
theorem single_le_iff {x y : Float32} :
    x ≤ y ↔ ∃ p q, placeOf? x = some p ∧ placeOf? y = some q ∧ p ≤ q := by
  refine Iff.trans ?_ (le_iff_place (representable_unpack _) (representable_unpack _))
  exact decide_eq_true_iff

theorem placeOf?_ofBits {bits : UInt32} (h : bits.toNat ≤ Format.single.infinityField) :
    placeOf? (Float32.ofBits bits) = some (bits.toNat : Int) :=
  (congrArg place? (unpack_pack (representable_unpack _))).trans (place?_unpack h)

/-- An integer is converted to the number nearest to it. -/
theorem placeOf?_ofNat (n : Nat) :
    placeOf? (Scalar.ofNat n) = some ((Format.single.nearest false n 1 : Nat) : Int) := by
  have hBits := Format.nearest_le_infinityField Format.single (a := n) (b := 1) one_ne_zero
  have hNat : (Format.single.nearest false n 1).toUInt32.toNat = Format.single.nearest false n 1 :=
    UInt32.toNat_ofNat_of_lt (hBits.trans_lt (by decide))
  have hPlace := placeOf?_ofBits (hNat.trans_le hBits)
  rwa [hNat] at hPlace

/-- Every value that can be compared with itself has a place. -/
theorem exists_place_of_isNumber {x : Float32} (h : Scalar.IsNumber x) : ∃ p, placeOf? x = some p := by
  obtain ⟨p, _, hp, _, _⟩ := single_le_iff.1 h
  exact ⟨p, hp⟩

instance : OrderedScalar Float32 where
  le_trans hab hbc := by
    obtain ⟨p, q, hp, hq, hpq⟩ := single_le_iff.1 hab
    obtain ⟨q', r, hq', hr, hqr⟩ := single_le_iff.1 hbc
    obtain rfl := Option.some.inj (hq.symm.trans hq')
    exact single_le_iff.2 ⟨p, r, hp, hr, hpq.trans hqr⟩
  ofNat_le_ofNat h := by
    refine single_le_iff.2 ⟨_, _, placeOf?_ofNat _, placeOf?_ofNat _, Int.ofNat_le.2 ?_⟩
    exact Format.nearest_mono _ (by decide) one_ne_zero h
  mul_le_mul_right ha hab hc hac hbc := by
    obtain ⟨o, x, ho, hx, hox⟩ := single_le_iff.1 ha
    obtain ⟨x', y, hx', hy, hxy⟩ := single_le_iff.1 hab
    obtain ⟨o', z, ho', hz, hoz⟩ := single_le_iff.1 hc
    obtain ⟨p, hp⟩ := exists_place_of_isNumber hac
    obtain ⟨q, hq⟩ := exists_place_of_isNumber hbc
    obtain rfl := Option.some.inj (hx.symm.trans hx')
    obtain rfl := Option.some.inj (ho.symm.trans (placeOf?_ofNat 0))
    obtain rfl := Option.some.inj (ho'.symm.trans (placeOf?_ofNat 0))
    exact single_le_iff.2 ⟨p, q, hp, hq, productPlace?_mono (representable_unpack _)
      (representable_unpack _) (representable_unpack _) hx hy hz hox hxy hoz hp hq⟩

end Changelog.Number
