import Changelog.Proofs.Number.Rounding
import Mathlib

/-! The places of single-precision numbers. The bits of a number without the sign count the numbers from zero
on, so comparing two numbers is comparing their places in that count. -/

namespace Changelog.Number

open Float.Model (UnpackedFloat)
open Float.Model.UnpackedFloat

/-- A mantissa and an exponent as rounding leaves them: the mantissa has at most 24 digits, and it has all of
them unless the exponent is the least. -/
structure Rounded (m : Nat) (e : Int) : Prop where
  mantissa_lt : m < 2 ^ 24
  minExponent_le : -149 ≤ e
  full : e = -149 ∨ 2 ^ 23 ≤ m

/-- What the bits of a positive number count. -/
def singleField (m : Nat) (e : Int) : Nat :=
  (e + 149).toNat * 2 ^ 23 + m

/-- Where a number stands among all numbers, zero standing at 0. -/
def place? : UnpackedFloat → Option Int
  | .notANumber => none
  | .infinity s => some (s.apply Format.single.infinityField)
  | .zero _ => some 0
  | .finite s m e _ => some (s.apply (singleField m e))

/-- The value has a place of its own in the bits: its exponent is not too large. -/
def Representable : UnpackedFloat → Prop
  | .finite _ m e _ => Rounded m e ∧ e ≤ 104
  | _ => True

theorem infinityField_single : Format.single.infinityField = 255 * 2 ^ 23 := rfl

variable {m m' : Nat} {e e' : Int}

/-- Of rounded numbers the one with the larger exponent is larger, whatever the mantissas are. -/
theorem Rounded.field_le_iff (h : Rounded m e) (h' : Rounded m' e') :
    singleField m e ≤ singleField m' e' ↔ e < e' ∨ e = e' ∧ m ≤ m' := by
  obtain ⟨hLess, hLeast, hFull⟩ := h
  obtain ⟨hLess', hLeast', hFull'⟩ := h'
  simp only [singleField]
  omega

/-- Infinity comes after all finite numbers. -/
theorem Rounded.field_lt_infinityField (h : Rounded m e) (he : e ≤ 104) :
    singleField m e < Format.single.infinityField := by
  obtain ⟨hLess, hLeast, _⟩ := h
  rw [infinityField_single, singleField]
  omega

/-- Numbers are compared by their exponents first. -/
theorem compare_isLE_iff (e e' : Int) (m m' : Nat) :
    ((compare e e').then (compare m m')).isLE = true ↔ e < e' ∨ e = e' ∧ m ≤ m' := by
  rcases lt_trichotomy e e' with hLess | rfl | hMore
  · simp [Int.compare_eq_lt.2 hLess, hLess]
  · simp [Nat.isLE_compare]
  · have hNot : ¬ e < e' := by omega
    have hNe : e ≠ e' := by omega
    simp [Int.compare_eq_gt.2 hMore, hNot, hNe]

theorem compare_isGE_iff (e e' : Int) (m m' : Nat) :
    ((compare e e').then (compare m m')).isGE = true ↔ e' < e ∨ e' = e ∧ m' ≤ m := by
  rw [← compare_isLE_iff, ← Ordering.isLE_swap, Ordering.swap_then, Int.compare_swap, Nat.compare_swap]

/-- Zero has the first place to itself. -/
theorem singleField_pos (hm : 0 < m) (e : Int) : 0 < singleField m e :=
  Nat.add_pos_right _ hm

/-- Comparing numbers is comparing their places. -/
theorem le_iff_place {u v : UnpackedFloat} (hu : Representable u) (hv : Representable v) :
    u.le v = true ↔ ∃ x y, place? u = some x ∧ place? v = some y ∧ x ≤ y := by
  have hLimit : (0 : Int) < Format.single.infinityField := by decide
  -- two finite numbers are compared by their fields; in all other cases the places differ by more
  cases u with
  | notANumber => simp [UnpackedFloat.le, UnpackedFloat.compare, place?]
  | infinity s =>
      cases v with
      | notANumber => cases s <;> simp [UnpackedFloat.le, UnpackedFloat.compare, place?]
      | infinity s' =>
          cases s <;> cases s' <;>
            simp [UnpackedFloat.le, UnpackedFloat.compare, place?, Sign.apply, compare]
          omega
      | zero s' =>
          cases s <;> simp [UnpackedFloat.le, UnpackedFloat.compare, place?, Sign.apply]
          omega
      | finite s' m' e' hPos' =>
          have hTop' := hv.1.field_lt_infinityField hv.2
          cases s <;> cases s' <;>
            simp [UnpackedFloat.le, UnpackedFloat.compare, place?, Sign.apply] <;> omega
  | zero s =>
      cases v with
      | notANumber => simp [UnpackedFloat.le, UnpackedFloat.compare, place?]
      | infinity s' =>
          cases s' <;> simp [UnpackedFloat.le, UnpackedFloat.compare, place?, Sign.apply]
          omega
      | zero s' => simp [UnpackedFloat.le, UnpackedFloat.compare, place?]
      | finite s' m' e' hPos' =>
          have hField' := singleField_pos hPos' e'
          cases s' <;> simp [UnpackedFloat.le, UnpackedFloat.compare, place?, Sign.apply]
          omega
  | finite s m e hPos =>
      have hField := singleField_pos hPos e
      have hTop := hu.1.field_lt_infinityField hu.2
      cases v with
      | notANumber => simp [UnpackedFloat.le, UnpackedFloat.compare, place?]
      | infinity s' =>
          cases s <;> cases s' <;>
            simp [UnpackedFloat.le, UnpackedFloat.compare, place?, Sign.apply] <;> omega
      | zero s' =>
          cases s <;> simp [UnpackedFloat.le, UnpackedFloat.compare, place?, Sign.apply]
          omega
      | finite s' m' e' hPos' =>
          have hField' := singleField_pos hPos' e'
          cases s <;> cases s' <;>
            simp [UnpackedFloat.le, UnpackedFloat.compare, place?, Sign.apply, compare_isLE_iff,
              compare_isGE_iff, ← hu.1.field_le_iff hv.1, ← hv.1.field_le_iff hu.1]
          omega

theorem toNat_one_append (b : BitVec 23) : (1#1 ++ b).toNat = 2 ^ 23 + b.toNat := by
  rw [BitVec.toNat_append, ← Nat.shiftLeft_add_eq_or_of_lt b.isLt]
  rfl

theorem toNat_unpackMantissa (bits : BitVec 32) :
    (@unpackMantissa .binary32 bits).toNat = bits.toNat % 2 ^ 23 := by
  simp [unpackMantissa, BitVec.extractLsb]

theorem toNat_unpackExponent (bits : BitVec 32) :
    (@unpackExponent .binary32 bits).toNat = bits.toNat / 2 ^ 23 % 2 ^ 8 := by
  simp [unpackExponent, BitVec.extractLsb, Nat.shiftRight_eq_div_pow]

theorem unpackSign_of_lt {bits : BitVec 32} (h : bits.toNat < 2 ^ 31) :
    @unpackSign .binary32 bits = 0#1 := by
  refine BitVec.eq_of_toNat_eq ?_
  simp [unpackSign, BitVec.extractLsb, Nat.shiftRight_eq_div_pow]
  omega

theorem exponent_eq_iff (bits : BitVec 32) (x : BitVec 8) :
    @unpackExponent .binary32 bits = x ↔ bits.toNat / 2 ^ 23 % 2 ^ 8 = x.toNat := by
  rw [← toNat_unpackExponent, BitVec.toNat_inj]

theorem mantissa_eq_zero_iff (bits : BitVec 32) :
    @unpackMantissa .binary32 bits = 0#23 ↔ bits.toNat % 2 ^ 23 = 0 := by
  rw [← toNat_unpackMantissa, ← BitVec.toNat_inj]
  rfl

/-- Whatever the bits are, the number in them is a rounded one. -/
theorem representable_unpack (bits : BitVec 32) : Representable (unpack .binary32 bits) := by
  have hBias : (Float.Model.Format.binary32.exponentBias : Int) = 127 := by decide
  have hMantissa := toNat_unpackMantissa bits
  have hExponent := toNat_unpackExponent bits
  unfold unpack
  dsimp only
  split_ifs with hTop hZero hBottom hZero
  · trivial
  · trivial
  · trivial
  · rw [Representable, hBottom, hBias]
    exact ⟨⟨by omega, by decide, .inl rfl⟩, by decide⟩
  · rw [exponent_eq_iff] at hTop hBottom
    have hTop : bits.toNat / 2 ^ 23 % 2 ^ 8 ≠ 255 := hTop
    have hBottom : bits.toNat / 2 ^ 23 % 2 ^ 8 ≠ 0 := hBottom
    rw [Representable, hBias, toNat_one_append]
    exact ⟨⟨by omega, by omega, .inr (by omega)⟩, by omega⟩

/-- Of numbers with the least exponent the first digit is not written, being zero; of all others, being
one. -/
theorem unpack_packComponents (s : Sign) (exponent : BitVec 8) (mantissa : BitVec 23)
    (hInfinity : exponent ≠ -1#8) :
    unpack .binary32 (packComponents .binary32 s exponent mantissa) =
      if exponent = 0#8 then
        if h : mantissa = 0#23 then .zero s
        else .finite s mantissa.toNat (-149) (by simpa [BitVec.toNat_pos, BitVec.pos_iff_ne_zero])
      else .finite s (1#1 ++ mantissa).toNat ((exponent.toNat : Int) - 150)
        (by rw [toNat_one_append]; omega) := by
  have hBias : (Float.Model.Format.binary32.exponentBias : Int) = 127 := by decide
  unfold unpack
  simp only [unpackMantissa_packComponents, unpackExponent_packComponents,
    unpackSign_packComponents, Sign.ofBitVec_toBitVec, hInfinity, if_false]
  split_ifs with hZero
  · rfl
  · subst hZero
    congr 1
  · rfl

theorem unpack_packedInfinity (s : Sign) :
    unpack .binary32 (packedInfinity .binary32 s) = .infinity s := by
  unfold unpack packedInfinity
  simp only [unpackMantissa_packComponents, unpackExponent_packComponents,
    unpackSign_packComponents, Sign.ofBitVec_toBitVec]
  rfl

/-- A finite number is packed by its fields; a number that is too large becomes infinite. -/
theorem pack_finite (s : Sign) (hPos : 0 < m) (h : Rounded m e) :
    pack .binary32 (.finite s m e hPos) =
      if 104 < e then packedInfinity .binary32 s
      else if 2 ^ 23 ≤ m then
        packComponents .binary32 s (BitVec.ofNat 8 (e + 150).toNat) (BitVec.ofNat 23 m)
      else packComponents .binary32 s 0#8 (BitVec.ofNat 23 m) := by
  have hBias : (Float.Model.Format.binary32.exponentBias : Int) = 127 := by decide
  have hExponent : (e + (Float.Model.Format.binary32.exponentBias : Int) + (23 : Nat)).toNat =
      (e + 150).toNat := by rw [hBias]; push_cast; omega
  have hDigits : m.log2 + 1 = Float.Model.Format.binary32.mantissaBits ↔ 2 ^ 23 ≤ m := by
    have hLess := (Nat.log2_lt hPos.ne').2 h.mantissa_lt
    rw [← Nat.le_log2 hPos.ne']
    simp only [Float.Model.Format.mantissaBits]
    omega
  have hLarge : 2 ^ 8 ≤ (e + 150).toNat + 1 ↔ 104 < e := by omega
  simp only [pack, hExponent, hDigits, hLarge]

/-- What is packed is read again. -/
theorem unpack_pack_finite (s : Sign) (hPos : 0 < m) (h : Rounded m e) :
    unpack .binary32 (pack .binary32 (.finite s m e hPos)) =
      if 104 < e then .infinity s else .finite s m e hPos := by
  obtain ⟨hLess, hLeast, hFull⟩ := h
  rw [pack_finite s hPos ⟨hLess, hLeast, hFull⟩]
  split_ifs with hLarge hNormal
  · exact unpack_packedInfinity s
  · have hExponent : (BitVec.ofNat 8 (e + 150).toNat).toNat = (e + 150).toNat := by
      rw [BitVec.toNat_ofNat, Nat.mod_eq_of_lt]
      omega
    have hMantissa : (1#1 ++ BitVec.ofNat 23 m).toNat = m := by
      rw [toNat_one_append, BitVec.toNat_ofNat]
      omega
    rw [unpack_packComponents, if_neg]
    · simp only [hExponent, hMantissa, UnpackedFloat.finite.injEq, true_and]
      omega
    · intro hZero
      rw [hZero] at hExponent
      simp at hExponent
      omega
    · intro hInfinity
      rw [hInfinity] at hExponent
      simp at hExponent
      omega
  · have hMantissa : (BitVec.ofNat 23 m).toNat = m := by
      rw [BitVec.toNat_ofNat, Nat.mod_eq_of_lt]
      omega
    obtain rfl : e = -149 := hFull.resolve_right hNormal
    have hNe : BitVec.ofNat 23 m ≠ 0#23 := fun hZero => by
      rw [hZero] at hMantissa
      exact hPos.ne hMantissa
    rw [unpack_packComponents _ _ _ (by decide), if_pos rfl, dif_neg hNe]
    simp only [hMantissa]

theorem unpack_pack {u : UnpackedFloat} (hu : Representable u) :
    unpack .binary32 (pack .binary32 u) = u := by
  cases u with
  | notANumber => rfl
  | infinity s => exact unpack_packedInfinity s
  | zero s => cases s <;> rfl
  | finite s m e hPos => rw [unpack_pack_finite s hPos hu.1, if_neg (not_lt.2 hu.2)]

/-- A rounded number is packed at its own place, or at that of infinity if it lies beyond. -/
theorem place?_pack_finite (hPos : 0 < m) (h : Rounded m e) :
    place? (unpack .binary32 (pack .binary32 (.finite .positive m e hPos))) =
      some ((min (singleField m e) Format.single.infinityField : Nat) : Int) := by
  rw [unpack_pack_finite _ hPos h]
  split_ifs with hLarge
  · obtain ⟨_, _, hFull⟩ := h
    rw [min_eq_right (by rw [infinityField_single, singleField]; omega)]
    rfl
  · rw [min_eq_left (h.field_lt_infinityField (not_lt.1 hLarge)).le]
    rfl

/-- The bits of a number that is not negative count the place of the number. -/
theorem place?_unpack {bits : BitVec 32} (h : bits.toNat ≤ Format.single.infinityField) :
    place? (unpack .binary32 bits) = some (bits.toNat : Int) := by
  rw [infinityField_single] at h
  have hBias : (Float.Model.Format.binary32.exponentBias : Int) = 127 := by decide
  have hMantissa := toNat_unpackMantissa bits
  have hExponent := toNat_unpackExponent bits
  unfold unpack
  simp only [unpackSign_of_lt (by omega : bits.toNat < 2 ^ 31)]
  split_ifs with hTop hZero hBottom hZero
  · rw [exponent_eq_iff] at hTop
    rw [mantissa_eq_zero_iff] at hZero
    have hTop : bits.toNat / 2 ^ 23 % 2 ^ 8 = 255 := hTop
    exact congrArg some (by omega : ((255 * 2 ^ 23 : Nat) : Int) = _)
  · rw [exponent_eq_iff] at hTop
    rw [mantissa_eq_zero_iff] at hZero
    have hTop : bits.toNat / 2 ^ 23 % 2 ^ 8 = 255 := hTop
    omega
  · rw [exponent_eq_iff] at hBottom
    rw [mantissa_eq_zero_iff] at hZero
    have hBottom : bits.toNat / 2 ^ 23 % 2 ^ 8 = 0 := hBottom
    exact congrArg some (by omega : ((0 : Nat) : Int) = _)
  · have hBottom : (@unpackExponent .binary32 bits).toNat = 0 := congrArg BitVec.toNat hBottom
    refine congrArg some (?_ : ((singleField _ _ : Nat) : Int) = _)
    rw [singleField, hBias, hMantissa]
    omega
  · rw [exponent_eq_iff] at hTop hBottom
    have hTop : bits.toNat / 2 ^ 23 % 2 ^ 8 ≠ 255 := hTop
    have hBottom : bits.toNat / 2 ^ 23 % 2 ^ 8 ≠ 0 := hBottom
    refine congrArg some (?_ : ((singleField _ _ : Nat) : Int) = _)
    rw [singleField, hBias, toNat_one_append, hMantissa]
    omega

end Changelog.Number
