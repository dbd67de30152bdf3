import Changelog.Proofs.Number.Product

/-! The bits of a single-precision number and the number that it is compared by stand for one value. So a
number is finite and above zero if its bits say so. -/

namespace Changelog.Number

open Float.Model (UnpackedFloat)
open Float.Model.UnpackedFloat

/-- A finite number above zero. -/
def Binary.IsPositive : Binary → Prop
  | finite false mantissa _ => 0 < mantissa
  | finite true _ _ | nan | infinite _ => False

instance : DecidablePred Binary.IsPositive
  | .finite false mantissa _ => inferInstanceAs (Decidable (0 < mantissa))
  | .finite true _ _ | .nan | .infinite _ => inferInstanceAs (Decidable False)

@[simp] theorem isPositive_finite_iff {negative : Bool} {mantissa : Nat} {exponent : Int} :
    (Binary.finite negative mantissa exponent).IsPositive ↔ negative = false ∧ 0 < mantissa := by
  cases negative <;> simp [Binary.IsPositive]

@[simp] theorem not_isPositive_nan : ¬ Binary.nan.IsPositive :=
  id

@[simp] theorem not_isPositive_infinite (negative : Bool) : ¬ (Binary.infinite negative).IsPositive :=
  id

/-- Whether the sign is the one of negative numbers. -/
def isNegative : Sign → Bool
  | .positive => false
  | .negative => true

/-- The value of an unpacked number. -/
def valueOf : UnpackedFloat → Binary
  | .notANumber => .nan
  | .infinity s => .infinite (isNegative s)
  | .zero s => .finite (isNegative s) 0 (-149)
  | .finite s m e _ => .finite (isNegative s) m e

/-- The sign is the first of the bits. -/
theorem isNegative_unpackSign (bits : BitVec 32) :
    isNegative (Sign.ofBitVec (@unpackSign .binary32 bits)) = decide (2 ^ 31 ≤ bits.toNat) := by
  by_cases hSmall : bits.toNat < 2 ^ 31
  · rw [unpackSign_of_lt hSmall, decide_eq_false (not_le.2 hSmall)]
    rfl
  · have hBit : @unpackSign .binary32 bits = 1#1 := by
      apply BitVec.eq_of_toNat_eq
      have hLess := bits.isLt
      simp [unpackSign, BitVec.extractLsb, Nat.shiftRight_eq_div_pow]
      omega
    rw [hBit, decide_eq_true (not_lt.1 hSmall)]
    rfl

/-- The fields of the bits: the exponent of 255 belongs to what is not finite, the one of 0 to the least
numbers. -/
theorem decode_single (n : Nat) :
    Format.single.decode n =
      if n / 2 ^ 23 % 2 ^ 8 = 255 then
        if n % 2 ^ 23 = 0 then .infinite (2 ^ 31 ≤ n) else .nan
      else if n / 2 ^ 23 % 2 ^ 8 = 0 then .finite (2 ^ 31 ≤ n) (n % 2 ^ 23) (-149)
      else .finite (2 ^ 31 ≤ n) (2 ^ 23 + n % 2 ^ 23) ((n / 2 ^ 23 % 2 ^ 8 : Nat) - 150) := by
  have hSignBit : Format.single.signBit = 2 ^ 31 := rfl
  have hHalf : Nat.pow 2 (Format.single.precision - 1) = 2 ^ 23 := rfl
  have hLeast : Format.single.minExponent = -149 := rfl
  have hFraction : n % 2 ^ 31 % 2 ^ 23 = n % 2 ^ 23 := by omega
  have hExponent : n % 2 ^ 31 / 2 ^ 23 = n / 2 ^ 23 % 2 ^ 8 := by omega
  unfold Format.decode
  simp only [hSignBit, hHalf, hLeast, infinityField_single, hFraction, hExponent]
  split_ifs <;> first | omega | rfl | (congr 1; omega)

/-- Both ways of reading the bits come to the same value. -/
theorem decode_toNat (bits : BitVec 32) :
    Format.single.decode bits.toNat = valueOf (unpack .binary32 bits) := by
  have hBias : (Float.Model.Format.binary32.exponentBias : Int) = 127 := by decide
  have hMantissa := toNat_unpackMantissa bits
  have hExponent := toNat_unpackExponent bits
  have hTop : bits.toNat / 2 ^ 23 % 2 ^ 8 = 255 ↔ @unpackExponent .binary32 bits = -1#8 :=
    (exponent_eq_iff bits (-1#8)).symm
  have hBottom : bits.toNat / 2 ^ 23 % 2 ^ 8 = 0 ↔ @unpackExponent .binary32 bits = 0#8 :=
    (exponent_eq_iff bits 0#8).symm
  rw [decode_single]
  -- both sides ask the same questions about the fields now
  simp only [hTop, hBottom, ← mantissa_eq_zero_iff, ← isNegative_unpackSign]
  unfold unpack
  dsimp only
  split_ifs with hInfinite hZero hLeast hZero
  · rfl
  · rfl
  · rw [mantissa_eq_zero_iff] at hZero
    rw [hZero]
    rfl
  · rw [valueOf, hLeast, hBias, hMantissa]
    rfl
  · rw [valueOf, toNat_one_append, hBias, hMantissa, hExponent]
    rfl

/-- So the value of a number is that of the form in which it is compared. -/
theorem ofSingle_eq (x : Float32) : ofSingle x = valueOf x.toModel.unpack :=
  decode_toNat _

theorem ofSingle_ofBits (bits : UInt32) :
    ofSingle (Float32.ofBits bits) = Format.single.decode bits.toNat := by
  have hUnpack : (Float32.ofBits bits).toModel.unpack = unpack .binary32 bits.toBitVec :=
    unpack_pack (representable_unpack _)
  rw [ofSingle_eq, hUnpack, ← decode_toNat]
  rfl

/-- The bits of positive numbers come after those of zero, and before those of infinity. -/
theorem isPositive_decode_iff {n : Nat} (h : n < 2 ^ 32) :
    (Format.single.decode n).IsPositive ↔ 0 < n ∧ n < Format.single.infinityField := by
  rw [decode_single, infinityField_single]
  split_ifs <;> simp <;> omega

/-- A number is finite and above zero by its value just when comparing it says so. -/
theorem isPositive_ofSingle_iff (x : Float32) :
    (ofSingle x).IsPositive ↔ x.isFinite = true ∧ 0 < x := by
  have hZero : (0 : Float32).toModel.unpack = .zero .positive := rfl
  have hLess : 0 < x ↔ UnpackedFloat.lt (.zero .positive) x.toModel.unpack = true := by
    rw [← hZero]
    exact decide_eq_true_iff
  have hFinite : x.isFinite = x.toModel.unpack.isFinite := rfl
  rw [ofSingle_eq, hLess, hFinite]
  cases x.toModel.unpack with
  | notANumber => simp [valueOf, UnpackedFloat.isFinite]
  | infinity s => simp [valueOf, UnpackedFloat.isFinite]
  | zero s => simp [valueOf, UnpackedFloat.lt, UnpackedFloat.compare]
  | finite s m e hPos =>
      cases s <;>
        simp [valueOf, isNegative, UnpackedFloat.isFinite, UnpackedFloat.lt, UnpackedFloat.compare, hPos]

theorem zero_le_of_isPositive {x : Float32} (h : (ofSingle x).IsPositive) : Scalar.zero ≤ x := by
  rw [single_le_iff, Scalar.zero, placeOf?_ofNat, placeOf?]
  rw [ofSingle_eq] at h
  cases hx : x.toModel.unpack with
  | notANumber => simp [hx, valueOf] at h
  | infinity s => simp [hx, valueOf] at h
  | zero s => simp [hx, valueOf] at h
  | finite s m e hPos =>
      have hSign : isNegative s = false := by simpa [hx, valueOf, hPos] using h
      cases s with
      | positive => exact ⟨_, _, rfl, rfl, Int.natCast_nonneg _⟩
      | negative => cases hSign

end Changelog.Number
