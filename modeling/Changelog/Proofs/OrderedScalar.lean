import Changelog.Proofs.Exact

/-! What comparisons may be trusted with when numbers are rounded. Nothing is said of values that are not
numbers, so the laws hold with exact numbers and with rounded ones. -/

namespace Changelog

namespace Scalar

/-- The value is a number: it can be compared, at least with itself. -/
def IsNumber {α : Type} [Scalar α] (a : α) : Prop :=
  a ≤ a

end Scalar

/-- Numbers whose comparisons may be chained. Larger integers convert to no smaller numbers, and a larger
factor gives no smaller product, as long as the products are numbers. -/
class OrderedScalar (α : Type) [Scalar α] : Prop where
  le_trans {a b c : α} : a ≤ b → b ≤ c → a ≤ c
  ofNat_le_ofNat {m n : Nat} : m ≤ n → (Scalar.ofNat m : α) ≤ Scalar.ofNat n
  mul_le_mul_right {a b c : α} : Scalar.zero ≤ a → a ≤ b → Scalar.zero ≤ c →
    Scalar.IsNumber (a * c) → Scalar.IsNumber (b * c) → a * c ≤ b * c

instance : OrderedScalar ℚ where
  le_trans := fun hab hbc => hab.trans hbc
  ofNat_le_ofNat h := Nat.cast_le.2 h
  mul_le_mul_right _ hab hc _ _ := mul_le_mul_of_nonneg_right hab hc

end Changelog
