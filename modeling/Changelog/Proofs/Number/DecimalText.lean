import Changelog.Number.Integer
import Mathlib.Algebra.Ring.Int.Defs

/-! Integers written in decimal digits. What is written reads back as the same integer, within 32 bits if it
fits there. -/

namespace Changelog.Number

/-- An integer as it is written: its digits, after a minus sign if it is negative. -/
def decimalText (x : Int) : Text :=
  (toString x).toList

theorem decimalText_natCast (n : Nat) : decimalText n = Nat.toDigits 10 n := by
  have hRepr : toString (n : Int) = n.repr := rfl
  rw [decimalText, hRepr, Nat.repr_eq_ofList_toDigits, String.toList_ofList]

theorem decimalText_negSucc (n : Nat) : decimalText (.negSucc n) = '-' :: Nat.toDigits 10 (n + 1) := by
  have hRepr : toString (Int.negSucc n) = "-" ++ (n + 1).repr := rfl
  rw [decimalText, hRepr, Nat.repr_eq_ofList_toDigits]
  simp

theorem isDigit_of_mem_toDigits {n : Nat} {c : Char} (h : c ∈ Nat.toDigits 10 n) : c.isDigit = true :=
  Nat.isDigit_of_mem_toDigits (by decide) (by decide) h

/-- A numeral has no other characters than digits and the minus sign. -/
theorem mem_decimalText {x : Int} {c : Char} (h : c ∈ decimalText x) : c.isDigit = true ∨ c = '-' := by
  cases x with
  | ofNat n =>
      rw [Int.ofNat_eq_natCast, decimalText_natCast] at h
      exact .inl (isDigit_of_mem_toDigits h)
  | negSucc n =>
      rw [decimalText_negSucc] at h
      rcases List.mem_cons.1 h with rfl | hDigit
      · exact .inr rfl
      · exact .inl (isDigit_of_mem_toDigits hDigit)

theorem decimalText_ne_nil (x : Int) : decimalText x ≠ [] := by
  cases x with
  | ofNat n =>
      rw [Int.ofNat_eq_natCast, decimalText_natCast]
      exact Nat.toDigits_ne_nil
  | negSucc n => simp [decimalText_negSucc]

/-- Digits read back as the number they were written for. -/
theorem readDigits?_toDigits (n : Nat) : readDigits? (Nat.toDigits 10 n) = some n := by
  have hDigits : (Nat.toDigits 10 n).all Char.isDigit = true :=
    List.all_eq_true.2 fun c hc => isDigit_of_mem_toDigits hc
  have hValue : ofDigits (Nat.toDigits 10 n) = n := Nat.ofDigitChars_ten_toDigits
  rw [readDigits?, if_pos ⟨Nat.toDigits_ne_nil, hDigits⟩, hValue]

theorem readInt?_decimalText (x : Int) : readInt? (decimalText x) = some x := by
  cases x with
  | ofNat n =>
      rw [Int.ofNat_eq_natCast, decimalText_natCast]
      have hDigit : ∀ c ∈ Nat.toDigits 10 n, c.isDigit = true := fun c hc => isDigit_of_mem_toDigits hc
      have hRead := readDigits?_toDigits n
      unfold readInt?
      split
      · rename_i hText
        simp [hText] at hDigit
      · rename_i hText
        simp [hText] at hDigit
      · rw [hRead]
        rfl
  | negSucc n =>
      rw [decimalText_negSucc, readInt?, readDigits?_toDigits]
      rfl

/-- The reading fails only for integers beyond 32 bits. -/
theorem readInt32?_decimalText (x : Int) :
    readInt32? (decimalText x) = if -2 ^ 31 ≤ x ∧ x < 2 ^ 31 then some x else none := by
  simp [readInt32?, readInt?_decimalText, fits32, Option.filter]

end Changelog.Number
