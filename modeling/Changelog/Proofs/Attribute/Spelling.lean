import Changelog.Proofs.Attribute.Token
import Changelog.Proofs.Number.DecimalText
import Mathlib.Data.List.DropRight

/-! How integers and pairs of them may be written as values of attributes: with white space around the numbers
and around the whole, with a comma or the letter x between two numbers, and with parentheses or without. Every
such text reads back as what was written, unless a number does not fit in 32 bits. -/

namespace Changelog

namespace Text

variable {p : Char → Bool} {c separator : Char} {text padded head : Text}

/-- A text is cut at the first separator if the part before it has none. -/
theorem splitOnce?_append_cons (hHead : ∀ c ∈ head, p c = false) (h : p separator = true) (tail : Text) :
    splitOnce? p (head ++ separator :: tail) = some (head, tail) := by
  induction head with
  | nil => simp [splitOnce?, h]
  | cons c rest ih =>
      obtain ⟨hFirst, hRest⟩ := List.forall_mem_cons.1 hHead
      simp [splitOnce?, hFirst, ih hRest]

theorem splitOnce?_eq_none (h : separator ∉ text) : splitOnce? (· == separator) text = none := by
  induction text with
  | nil => rfl
  | cons c rest ih =>
      simp only [List.mem_cons, not_or] at h
      simp [splitOnce?, Ne.symm h.1, ih h.2]

/-- A character that stays protects all that comes behind it. -/
theorem dropWhile_append_cons (h : p c = false) (front rest : Text) :
    (front ++ c :: rest).dropWhile p = front.dropWhile p ++ c :: rest := by
  rw [List.dropWhile_append]
  split
  · rename_i hEmpty
    rw [List.isEmpty_iff.1 hEmpty, List.dropWhile_cons_of_neg (by simp [h]), List.nil_append]
  · rfl

theorem rdropWhile_append_cons (h : p c = false) (front rest : Text) :
    (front ++ c :: rest).rdropWhile p = front ++ c :: rest.rdropWhile p := by
  have hReverse : (front ++ c :: rest).reverse = rest.reverse ++ c :: front.reverse := by simp
  rw [List.rdropWhile, hReverse, dropWhile_append_cons h]
  simp [List.rdropWhile]

/-- Characters that stay keep everything between them. -/
theorem rdropWhile_dropWhile_between {q : Char → Bool} {first last : Char} (hFirst : p first = false)
    (hLast : q last = false) (front mid back : Text) :
    ((front ++ first :: (mid ++ last :: back)).dropWhile p).rdropWhile q =
      front.dropWhile p ++ first :: (mid ++ last :: back.rdropWhile q) := by
  have hSplit : front.dropWhile p ++ first :: (mid ++ last :: back) =
      (front.dropWhile p ++ first :: mid) ++ last :: back := by simp
  rw [dropWhile_append_cons hFirst, hSplit, rdropWhile_append_cons hLast]
  simp

theorem trimBy_eq_self (h : ∀ c ∈ text, p c = false) : trimBy p text = text := by
  have hDrop {text : Text} (h : ∀ c ∈ text, p c = false) : text.dropWhile p = text :=
    List.dropWhile_eq_self_iff.2 fun hLength => by simp [h _ (List.getElem_mem hLength)]
  rw [trimBy, hDrop h, hDrop fun c hc => h c (List.mem_reverse.1 hc), List.reverse_reverse]

theorem isAllBlank_iff : isAllBlank text = true ↔ ∀ c ∈ text, isBlank c = true :=
  List.all_eq_true

/-- A text with white space around it. -/
def Padded (text padded : Text) : Prop :=
  ∃ front back, padded = front ++ text ++ back ∧ isAllBlank front = true ∧ isAllBlank back = true

/-- Trimming undoes the padding of a text without white space of its own. -/
theorem trim_padded (h : Padded text padded) (hText : ∀ c ∈ text, isBlank c = false) :
    trim padded = text := by
  obtain ⟨front, back, rfl, hFront, hBack⟩ := h
  rw [trim, trimBy_append_right (isAllBlank_iff.1 hBack), trimBy_append_left (isAllBlank_iff.1 hFront),
    trimBy_eq_self hText]

/-- White space, brackets and white space again: without the white space at the front and then the brackets, at
most white space is left. -/
theorem isAllBlank_dropWhile_dropWhile {bracket : Char} {outer brackets inner : Text}
    (hBracket : isBlank bracket = false) (hOuter : isAllBlank outer = true)
    (hBrackets : ∀ c ∈ brackets, c = bracket) (hInner : isAllBlank inner = true) :
    isAllBlank (((outer ++ brackets ++ inner).dropWhile isBlank).dropWhile (· == bracket)) = true := by
  rw [isAllBlank_iff] at hInner
  rw [List.append_assoc, List.dropWhile_append_of_pos (isAllBlank_iff.1 hOuter)]
  cases brackets with
  | nil =>
      -- without brackets, all of it goes at once
      have hNone : inner.dropWhile isBlank = [] := List.dropWhile_eq_nil_iff.2 hInner
      rw [List.nil_append, hNone]
      rfl
  | cons c rest =>
      obtain rfl := hBrackets c (List.mem_cons_self ..)
      have hPass : ∀ d ∈ c :: rest, (d == c) = true := fun d hd => by simpa using hBrackets d hd
      rw [List.cons_append, List.dropWhile_cons_of_neg (by simp [hBracket]), ← List.cons_append,
        List.dropWhile_append_of_pos hPass, isAllBlank_iff]
      exact fun d hd => hInner d ((List.dropWhile_sublist _).subset hd)

/-- The same at the other end of a text. -/
theorem isAllBlank_rdropWhile_rdropWhile {bracket : Char} {inner brackets outer : Text}
    (hBracket : isBlank bracket = false) (hOuter : isAllBlank outer = true)
    (hBrackets : ∀ c ∈ brackets, c = bracket) (hInner : isAllBlank inner = true) :
    isAllBlank (((inner ++ brackets ++ outer).rdropWhile isBlank).rdropWhile (· == bracket)) = true := by
  have hReverse {text : Text} (h : isAllBlank text = true) : isAllBlank text.reverse = true :=
    List.all_reverse.trans h
  have hDropped := isAllBlank_dropWhile_dropWhile hBracket (hReverse hOuter)
    (fun c hc => hBrackets c (List.mem_reverse.1 hc)) (hReverse hInner)
  simpa [List.rdropWhile] using hReverse hDropped

end Text

namespace Attribute

open Number (decimalText)
open Text (Padded isAllBlank)

variable {x y : Int} {padded text : Text} {c : Char}

/-- The text writes a pair of integers: two numbers with white space around each, a comma or a letter x between
them, in parentheses or without any, and white space around it all. -/
inductive WritesPair (x y : Int) (text : Text) : Prop
  | intro {left right opening closing : Text} {separator : Char}
      (first : Padded (decimalText x) left) (second : Padded (decimalText y) right)
      (separates : separator ∈ [',', 'x', 'X'])
      (opens : ∀ c ∈ opening, c = '(') (closes : ∀ c ∈ closing, c = ')')
      (written : Padded (opening ++ left ++ separator :: (right ++ closing)) text)

/-- A decimal numeral consists of digits and at most a minus sign. -/
theorem notMem_decimalText (hDigit : c.isDigit = false) (hMinus : c ≠ '-') : c ∉ decimalText x :=
  fun hMem => (Number.mem_decimalText hMem).elim (fun h => by simp [hDigit] at h) hMinus

theorem isBlank_of_isDigit (h : c.isDigit = true) : Text.isBlank c = false := by
  simp only [Char.isDigit, Bool.and_eq_true, decide_eq_true_eq, ge_iff_le, UInt32.le_iff_toNat_le] at h
  have hLow : 48 ≤ c.toNat := h.1
  have hHigh : c.toNat ≤ 57 := h.2
  simp [Text.isBlank]
  omega

theorem isBlank_of_mem_decimalText (h : c ∈ decimalText x) : Text.isBlank c = false := by
  rcases Number.mem_decimalText h with hDigit | rfl
  · exact isBlank_of_isDigit hDigit
  · decide

/-- Nor does white space around a numeral bring in any other character. -/
theorem notMem_padded (h : Padded (decimalText x) padded) (hBlank : Text.isBlank c = false)
    (hDigit : c.isDigit = false) (hMinus : c ≠ '-') : c ∉ padded := by
  obtain ⟨front, back, rfl, hFront, hBack⟩ := h
  simp only [List.mem_append, not_or]
  refine ⟨⟨fun hc => ?_, notMem_decimalText hDigit hMinus⟩, fun hc => ?_⟩
  · simp [Text.isAllBlank_iff.1 hFront c hc] at hBlank
  · simp [Text.isAllBlank_iff.1 hBack c hc] at hBlank

/-- White space around a numeral is not part of it. -/
theorem trim_of_padded (h : Padded (decimalText x) padded) : Text.trim padded = decimalText x :=
  Text.trim_padded h fun _ hc => isBlank_of_mem_decimalText hc

/-- The text without white space at its ends, and then without parentheses there. -/
def withoutParens (value : Text) : Text :=
  ((Text.trim value).dropWhile (· == '(')).rdropWhile (· == ')')

/-- A pair is read in three steps: the parentheses go, the text is cut at a comma or else at an x, and each
side is read as a number. -/
theorem readPair?_eq (value : Text) :
    readPair? value =
      ((Text.splitOnce? (· == ',') (withoutParens value)).or
        (Text.splitOnce? (fun c => c == 'x' || c == 'X') (withoutParens value))).bind fun (x, y) =>
          (Number.readInt32? (Text.trim x)).bind fun x =>
            (Number.readInt32? (Text.trim y)).bind fun y => some (x, y) :=
  rfl

/-- White space and parentheses at the ends leave at most white space behind. -/
theorem exists_withoutParens_between {before opening front back closing after : Text} {first last : Char}
    (hBefore : isAllBlank before = true) (hOpens : ∀ c ∈ opening, c = '(') (hFront : isAllBlank front = true)
    (hFirst : Text.isBlank first = false ∧ first ≠ '(') (mid : Text)
    (hLast : Text.isBlank last = false ∧ last ≠ ')')
    (hBack : isAllBlank back = true) (hCloses : ∀ c ∈ closing, c = ')') (hAfter : isAllBlank after = true) :
    ∃ front' back', isAllBlank front' = true ∧ isAllBlank back' = true ∧
      withoutParens ((before ++ opening ++ front) ++ first :: (mid ++ last :: (back ++ closing ++ after))) =
        front' ++ first :: (mid ++ last :: back') := by
  refine ⟨((before ++ opening ++ front).dropWhile Text.isBlank).dropWhile (· == '('),
    ((back ++ closing ++ after).rdropWhile Text.isBlank).rdropWhile (· == ')'),
    Text.isAllBlank_dropWhile_dropWhile (by decide) hBefore hOpens hFront,
    Text.isAllBlank_rdropWhile_rdropWhile (by decide) hAfter hCloses hBack, ?_⟩
  have hTrim (text : Text) : Text.trim text = (text.dropWhile Text.isBlank).rdropWhile Text.isBlank := rfl
  have hOpen : (first == '(') = false := beq_eq_false_iff_ne.2 hFirst.2
  have hClose : (last == ')') = false := beq_eq_false_iff_ne.2 hLast.2
  rw [withoutParens, hTrim, Text.rdropWhile_dropWhile_between hFirst.1 hLast.1,
    Text.rdropWhile_dropWhile_between (p := (· == '(')) (q := (· == ')')) hOpen hClose]

/-- Inside the parentheses there are the two numbers, each with white space around it. -/
theorem WritesPair.exists_withoutParens (h : WritesPair x y text) :
    ∃ left right separator, withoutParens text = left ++ separator :: right ∧
      Padded (decimalText x) left ∧ Padded (decimalText y) right ∧ separator ∈ [',', 'x', 'X'] := by
  obtain @⟨left, right, opening, closing, separator, ⟨front, between, rfl, hFront, hBetween⟩,
    ⟨gap, back, rfl, hGap, hBack⟩, hSeparator, hOpens, hCloses, before, after, rfl, hBefore, hAfter⟩ := h
  obtain ⟨first, more, hx⟩ := List.exists_cons_of_ne_nil (Number.decimalText_ne_nil x)
  obtain ⟨most, last, hy⟩ :=
    (List.eq_nil_or_concat (decimalText y)).resolve_left (Number.decimalText_ne_nil y)
  rw [List.concat_eq_append] at hy
  have hEnd {z : Int} {c : Char} (hc : c ∈ decimalText z) : Text.isBlank c = false ∧ c ≠ '(' ∧ c ≠ ')' :=
    ⟨isBlank_of_mem_decimalText hc, fun h => notMem_decimalText (by decide) (by decide) (h ▸ hc),
      fun h => notMem_decimalText (by decide) (by decide) (h ▸ hc)⟩
  have hFirst := hEnd (hx ▸ List.mem_cons_self .. : first ∈ decimalText x)
  have hLast := hEnd (hy ▸ List.mem_append_right _ (List.mem_singleton_self last) : last ∈ decimalText y)
  obtain ⟨front', back', hFront', hBack', hInside⟩ :=
    exists_withoutParens_between hBefore hOpens hFront ⟨hFirst.1, hFirst.2.1⟩
      (more ++ between ++ separator :: (gap ++ most)) ⟨hLast.1, hLast.2.2⟩ hBack hCloses hAfter
  refine ⟨front' ++ decimalText x ++ between, gap ++ decimalText y ++ back', separator, ?_,
    ⟨front', between, rfl, hFront', hBetween⟩, ⟨gap, back', rfl, hGap, hBack'⟩, hSeparator⟩
  simpa [hx, hy] using hInside

/-- No sign that may stand between two numbers belongs to one of them. -/
theorem not_separator_of_padded (h : Padded (decimalText x) padded) :
    ',' ∉ padded ∧ ∀ c ∈ padded, (c == 'x' || c == 'X') = false := by
  have hNot {c : Char} (hc : c ∈ [',', 'x', 'X']) : c ∉ padded := by
    have hPlain : Text.isBlank c = false ∧ c.isDigit = false ∧ c ≠ '-' := by
      simp only [List.mem_cons, List.not_mem_nil, or_false] at hc
      rcases hc with rfl | rfl | rfl <;> decide
    exact notMem_padded h hPlain.1 hPlain.2.1 hPlain.2.2
  refine ⟨hNot (by decide), fun c hc => ?_⟩
  simp only [Bool.or_eq_false_iff, beq_eq_false_iff_ne]
  exact ⟨fun h => hNot (by decide) (h ▸ hc), fun h => hNot (by decide) (h ▸ hc)⟩

/-- The sign between two numbers is found, whichever it is. -/
theorem splitOnce?_written {left right : Text} {separator : Char} (hLeft : Padded (decimalText x) left)
    (hRight : Padded (decimalText y) right) (hSeparator : separator ∈ [',', 'x', 'X']) :
    (Text.splitOnce? (· == ',') (left ++ separator :: right)).or
      (Text.splitOnce? (fun c => c == 'x' || c == 'X') (left ++ separator :: right)) = some (left, right) := by
  obtain ⟨hComma, hLetter⟩ := not_separator_of_padded hLeft
  rcases List.mem_cons.1 hSeparator with rfl | hSeparator
  · rw [Text.splitOnce?_eq_some_iff.2 ⟨rfl, hComma⟩, Option.some_or]
  · have hRightComma := (not_separator_of_padded hRight).1
    have hOther : ',' ≠ separator := by
      rintro rfl
      simp at hSeparator
    have hNone : Text.splitOnce? (· == ',') (left ++ separator :: right) = none :=
      Text.splitOnce?_eq_none (by simp [hComma, hRightComma, hOther])
    have hFound : (separator == 'x' || separator == 'X') = true := by simpa using hSeparator
    rw [hNone, Option.none_or]
    exact Text.splitOnce?_append_cons (p := fun c => c == 'x' || c == 'X') hLetter hFound right

/-- However a pair is written, what is left to do is to read the two numerals. -/
theorem readPair?_of_writesPair (h : WritesPair x y text) :
    readPair? text =
      (Number.readInt32? (decimalText x)).bind fun x =>
        (Number.readInt32? (decimalText y)).bind fun y => some (x, y) := by
  obtain ⟨left, right, separator, hInside, hLeft, hRight, hSeparator⟩ := h.exists_withoutParens
  rw [readPair?_eq, hInside, splitOnce?_written hLeft hRight hSeparator]
  simp [trim_of_padded hLeft, trim_of_padded hRight]

/-- The error repeats the name and the text as they were given, before any trimming. -/
theorem eq_invalidValue_of_convert {name : Text} {type : AttributeType} {error : AttributeError}
    (h : convert name text type = .error error) : error = .invalidValue name text type := by
  cases type with
  | int =>
      rw [convert] at h
      split at h
      · cases h
      · exact (Except.error.inj h).symm
  | dimensions =>
      rw [convert] at h
      split at h
      · cases h
      · exact (Except.error.inj h).symm

/-- What is written reads back: an integer, and a pair of them in any spelling, if 32 bits are enough for each
number. Any other outcome is a failure that names the attribute, the text as it was given and the form. -/
theorem convert_written (name : Text) (x y : Int) :
    (∀ text, Padded (decimalText x) text → convert name text .int =
      if -2 ^ 31 ≤ x ∧ x < 2 ^ 31 then .ok (.int x) else .error (.invalidValue name text .int)) ∧
    (∀ text, WritesPair x y text → convert name text .dimensions =
      if (-2 ^ 31 ≤ x ∧ x < 2 ^ 31) ∧ -2 ^ 31 ≤ y ∧ y < 2 ^ 31 then .ok (.dimensions x y)
      else .error (.invalidValue name text .dimensions)) ∧
    ∀ text type error, convert name text type = .error error → error = .invalidValue name text type := by
  refine ⟨fun text hText => ?_, fun text hText => ?_, fun text type error => eq_invalidValue_of_convert⟩
  · rw [convert, trim_of_padded hText, Number.readInt32?_decimalText]
    split_ifs <;> rfl
  · rw [convert, readPair?_of_writesPair hText, Number.readInt32?_decimalText, Number.readInt32?_decimalText]
    by_cases hx : -2 ^ 31 ≤ x ∧ x < 2 ^ 31 <;> by_cases hy : -2 ^ 31 ≤ y ∧ y < 2 ^ 31 <;>
      simp only [hx, hy, and_self, and_false, false_and, if_true, if_false, Option.bind_some, Option.bind_none]

/-- Both ends of the range: the least integer is read in parentheses with white space everywhere, the one after
the greatest is not. -/
theorem convert_written_at_bounds :
    let least := " ( -2147483648 X 7 )\n".toList
    let beyond := "7,2147483648".toList
    (Padded (decimalText (-2147483648)) "-2147483648".toList ∧
      convert sizeName "-2147483648".toList .int = .ok (.int (-2147483648))) ∧
    (WritesPair (-2147483648) 7 least ∧
      convert sizeName least .dimensions = .ok (.dimensions (-2147483648) 7)) ∧
    WritesPair 7 2147483648 beyond ∧
      convert sizeName beyond .dimensions = .error (.invalidValue sizeName beyond .dimensions) := by
  intro least beyond
  have hLeast : decimalText (-2147483648) = "-2147483648".toList := by decide +kernel
  have hBeyond : decimalText 2147483648 = "2147483648".toList := by decide +kernel
  have hSeven : decimalText 7 = ['7'] := by decide +kernel
  have hNumber : Padded (decimalText (-2147483648)) "-2147483648".toList :=
    ⟨[], [], by rw [hLeast]; rfl, by decide, by decide⟩
  have hPair : WritesPair (-2147483648) 7 least := by
    have hFirst : Padded (decimalText (-2147483648)) " -2147483648 ".toList :=
      ⟨[' '], [' '], by rw [hLeast]; rfl, by decide, by decide⟩
    have hSecond : Padded (decimalText 7) " 7 ".toList :=
      ⟨[' '], [' '], by rw [hSeven]; rfl, by decide, by decide⟩
    exact @WritesPair.intro _ _ _ _ _ ['('] [')'] 'X' hFirst hSecond (by decide) (by simp) (by simp)
      ⟨[' '], ['\n'], rfl, by decide, by decide⟩
  have hOver : WritesPair 7 2147483648 beyond := by
    have hFirst : Padded (decimalText 7) ['7'] := ⟨[], [], by rw [hSeven]; rfl, by decide, by decide⟩
    have hSecond : Padded (decimalText 2147483648) "2147483648".toList :=
      ⟨[], [], by rw [hBeyond]; rfl, by decide, by decide⟩
    exact @WritesPair.intro _ _ _ _ _ [] [] ',' hFirst hSecond (by decide) (by simp) (by simp)
      ⟨[], [], rfl, by decide, by decide⟩
  exact ⟨⟨hNumber, (convert_written sizeName (-2147483648) 7).1 _ hNumber⟩,
    ⟨hPair, (convert_written sizeName (-2147483648) 7).2.1 _ hPair⟩,
    hOver, (convert_written sizeName 7 2147483648).2.1 _ hOver⟩

end Attribute

end Changelog
