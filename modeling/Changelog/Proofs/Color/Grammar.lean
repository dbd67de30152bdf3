import Changelog.Color
import Changelog.Proofs.Attribute.Token

/-! Which texts are colours. A colour is written as a pair of hexadecimal digits for each channel,
behind a mark that may be left out. All these texts are read, and besides them those in which a plus
sign stands in the place of the first digit of a pair. -/

namespace Changelog

namespace Number

variable {c : Char} {n : Nat}

/-- The hexadecimal digits in the order of their values. -/
def hexDigits : Text :=
  ['0', '1', '2', '3', '4', '5', '6', '7', '8', '9', 'a', 'b', 'c', 'd', 'e', 'f']

/-- The character is the digit of value `n`, in either case. -/
def HexDigit (c : Char) (n : Nat) : Prop :=
  hexDigits[n]? = some c.toLower

theorem HexDigit.lt (h : HexDigit c n) : n < 16 :=
  (List.getElem?_eq_some_iff.1 h).1

/-- No character behind `f` is a digit. -/
theorem HexDigit.toNat_lt (h : HexDigit c n) : c.toNat < 103 := by
  have hDigits : hexDigits.all (·.toNat < 103) = true := by decide
  have hLower := of_decide_eq_true (List.all_eq_true.1 hDigits c.toLower (List.mem_of_getElem? h))
  rw [Text.toNat_toLower] at hLower
  split at hLower <;> omega

theorem hexDigit?_eq_none (h : 103 ≤ c.toNat) : hexDigit? c = none := by
  have hAbove (d : Char) (hd : d.toNat < 103) : ¬ c ≤ d := fun hLe => by
    have hLe : c.toNat ≤ d.toNat := hLe
    omega
  rw [hexDigit?, if_neg fun hRange => hAbove '9' (by decide) hRange.2,
    if_neg fun hRange => hAbove 'f' (by decide) hRange.2,
    if_neg fun hRange => hAbove 'F' (by decide) hRange.2]

/-- Reading a digit agrees with the table of the digits, capital letters included. -/
theorem hexDigit?_eq_some_iff : hexDigit? c = some n ↔ HexDigit c n := by
  have hSmall : ∀ k < 103, ∀ n ∈ hexDigit? (Char.ofNat k), n < 16 := by decide +kernel
  have hAll : ∀ k < 103, ∀ n < 16,
      hexDigit? (Char.ofNat k) = some n ↔ hexDigits[n]? = some (Char.ofNat k).toLower := by
    decide +kernel
  rcases Nat.lt_or_ge c.toNat 103 with hc | hc
  · have hSmall := hSmall c.toNat hc n
    have hAll := hAll c.toNat hc n
    rw [Char.ofNat_toNat] at hSmall hAll
    exact ⟨fun h => (hAll (hSmall h)).1 h, fun h => (hAll h.lt).2 h⟩
  · rw [hexDigit?_eq_none hc]
    exact ⟨nofun, fun h => absurd h.toNat_lt (Nat.not_lt.2 hc)⟩

/-- A plus sign is taken in the place of a digit, but it is none. -/
theorem not_hexDigit_plus : ¬ HexDigit '+' n := by
  rw [← hexDigit?_eq_some_iff]
  exact nofun

/-- The mark is no digit, so it cannot be mistaken for the first one. -/
theorem not_hexDigit_mark : ¬ HexDigit '#' n := by
  rw [← hexDigit?_eq_some_iff]
  exact nofun

end Number

namespace Color

open Number

variable {First More : Char → Nat → Prop} {text digits : Text} {values : List UInt8} {c : Color}

/-- A digit, or a plus sign for a zero. -/
def SignedDigit (c : Char) (n : Nat) : Prop :=
  HexDigit c n ∨ c = '+' ∧ n = 0

/-- Pairs of digits, and what each pair is worth. `First` says what may be the first digit of a pair. -/
inductive Pairs (First : Char → Nat → Prop) : Text → List UInt8 → Prop
  | nil : Pairs First [] []
  | cons {high low : Char} {h l : Nat} {rest : Text} {values : List UInt8} :
      First high h → HexDigit low l → Pairs First rest values →
        Pairs First (high :: low :: rest) (UInt8.ofNat (16 * h + l) :: values)

/-- The digits are worth the channels of the colour; without a pair of its own, alpha is 255. -/
def Spells (First : Char → Nat → Prop) (digits : Text) (c : Color) : Prop :=
  Pairs First digits [c.red, c.green, c.blue] ∧ c.alpha = 255 ∨
    Pairs First digits [c.red, c.green, c.blue, c.alpha]

/-- The text is written for the colour, with the mark or without it. -/
def Writes (First : Char → Nat → Prop) (text : Text) (c : Color) : Prop :=
  ∃ mark digits, text = mark ++ digits ∧ (mark = [] ∨ mark = ['#']) ∧ Spells First digits c

/-- Six or eight hexadecimal digits, behind a mark that may be left out. -/
def IsWritten (text : Text) : Prop :=
  ∃ mark digits, text = mark ++ digits ∧ (mark = [] ∨ mark = ['#']) ∧
    (digits.length = 6 ∨ digits.length = 8) ∧ ∀ d ∈ digits, ∃ n, HexDigit d n

/-- A channel is read digit by digit; a plus sign in front counts as a zero. -/
theorem channel?_eq (high low : Char) :
    channel? high low =
      (if high = '+' then some 0 else hexDigit? high).bind fun h =>
        (hexDigit? low).bind fun l => some (UInt8.ofNat (16 * h + l)) := by
  unfold channel?
  split
  · rfl
  · rfl

/-- What is read as a channel, without mention of how it is computed. -/
theorem channel?_eq_some_iff {high low : Char} {v : UInt8} :
    channel? high low = some v ↔
      ∃ h l, SignedDigit high h ∧ HexDigit low l ∧ UInt8.ofNat (16 * h + l) = v := by
  have hFirst (h : Nat) :
      (if high = '+' then some 0 else hexDigit? high) = some h ↔ SignedDigit high h := by
    by_cases hPlus : high = '+'
    · subst hPlus
      simp [SignedDigit, not_hexDigit_plus, eq_comm]
    · simp [SignedDigit, hPlus, hexDigit?_eq_some_iff]
  simp only [channel?_eq, Option.bind_eq_some_iff, hFirst, hexDigit?_eq_some_iff, Option.some_inj,
    exists_and_left]

theorem pairs_nil_iff : Pairs First digits [] ↔ digits = [] := by
  constructor
  · rintro ⟨⟩
    rfl
  · rintro rfl
    exact .nil

/-- A row of pairs is read one pair after the other. -/
theorem pairs_cons_iff {high low : Char} {v : UInt8} {rest : Text} :
    Pairs SignedDigit (high :: low :: rest) (v :: values) ↔
      channel? high low = some v ∧ Pairs SignedDigit rest values := by
  rw [channel?_eq_some_iff]
  constructor
  · intro hPairs
    cases hPairs with
    | cons hHigh hLow hRest => exact ⟨⟨_, _, hHigh, hLow, rfl⟩, hRest⟩
  · rintro ⟨⟨h, l, hHigh, hLow, rfl⟩, hRest⟩
    exact .cons hHigh hLow hRest

/-- Where there is a value, there are two characters for it. -/
theorem Pairs.exists_cons {v : UInt8} (h : Pairs First digits (v :: values)) :
    ∃ high low rest, digits = high :: low :: rest ∧ Pairs First rest values := by
  cases h with
  | cons _ _ hRest => exact ⟨_, _, _, rfl, hRest⟩

theorem Pairs.length_eq (h : Pairs First digits values) : digits.length = 2 * values.length := by
  induction h with
  | nil => rfl
  | cons _ _ _ ih =>
      rw [List.length_cons, List.length_cons, List.length_cons, ih]
      rfl

/-- If more characters are admitted as first digits, the pairs stay what they are. -/
theorem Pairs.mono (h : Pairs First digits values)
    (hMore : ∀ d ∈ digits, ∀ n, First d n → More d n) : Pairs More digits values := by
  induction h with
  | nil => exact .nil
  | cons hHigh hLow _ ih =>
      have hRest := ih fun d hMem => hMore d (List.mem_cons_of_mem _ (List.mem_cons_of_mem _ hMem))
      exact .cons (hMore _ List.mem_cons_self _ hHigh) hLow hRest

/-- With digits in the first places there is no other character in the row at all. -/
theorem Pairs.isDigit (h : Pairs HexDigit digits values) : ∀ d ∈ digits, ∃ n, HexDigit d n := by
  induction h with
  | nil => exact nofun
  | cons hHigh hLow _ ih =>
      intro d hMem
      rcases List.mem_cons.1 hMem with rfl | hMem
      · exact ⟨_, hHigh⟩
      · rcases List.mem_cons.1 hMem with rfl | hMem
        · exact ⟨_, hLow⟩
        · exact ih d hMem

/-- Digits of an even number make up pairs. -/
theorem exists_pairs (n : Nat) (hLength : digits.length = 2 * n)
    (hDigits : ∀ d ∈ digits, ∃ n, HexDigit d n) :
    ∃ values, Pairs HexDigit digits values ∧ values.length = n := by
  induction n generalizing digits with
  | zero =>
      obtain rfl := List.length_eq_zero_iff.1 hLength
      exact ⟨[], .nil, rfl⟩
  | succ n ih =>
      match digits, hLength with
      | high :: low :: rest, hLength =>
          obtain ⟨h, hHigh⟩ := hDigits high (by simp)
          obtain ⟨l, hLow⟩ := hDigits low (by simp)
          have hRest : ∀ d ∈ rest, ∃ n, HexDigit d n := fun d hMem => hDigits d (by simp [hMem])
          obtain ⟨values, hPairs, hValues⟩ := ih (by simpa [Nat.mul_succ] using hLength) hRest
          exact ⟨_, .cons hHigh hLow hPairs, by rw [List.length_cons, hValues]⟩

/-- The digits of a colour never begin with the mark, not even if signs are admitted. -/
theorem Spells.head?_ne_mark (h : Spells SignedDigit digits c) : digits.head? ≠ some '#' := by
  have hPairs {values : List UInt8} (h : Pairs SignedDigit digits values) :
      digits.head? ≠ some '#' := by
    cases h with
    | nil => exact nofun
    | cons hHigh _ _ =>
        rintro ⟨⟩
        exact hHigh.elim not_hexDigit_mark nofun
  exact h.elim (fun hOpaque => hPairs hOpaque.1) hPairs

/-- The mark is no digit, so there is no other way to take it off. -/
theorem writes_iff :
    Writes SignedDigit text c ↔ Spells SignedDigit ((Text.after? ['#'] text).getD text) c := by
  constructor
  · rintro ⟨mark, digits, rfl, rfl | rfl, hSpells⟩
    · have hNone : Text.after? ['#'] digits = none := by
        refine Option.eq_none_iff_forall_ne_some.2 fun rest hRest => hSpells.head?_ne_mark ?_
        rw [Text.after?_eq_some_iff.1 hRest]
        rfl
      rw [List.nil_append, hNone]
      exact hSpells
    · exact hSpells
  · intro hSpells
    cases hAfter : Text.after? ['#'] text with
    | none =>
        rw [hAfter] at hSpells
        exact ⟨[], text, rfl, .inl rfl, hSpells⟩
    | some digits =>
        rw [hAfter] at hSpells
        exact ⟨['#'], digits, Text.after?_eq_some_iff.1 hAfter, .inr rfl, hSpells⟩

/-- The texts that are read, and what they are read as. -/
theorem parse?_eq_some_iff : parse? text = some c ↔ Writes SignedDigit text c := by
  rw [writes_iff, parse?, Spells]
  generalize (Text.after? ['#'] text).getD text = digits
  split
  · simp only [pairs_cons_iff, pairs_nil_iff, Option.bind_eq_bind, Option.bind_eq_some_iff,
      Option.pure_def, Option.some_inj, and_true]
    constructor
    · rintro ⟨r, hRed, g, hGreen, b, hBlue, rfl⟩
      exact .inl ⟨⟨hRed, hGreen, hBlue⟩, rfl⟩
    · rintro (⟨⟨hRed, hGreen, hBlue⟩, hOpaque⟩ | ⟨-, -, -, hAlpha⟩)
      · exact ⟨_, hRed, _, hGreen, _, hBlue, by rw [← hOpaque]⟩
      · cases hAlpha
  · simp only [pairs_cons_iff, pairs_nil_iff, Option.bind_eq_bind, Option.bind_eq_some_iff,
      Option.pure_def, Option.some_inj, and_true]
    constructor
    · rintro ⟨r, hRed, g, hGreen, b, hBlue, a, hAlpha, rfl⟩
      exact .inr ⟨hRed, hGreen, hBlue, hAlpha⟩
    · rintro (⟨⟨-, -, -, hNone⟩, -⟩ | ⟨hRed, hGreen, hBlue, hAlpha⟩)
      · cases hNone
      · exact ⟨_, hRed, _, hGreen, _, hBlue, _, hAlpha, rfl⟩
  · rename_i hSix hEight
    refine ⟨nofun, fun hSpells => ?_⟩
    rcases hSpells with ⟨hRed, -⟩ | hRed
    · obtain ⟨r₁, r₀, _, rfl, hGreen⟩ := hRed.exists_cons
      obtain ⟨g₁, g₀, _, rfl, hBlue⟩ := hGreen.exists_cons
      obtain ⟨b₁, b₀, _, rfl, hEnd⟩ := hBlue.exists_cons
      obtain rfl := pairs_nil_iff.1 hEnd
      exact absurd rfl (hSix r₁ r₀ g₁ g₀ b₁ b₀)
    · obtain ⟨r₁, r₀, _, rfl, hGreen⟩ := hRed.exists_cons
      obtain ⟨g₁, g₀, _, rfl, hBlue⟩ := hGreen.exists_cons
      obtain ⟨b₁, b₀, _, rfl, hAlpha⟩ := hBlue.exists_cons
      obtain ⟨a₁, a₀, _, rfl, hEnd⟩ := hAlpha.exists_cons
      obtain rfl := pairs_nil_iff.1 hEnd
      exact absurd rfl (hEight r₁ r₀ g₁ g₀ b₁ b₀ a₁ a₀)

theorem parse_eq_ok_iff : parse text = .ok c ↔ Writes SignedDigit text c := by
  rw [← parse?_eq_some_iff, parse]
  cases parse? text with
  | none => exact ⟨nofun, nofun⟩
  | some found => rw [Except.ok.injEq, Option.some_inj]

/-- Every other text is handed back whole in the error. -/
theorem parse_eq_error_iff {e : InvalidColor} :
    parse text = .error e ↔ (∀ c, ¬ Writes SignedDigit text c) ∧ e = ⟨text⟩ := by
  simp only [← parse?_eq_some_iff, ← Option.eq_none_iff_forall_ne_some, parse]
  cases parse? text with
  | none => rw [Except.error.injEq, eq_comm, eq_self, true_and]
  | some found => exact ⟨nofun, nofun⟩

/-- Without plus signs the first digits of all pairs are digits. -/
theorem writes_iff_of_notMem_plus (hPlus : '+' ∉ text) :
    Writes SignedDigit text c ↔ Writes HexDigit text c := by
  constructor
  · rintro ⟨mark, digits, rfl, hMark, hSpells⟩
    have hDigit : ∀ d ∈ digits, ∀ n, SignedDigit d n → HexDigit d n := by
      rintro d hMem n (hDigit | ⟨rfl, -⟩)
      · exact hDigit
      · exact absurd (List.mem_append_right mark hMem) hPlus
    exact ⟨mark, digits, rfl, hMark,
      hSpells.imp (And.imp_left (Pairs.mono · hDigit)) (Pairs.mono · hDigit)⟩
  · rintro ⟨mark, digits, rfl, hMark, hSpells⟩
    have hSigned : ∀ d ∈ digits, ∀ n, HexDigit d n → SignedDigit d n := fun _ _ _ => .inl
    exact ⟨mark, digits, rfl, hMark,
      hSpells.imp (And.imp_left (Pairs.mono · hSigned)) (Pairs.mono · hSigned)⟩

/-- Six or eight digits always make a colour, whichever digits they are. -/
theorem isWritten_iff : IsWritten text ↔ ∃ c, Writes HexDigit text c := by
  constructor
  · rintro ⟨mark, digits, rfl, hMark, hLength | hLength, hDigits⟩
    · obtain ⟨values, hPairs, hValues⟩ := exists_pairs 3 hLength hDigits
      obtain ⟨r, g, b, rfl⟩ := List.length_eq_three.1 hValues
      exact ⟨⟨r, g, b, 255⟩, mark, digits, rfl, hMark, .inl ⟨hPairs, rfl⟩⟩
    · obtain ⟨values, hPairs, hValues⟩ := exists_pairs 4 hLength hDigits
      match values, hValues with
      | [r, g, b, a], _ => exact ⟨⟨r, g, b, a⟩, mark, digits, rfl, hMark, .inr hPairs⟩
  · rintro ⟨c, mark, digits, rfl, hMark, ⟨hPairs, -⟩ | hPairs⟩
    · exact ⟨mark, digits, rfl, hMark, .inl hPairs.length_eq, hPairs.isDigit⟩
    · exact ⟨mark, digits, rfl, hMark, .inr hPairs.length_eq, hPairs.isDigit⟩

/-- Reading gives the colour that the text is written for, where a plus sign in the place of the first
digit of a pair counts as a zero, and hands back every other text. So of the texts without a plus sign
exactly those of six or eight digits, behind a mark that may be left out, are read. -/
theorem parse_accepts (text : Text) :
    (∀ c, parse text = .ok c ↔ Writes SignedDigit text c) ∧
      (∀ e, parse text = .error e ↔ (∀ c, ¬ Writes SignedDigit text c) ∧ e = ⟨text⟩) ∧
      ('+' ∉ text →
        (∀ c, parse text = .ok c ↔ Writes HexDigit text c) ∧
          ((∃ c, parse text = .ok c) ↔ IsWritten text) ∧
          ∀ e, parse text = .error e ↔ ¬ IsWritten text ∧ e = ⟨text⟩) := by
  refine ⟨fun c => parse_eq_ok_iff, fun e => parse_eq_error_iff, fun hPlus => ?_⟩
  have hOk (c : Color) : parse text = .ok c ↔ Writes HexDigit text c :=
    parse_eq_ok_iff.trans (writes_iff_of_notMem_plus hPlus)
  refine ⟨hOk, ?_, fun e => ?_⟩
  · rw [isWritten_iff]
    exact exists_congr hOk
  · rw [parse_eq_error_iff, isWritten_iff, not_exists]
    simp only [writes_iff_of_notMem_plus hPlus]

/-- A text with the mark and capital letters, and one with a digit too few. -/
theorem parse_accepts_capitals :
    '+' ∉ "#4DB3E680".toList ∧ parse "#4DB3E680".toList = .ok ⟨0x4D, 0xB3, 0xE6, 0x80⟩ ∧
      IsWritten "#4DB3E680".toList ∧
      '+' ∉ "#12345".toList ∧ parse "#12345".toList = .error ⟨"#12345".toList⟩ ∧
      ¬ IsWritten "#12345".toList := by
  have hColor : '+' ∉ "#4DB3E680".toList := by decide
  have hShort : '+' ∉ "#12345".toList := by decide
  obtain ⟨-, -, hAccepts⟩ := parse_accepts "#4DB3E680".toList
  obtain ⟨-, -, hRefuses⟩ := parse_accepts "#12345".toList
  have hRefused := ((hRefuses hShort).2.2 ⟨"#12345".toList⟩).1 rfl
  exact ⟨hColor, rfl, (hAccepts hColor).2.1.1 ⟨_, rfl⟩, hShort, rfl, hRefused.1⟩

/-- A text that is read although it holds three digits only. -/
theorem parse_plus_signs :
    parse "+1+2+3".toList = .ok ⟨1, 2, 3, 255⟩ ∧ ¬ IsWritten "+1+2+3".toList := by
  refine ⟨rfl, ?_⟩
  rintro ⟨mark, digits, hText, hMark, -, hDigits⟩
  rcases hMark with rfl | rfl
  · obtain rfl : "+1+2+3".toList = digits := hText
    obtain ⟨n, hPlus⟩ := hDigits '+' (by decide)
    exact not_hexDigit_plus hPlus
  · cases hText

end Color

end Changelog
