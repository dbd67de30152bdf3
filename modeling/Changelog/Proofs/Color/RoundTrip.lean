import Changelog.Proofs.Color.Grammar

/-! Colours written and read back. Of all the texts that are read as a colour one is canonical, and this
is the one that is written. -/

namespace Changelog

/-- A character has at most one value as a digit. -/
theorem Number.HexDigit.unique {d : Char} {n m : Nat} (h : HexDigit d n) (h' : HexDigit d m) :
    n = m :=
  Option.some.inj ((hexDigit?_eq_some_iff.2 h).symm.trans (hexDigit?_eq_some_iff.2 h'))

namespace Color

open Number

variable {text digits : Text} {values : List UInt8} {c d : Color}

/-- The hexadecimal digits that are not small letters, in the order of their values. -/
def capitalDigits : Text :=
  ['0', '1', '2', '3', '4', '5', '6', '7', '8', '9', 'A', 'B', 'C', 'D', 'E', 'F']

/-- The mark and a row of capital digits: two for each channel, but none for an alpha channel of 255. -/
def IsCanonical (text : Text) : Prop :=
  ∃ digits, text = '#' :: digits ∧ (∀ d ∈ digits, d ∈ capitalDigits) ∧
    (digits.length = 6 ∨ digits.length = 8 ∧ ¬ ['F', 'F'] <:+ digits)

/-- The channels that are written. -/
def writtenChannels (c : Color) : List UInt8 :=
  c.red :: c.green :: c.blue :: if c.alpha = 255 then [] else [c.alpha]

theorem hexDigit_digit {n : Nat} (h : n < 16) : HexDigit (digit n) n := by
  have hAll : ∀ n < 16, hexDigits[n]? = some (digit n).toLower := by decide
  exact hAll n h

/-- The capital digits are those that are written. -/
theorem mem_capitalDigits_iff {d : Char} : d ∈ capitalDigits ↔ ∃ n < 16, digit n = d := by
  have hDigits : capitalDigits = (List.range 16).map digit := by decide
  simp [hDigits]

theorem digit_mem_capitalDigits {n : Nat} (h : n < 16) : digit n ∈ capitalDigits :=
  mem_capitalDigits_iff.2 ⟨n, h, rfl⟩

/-- Among the capital digits the value of a digit tells which one it is. -/
theorem eq_digit_of_mem_capitalDigits {d : Char} {n : Nat} (hMem : d ∈ capitalDigits)
    (hDigit : HexDigit d n) : d = digit n := by
  obtain ⟨m, hLt, rfl⟩ := mem_capitalDigits_iff.1 hMem
  rw [hDigit.unique (hexDigit_digit hLt)]

/-- Two digits never exceed a byte. -/
theorem toNat_ofNat_pair {h l : Nat} (hHigh : h < 16) (hLow : l < 16) :
    (UInt8.ofNat (16 * h + l)).toNat = 16 * h + l := by
  rw [UInt8.toNat_ofNat']
  exact Nat.mod_eq_of_lt (by omega)

/-- A byte is put together again from its halves. -/
theorem ofNat_halves (v : UInt8) : UInt8.ofNat (16 * (v.toNat / 16) + v.toNat % 16) = v := by
  rw [Nat.div_add_mod, UInt8.ofNat_toNat]

theorem halves_lt (v : UInt8) : v.toNat / 16 < 16 ∧ v.toNat % 16 < 16 := by
  have hByte := v.toNat_lt
  omega

/-- A channel is written as a pair of digits that is worth it. -/
theorem pairs_flatMap_channelText (values : List UInt8) :
    Pairs HexDigit (values.flatMap channelText) values := by
  induction values with
  | nil => exact .nil
  | cons v rest ih =>
      obtain ⟨hHigh, hLow⟩ := halves_lt v
      have hPair := Pairs.cons (hexDigit_digit hHigh) (hexDigit_digit hLow) ih
      rwa [ofNat_halves] at hPair

theorem mem_capitalDigits_of_mem_channelText {v : UInt8} {d : Char} (h : d ∈ channelText v) :
    d ∈ capitalDigits := by
  obtain ⟨hHigh, hLow⟩ := halves_lt v
  rcases List.mem_pair.1 h with rfl | rfl
  · exact digit_mem_capitalDigits hHigh
  · exact digit_mem_capitalDigits hLow

/-- Pairs of capital digits are those that would be written. -/
theorem Pairs.eq_flatMap_channelText (h : Pairs HexDigit digits values)
    (hCapital : ∀ d ∈ digits, d ∈ capitalDigits) : digits = values.flatMap channelText := by
  induction h with
  | nil => rfl
  | @cons high low h l rest values hHigh hLow hRest ih =>
      have hValue := toNat_ofNat_pair hHigh.lt hLow.lt
      have hDiv : (16 * h + l) / 16 = h := by have := hLow.lt; omega
      have hMod : (16 * h + l) % 16 = l := by have := hLow.lt; omega
      rw [List.flatMap_cons, channelText, hValue, hDiv, hMod,
        ← eq_digit_of_mem_capitalDigits (hCapital high (by simp)) hHigh,
        ← eq_digit_of_mem_capitalDigits (hCapital low (by simp)) hLow,
        ← ih fun d hMem => hCapital d (by simp [hMem])]
      rfl

theorem Pairs.unique {more : List UInt8} (h : Pairs HexDigit digits values)
    (h' : Pairs HexDigit digits more) : values = more := by
  induction h generalizing more with
  | nil => cases h'; rfl
  | cons hHigh hLow _ ih =>
      cases h' with
      | cons hHigh' hLow' hRest' =>
          rw [hHigh.unique hHigh', hLow.unique hLow', ih hRest']

/-- Different bytes are written differently. -/
theorem channelText_inj {v w : UInt8} (h : channelText v = channelText w) : v = w := by
  have hPair := pairs_flatMap_channelText [v]
  rw [List.flatMap_singleton, h, ← List.flatMap_singleton channelText w] at hPair
  exact (List.cons.inj (hPair.unique (pairs_flatMap_channelText [w]))).1

/-- A colour is written as the mark and its channels, alpha only where it says something. -/
theorem toText_eq (c : Color) : toText c = '#' :: (writtenChannels c).flatMap channelText := by
  unfold toText writtenChannels
  split <;> simp

theorem length_writtenDigits (c : Color) :
    ((writtenChannels c).flatMap channelText).length = if c.alpha = 255 then 6 else 8 := by
  rw [(pairs_flatMap_channelText _).length_eq, writtenChannels]
  split <;> rfl

/-- The length of a written colour tells whether it has an alpha channel. -/
theorem length_toText (c : Color) : (toText c).length = if c.alpha = 255 then 7 else 9 := by
  rw [toText_eq, List.length_cons, length_writtenDigits]
  split <;> rfl

/-- The last two digits are those of the last channel. -/
theorem eq_of_suffix_flatMap_channelText {v w : UInt8}
    (h : channelText w <:+ (values ++ [v]).flatMap channelText) : w = v := by
  obtain ⟨front, hDigits⟩ := h
  rw [List.flatMap_append, List.flatMap_singleton] at hDigits
  exact channelText_inj (List.append_inj' hDigits rfl).2

/-- What is written is canonical; in particular a written alpha channel is never `FF`. -/
theorem isCanonical_toText (c : Color) : IsCanonical (toText c) := by
  refine ⟨_, toText_eq c, fun d hMem => ?_, ?_⟩
  · obtain ⟨v, _, hDigit⟩ := List.mem_flatMap.1 hMem
    exact mem_capitalDigits_of_mem_channelText hDigit
  · rw [length_writtenDigits]
    by_cases hOpaque : c.alpha = 255
    · exact .inl (if_pos hOpaque)
    · refine .inr ⟨if_neg hOpaque, fun hSuffix => hOpaque ?_⟩
      rw [writtenChannels, if_neg hOpaque] at hSuffix
      have hLast : channelText 255 <:+ ([c.red, c.green, c.blue] ++ [c.alpha]).flatMap channelText :=
        hSuffix
      exact (eq_of_suffix_flatMap_channelText hLast).symm

/-- So the texts that are read by way of a plus sign are not canonical. -/
theorem IsCanonical.notMem_plus (h : IsCanonical text) : '+' ∉ text := by
  obtain ⟨digits, rfl, hCapital, -⟩ := h
  have hPlus : '+' ∉ capitalDigits := by decide
  exact List.not_mem_cons_of_ne_of_not_mem (by decide) fun hMem => hPlus (hCapital _ hMem)

theorem spells_writtenChannels (c : Color) :
    Spells HexDigit ((writtenChannels c).flatMap channelText) c := by
  have hPairs := pairs_flatMap_channelText (writtenChannels c)
  by_cases hOpaque : c.alpha = 255
  · rw [writtenChannels, if_pos hOpaque] at hPairs ⊢
    exact .inl ⟨hPairs, hOpaque⟩
  · rw [writtenChannels, if_neg hOpaque] at hPairs ⊢
    exact .inr hPairs

/-- What is written for a colour is read as this colour. -/
theorem parse_toText (c : Color) : parse (toText c) = .ok c :=
  parse_eq_ok_iff.2 ((writes_iff_of_notMem_plus (isCanonical_toText c).notMem_plus).2
    ⟨['#'], _, toText_eq c, .inr rfl, spells_writtenChannels c⟩)

/-- No two colours are written alike. -/
theorem toText_inj (h : toText d = toText c) : d = c := by
  have hParse := parse_toText d
  rw [h, parse_toText] at hParse
  exact (Except.ok.inj hParse).symm

/-- There is no other canonical text of a colour than the one that is written. -/
theorem IsCanonical.eq_toText (h : IsCanonical text) (hParse : parse text = .ok c) :
    text = toText c := by
  have hWrites := (writes_iff_of_notMem_plus h.notMem_plus).1 (parse_eq_ok_iff.1 hParse)
  obtain ⟨digits, rfl, hCapital, hLength⟩ := h
  obtain ⟨mark, spelled, hText, hMark, hSpells⟩ := hWrites
  obtain rfl : digits = spelled := by
    rcases hMark with rfl | rfl
    · obtain rfl : '#' :: digits = spelled := hText
      obtain ⟨n, hMarkDigit⟩ : ∃ n, HexDigit '#' n :=
        hSpells.elim (·.1.isDigit _ List.mem_cons_self) (·.isDigit _ List.mem_cons_self)
      exact absurd hMarkDigit not_hexDigit_mark
    · exact (List.cons.inj hText).2
  rw [toText_eq]
  rcases hSpells with ⟨hPairs, hOpaque⟩ | hPairs
  · rw [writtenChannels, if_pos hOpaque, hPairs.eq_flatMap_channelText hCapital]
  · have hDigits := hPairs.eq_flatMap_channelText hCapital
    have hAlpha : c.alpha ≠ 255 := fun hOpaque => by
      rcases hLength with hSix | ⟨-, hSuffix⟩
      · have hEight := hPairs.length_eq
        rw [hSix] at hEight
        cases hEight
      · refine hSuffix ?_
        rw [hDigits, hOpaque]
        exact List.suffix_append [_, _, _, _, _, _] (channelText 255)
    rw [writtenChannels, if_neg hAlpha, hDigits]

/-- What is written for a colour is read as this colour; alpha is written if and only if it is not 255. So
for every text that is read as a colour, what is written for the colour is canonical and is read as the
colour again; it is the only canonical text among those that are read so, and the same for two texts
exactly if they are read as the same colour. -/
theorem round_trip :
    (∀ c, parse (toText c) = .ok c ∧ (toText c).length = if c.alpha = 255 then 7 else 9) ∧
      ∀ text c, parse text = .ok c →
        IsCanonical (toText c) ∧ parse (toText c) = .ok c ∧ (IsCanonical text ↔ text = toText c) ∧
          ∀ other d, parse other = .ok d → (toText d = toText c ↔ d = c) := by
  refine ⟨fun c => ⟨parse_toText c, length_toText c⟩, fun text c hParse => ?_⟩
  refine ⟨isCanonical_toText c, parse_toText c, ⟨fun h => h.eq_toText hParse, ?_⟩, fun _ d _ => ?_⟩
  · rintro rfl
    exact isCanonical_toText c
  · exact ⟨toText_inj, fun hSame => congrArg toText hSame⟩

/-- Small letters, an alpha channel of 255 and plus signs are read, and what is written has none of them. -/
theorem round_trip_of_loose_spellings :
    parse "4db3e6fF".toList = .ok ⟨0x4D, 0xB3, 0xE6, 255⟩ ∧
      parse "#+1020304".toList = .ok ⟨1, 2, 3, 4⟩ ∧
      toText ⟨0x4D, 0xB3, 0xE6, 255⟩ = "#4DB3E6".toList ∧ IsCanonical "#4DB3E6".toList ∧
      toText ⟨1, 2, 3, 4⟩ = "#01020304".toList ∧ ¬ IsCanonical "#+1020304".toList := by
  have hSmall : parse "4db3e6fF".toList = .ok ⟨0x4D, 0xB3, 0xE6, 255⟩ := rfl
  have hPlus : parse "#+1020304".toList = .ok ⟨1, 2, 3, 4⟩ := rfl
  obtain ⟨hCanonical, -, -, -⟩ := round_trip.2 _ _ hSmall
  obtain ⟨-, -, hOnly, -⟩ := round_trip.2 _ _ hPlus
  refine ⟨hSmall, hPlus, rfl, hCanonical, rfl, fun h => ?_⟩
  exact absurd (hOnly.1 h) (by decide)

end Color

end Changelog
