import Changelog.Attribute
import Mathlib.Data.List.Basic
import Mathlib.Data.List.TakeWhile

/-! What one token of a bracket says: it is read at its first equals sign, without the quotes at the ends
of both sides and without regard to the case of the name. Tokens that differ only in such quotes and in the
case of ASCII letters say the same. -/

namespace Changelog

namespace Text

variable {p : Char → Bool} {text head tail front back name other : Text} {separator d : Char}

/-- A text is cut at its first separator and nowhere else. -/
theorem splitOnce?_eq_some_iff :
    splitOnce? (· == separator) text = some (head, tail) ↔
      text = head ++ separator :: tail ∧ separator ∉ head := by
  induction text generalizing head with
  | nil => simp [splitOnce?]
  | cons c rest ih =>
      rw [splitOnce?]
      by_cases hc : c = separator
      · subst hc
        rw [if_pos (beq_self_eq_true c), Option.some_inj, Prod.mk.injEq]
        constructor
        · rintro ⟨rfl, rfl⟩
          exact ⟨rfl, List.not_mem_nil⟩
        · rintro ⟨hText, hNot⟩
          cases head with
          | nil => exact ⟨rfl, (List.cons.inj hText).2⟩
          | cons _ _ => exact absurd (List.mem_cons.2 (.inl (List.cons.inj hText).1)) hNot
      · rw [if_neg (by simpa using hc), Option.map_eq_some_iff]
        constructor
        · rintro ⟨⟨front, back⟩, hRest, hSplit⟩
          obtain ⟨rfl, rfl⟩ := Prod.mk.inj hSplit
          obtain ⟨rfl, hNot⟩ := ih.1 hRest
          exact ⟨rfl, List.not_mem_cons_of_ne_of_not_mem (Ne.symm hc) hNot⟩
        · rintro ⟨hText, hNot⟩
          cases head with
          | nil => exact absurd (List.cons.inj hText).1 hc
          | cons _ head =>
              obtain ⟨rfl, hRest⟩ := List.cons.inj hText
              exact ⟨(head, tail), ih.2 ⟨hRest, fun hMem => hNot (List.mem_cons_of_mem _ hMem)⟩, rfl⟩

/-- Characters that are trimmed anyway may be added in front. -/
theorem trimBy_append_left (h : ∀ c ∈ front, p c = true) (text : Text) :
    trimBy p (front ++ text) = trimBy p text := by
  rw [trimBy, List.dropWhile_append_of_pos h, trimBy]

theorem trimBy_append_right (h : ∀ c ∈ back, p c = true) (text : Text) :
    trimBy p (text ++ back) = trimBy p text := by
  have hBack : ∀ c ∈ back.reverse, p c = true := fun c hc => h c (List.mem_reverse.1 hc)
  rw [trimBy, trimBy, List.dropWhile_append]
  split
  · rename_i hEmpty
    rw [List.isEmpty_iff.1 hEmpty, List.dropWhile_eq_nil_iff.2 h]
  · rw [List.reverse_append, List.dropWhile_append_of_pos hBack]

/-- Trimming commutes with a change of characters that does not change which ones are trimmed. -/
theorem trimBy_map {f : Char → Char} (h : ∀ c, p (f c) = p c) (text : Text) :
    trimBy p (text.map f) = (trimBy p text).map f := by
  have hp : p ∘ f = p := funext h
  simp only [trimBy, List.dropWhile_map, ← List.map_reverse, hp]

theorem toNat_toLower (c : Char) :
    c.toLower.toNat = if 65 ≤ c.toNat ∧ c.toNat ≤ 90 then c.toNat + 32 else c.toNat := by
  have hCapital : (c.val ≥ 'A'.val ∧ c.val ≤ 'Z'.val) ↔ 65 ≤ c.toNat ∧ c.toNat ≤ 90 := by
    rw [ge_iff_le, UInt32.le_iff_toNat_le, UInt32.le_iff_toNat_le]
    exact Iff.rfl
  unfold Char.toLower
  split
  · rename_i h
    have hBounds := hCapital.1 h
    have hSum : (c.val + ('a'.val - 'A'.val)).toNat = (c.toNat + 32) % 2 ^ 32 :=
      UInt32.toNat_add ..
    rw [if_pos hBounds]
    exact hSum.trans (Nat.mod_eq_of_lt (by omega))
  · rename_i h
    rw [if_neg fun hBounds => h (hCapital.2 hBounds)]

/-- Characters below the letters stay, and no letter becomes one of them. -/
theorem toLower_eq_iff (h : d.toNat < 65) {c : Char} : c.toLower = d ↔ c = d := by
  rw [← Char.toNat_inj, ← Char.toNat_inj, toNat_toLower]
  split <;> omega

/-- The small form of an ASCII letter has the same capital form. -/
theorem upperChar_toLower (c : Char) : upperChar c.toLower = upperChar c := by
  have hAscii : ∀ n < 91, upperChar (Char.ofNat n).toLower = upperChar (Char.ofNat n) := by decide
  by_cases h : c.toNat < 91
  · rw [← Char.ofNat_toNat c]
    exact hAscii _ h
  · have hSame : c.toLower = c :=
      Char.toNat_inj.1 ((toNat_toLower c).trans (if_neg fun hBounds => by omega))
    rw [hSame]

/-- So a name in capital letters does not show in which case its ASCII letters were written. -/
theorem upper_asciiLower (text : Text) : upper (asciiLower text) = upper text := by
  simp only [upper, asciiLower, List.flatMap_map, upperChar_toLower]

/-- Signs below the letters are neither lost nor made, so the equals sign stays where it is. -/
theorem mem_asciiLower_iff (h : d.toNat < 65) : d ∈ asciiLower text ↔ d ∈ text := by
  simp [asciiLower, toLower_eq_iff h]

end Text

namespace Attribute

variable {g : Grammar} {token respelled name text : Text} {value : AttributeValue}

def isQuote (c : Char) : Bool :=
  c == '"' || c == '\''

/-- The token has an equals sign. The name, given in capital letters, stands before the first one and the
text behind it, both without the quotes at their ends. -/
def Says (token name text : Text) : Prop :=
  ∃ rawName rawValue, token = rawName ++ '=' :: rawValue ∧ '=' ∉ rawName ∧
    name = Text.upper (unquote rawName) ∧ text = unquote rawValue

/-- A text converts to a value under a name in capital letters: the first recognised entry of the name
decides, and the hook only if there is none. -/
inductive Grammar.Converts (g : Grammar) (name text : Text) (value : AttributeValue) : Prop
  | recognized {before after : List AttributeSpec} {spec : AttributeSpec}
      (entries : g.recognized = before ++ spec :: after)
      (first : ∀ other ∈ before, other.name ≠ name) (named : spec.name = name)
      (converts : convert name text spec.type = .ok value)
  | hooked (unknown : ∀ spec ∈ g.recognized, spec.name ≠ name)
      (taken : g.hook name text = some (.ok value))

/-- What the token says converts. -/
def Grammar.Gives (g : Grammar) (token name : Text) (value : AttributeValue) : Prop :=
  ∃ text, Says token name text ∧ g.Converts name text value

/-- The same token with other ASCII letters in its name, or with more quotes at the ends of one side. -/
inductive Respelled : Text → Text → Prop
  | letters (name other value : Text) (plain : '=' ∉ name)
      (same : Text.sameLetters name other = true) :
      Respelled (name ++ '=' :: value) (other ++ '=' :: value)
  | quotedName (name front back value : Text) (plain : '=' ∉ name)
      (hFront : ∀ c ∈ front, isQuote c = true) (hBack : ∀ c ∈ back, isQuote c = true) :
      Respelled (name ++ '=' :: value) (front ++ name ++ back ++ '=' :: value)
  | quotedValue (name front back value : Text) (plain : '=' ∉ name)
      (hFront : ∀ c ∈ front, isQuote c = true) (hBack : ∀ c ∈ back, isQuote c = true) :
      Respelled (name ++ '=' :: value) (name ++ '=' :: (front ++ value ++ back))

/-- What a grammar answers for a name is what `Converts` says, without mention of how the entries are
searched. -/
theorem Grammar.value?_eq_ok_iff : g.value? name text = some (.ok value) ↔ g.Converts name text value := by
  unfold Grammar.value?
  constructor
  · intro h
    split at h
    · rename_i spec hFind
      obtain ⟨hNamed, before, after, hEntries, hFirst⟩ := List.find?_eq_some_iff_append.1 hFind
      refine .recognized hEntries (fun other hOther => ?_) (of_decide_eq_true hNamed)
        (Option.some_inj.1 h)
      simpa using hFirst other hOther
    · rename_i hFind
      refine .hooked (fun spec hSpec => ?_) h
      simpa using List.find?_eq_none.1 hFind spec hSpec
  · rintro (⟨hEntries, hFirst, hNamed, hConverts⟩ | ⟨hUnknown, hTaken⟩)
    · have hFind : g.recognized.find? (fun spec => spec.name = name) = some _ :=
        List.find?_eq_some_iff_append.2
          ⟨decide_eq_true hNamed, _, _, hEntries, fun other hOther => by simpa using hFirst other hOther⟩
      rw [hFind]
      exact congrArg some hConverts
    · have hFind : g.recognized.find? (fun spec => spec.name = name) = none :=
        List.find?_eq_none.2 fun spec hSpec => by simpa using hUnknown spec hSpec
      rw [hFind]
      exact hTaken

theorem not_says (h : Text.splitOnce? (· == '=') token = none) : ¬ Says token name text := by
  rintro ⟨rawName, rawValue, hToken, hPlain, _⟩
  rw [Text.splitOnce?_eq_some_iff.2 ⟨hToken, hPlain⟩] at h
  cases h

/-- What a token says can be read off its two sides. -/
theorem says_append_cons_iff {rawName : Text} (hPlain : '=' ∉ rawName) (rawValue : Text) :
    Says (rawName ++ '=' :: rawValue) name text ↔
      name = Text.upper (unquote rawName) ∧ text = unquote rawValue := by
  constructor
  · rintro ⟨otherName, otherValue, hToken, hOther, hName, hText⟩
    have hSplit := Text.splitOnce?_eq_some_iff.2 ⟨hToken, hOther⟩
    rw [Text.splitOnce?_eq_some_iff.2 ⟨rfl, hPlain⟩] at hSplit
    obtain ⟨rfl, rfl⟩ := Prod.mk.inj (Option.some_inj.1 hSplit)
    exact ⟨hName, hText⟩
  · rintro ⟨hName, hText⟩
    exact ⟨rawName, rawValue, rfl, hPlain, hName, hText⟩

theorem Grammar.gives_append_cons_iff {rawName : Text} (hPlain : '=' ∉ rawName) (rawValue : Text) :
    g.Gives (rawName ++ '=' :: rawValue) name value ↔ Text.upper (unquote rawName) = name ∧
      g.Converts (Text.upper (unquote rawName)) (unquote rawValue) value := by
  constructor
  · rintro ⟨text, hSays, hConverts⟩
    obtain ⟨rfl, rfl⟩ := (says_append_cons_iff hPlain rawValue).1 hSays
    exact ⟨rfl, hConverts⟩
  · rintro ⟨rfl, hConverts⟩
    exact ⟨_, (says_append_cons_iff hPlain rawValue).2 ⟨rfl, rfl⟩, hConverts⟩

/-- Reading a token succeeds just when the token gives something, and with what it gives. -/
theorem Grammar.readToken_eq_ok_iff :
    g.readToken token = .ok (name, value) ↔ g.Gives token name value := by
  unfold Grammar.readToken
  cases hSplit : Text.splitOnce? (· == '=') token with
  | none => exact iff_of_false (fun h => nomatch h) fun ⟨_, hSays, _⟩ => not_says hSplit hSays
  | some parts =>
      obtain ⟨rawName, rawValue⟩ := parts
      obtain ⟨rfl, hPlain⟩ := Text.splitOnce?_eq_some_iff.1 hSplit
      rw [Grammar.gives_append_cons_iff hPlain, ← Grammar.value?_eq_ok_iff]
      dsimp only
      cases g.value? (Text.upper (unquote rawName)) (unquote rawValue) with
      | none => simp
      | some converted => cases converted <;> simp

theorem Grammar.toOption_readToken :
    (g.readToken token).toOption = some (name, value) ↔ g.Gives token name value := by
  rw [← Grammar.readToken_eq_ok_iff]
  cases g.readToken token <;> simp [Except.toOption]

theorem isQuote_toLower (c : Char) : isQuote c.toLower = isQuote c := by
  have hEq : ∀ d : Char, d.toNat < 65 → (c.toLower == d) = (c == d) := fun d h =>
    decide_eq_decide.2 (Text.toLower_eq_iff h)
  rw [isQuote, hEq '"' (by decide), hEq '\'' (by decide)]
  rfl

theorem unquote_asciiLower (text : Text) :
    unquote (Text.asciiLower text) = Text.asciiLower (unquote text) :=
  Text.trimBy_map isQuote_toLower text

/-- More quotes at the ends of a text change nothing. -/
theorem unquote_quoted {front back : Text} (hFront : ∀ c ∈ front, isQuote c = true)
    (hBack : ∀ c ∈ back, isQuote c = true) (text : Text) :
    unquote (front ++ text ++ back) = unquote text :=
  (Text.trimBy_append_right hBack _).trans (Text.trimBy_append_left hFront text)

/-- Another spelling of a token says the same. This is where quotes and the case of letters drop out. -/
theorem Respelled.says_iff (h : Respelled token respelled) :
    Says respelled name text ↔ Says token name text := by
  cases h with
  | letters rawName other value hPlain hSame =>
      have hLower : Text.asciiLower rawName = Text.asciiLower other := beq_iff_eq.1 hSame
      have hOther : '=' ∉ other := by
        rw [← Text.mem_asciiLower_iff (by decide), ← hLower, Text.mem_asciiLower_iff (by decide)]
        exact hPlain
      have hUpper : Text.upper (unquote rawName) = Text.upper (unquote other) := by
        rw [← Text.upper_asciiLower, ← unquote_asciiLower, hLower, unquote_asciiLower,
          Text.upper_asciiLower]
      rw [says_append_cons_iff hPlain, says_append_cons_iff hOther, hUpper]
  | quotedName rawName front back value hPlain hFront hBack =>
      have hQuoted : '=' ∉ front ++ rawName ++ back := by
        simp only [List.mem_append, not_or]
        exact ⟨⟨fun h => absurd (hFront _ h) (by decide), hPlain⟩, fun h => absurd (hBack _ h) (by decide)⟩
      rw [says_append_cons_iff hPlain, says_append_cons_iff hQuoted, unquote_quoted hFront hBack]
  | quotedValue rawName front back value hPlain hFront hBack =>
      rw [says_append_cons_iff hPlain, says_append_cons_iff hPlain, unquote_quoted hFront hBack]

/-- What a token gives does not depend on its spelling either. -/
theorem Respelled.gives_iff (h : Respelled token respelled) :
    g.Gives respelled name value ↔ g.Gives token name value :=
  exists_congr fun _ => and_congr_left' h.says_iff

end Attribute

end Changelog
