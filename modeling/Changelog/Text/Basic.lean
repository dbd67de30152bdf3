/-!
Texts as lists of characters. Offsets into a text count the bytes of its UTF-8 form, so a slice is
found by walking the characters and adding up their sizes.
-/

namespace Changelog

/-- Markup, names, addresses and keys are read character by character. -/
abbrev Text := List Char

/-- Offsets `start` to `stop`, counted in bytes; `stop` is not included. -/
structure Span where
  start : Nat
  stop : Nat
deriving DecidableEq, Repr

namespace Text

/-- Size of the UTF-8 form. -/
def byteSize : Text → Nat
  | [] => 0
  | c :: rest => c.utf8Size + byteSize rest

@[simp] theorem byteSize_nil : byteSize [] = 0 := rfl

@[simp] theorem byteSize_cons (c : Char) (rest : Text) :
    byteSize (c :: rest) = c.utf8Size + byteSize rest := rfl

@[simp] theorem byteSize_append (a b : Text) : byteSize (a ++ b) = byteSize a + byteSize b := by
  induction a with
  | nil => simp
  | cons c a ih => simp [ih, Nat.add_assoc]

theorem byteSize_eq_zero_iff {t : Text} : byteSize t = 0 ↔ t = [] := by
  cases t with
  | nil => simp
  | cons c rest =>
    have := c.utf8Size_pos
    simp only [byteSize_cons, reduceCtorEq, iff_false]
    omega

/-- What follows `marker`, if the text starts with it. -/
def after? : (marker : Text) → Text → Option Text
  | [], text => some text
  | _ :: _, [] => none
  | m :: marker, c :: text => if m = c then after? marker text else none

theorem after?_eq_some_iff {marker text rest : Text} :
    after? marker text = some rest ↔ text = marker ++ rest := by
  induction marker generalizing text with
  | nil => simp [after?, eq_comm]
  | cons m marker ih =>
    cases text with
    | nil => simp [after?]
    | cons c text =>
      by_cases h : m = c
      · simp [after?, h, ih]
      · simp [after?, h, Ne.symm h]

/-- What stands before `marker`, if the text ends with it. -/
def before? (marker text : Text) : Option Text :=
  (after? marker.reverse text.reverse).map List.reverse

theorem before?_eq_some_iff {marker text rest : Text} :
    before? marker text = some rest ↔ text = rest ++ marker := by
  constructor
  · intro h
    obtain ⟨r, hr, rfl⟩ := Option.map_eq_some_iff.1 h
    have h := congrArg List.reverse (after?_eq_some_iff.1 hr)
    simpa using h
  · rintro rfl
    have h : after? marker.reverse (rest ++ marker).reverse = some rest.reverse :=
      after?_eq_some_iff.2 (by simp)
    rw [before?, h, Option.map_some, List.reverse_reverse]

/-- The text around the first occurrence of `marker`. -/
def cut? (marker : Text) : Text → Option (Text × Text)
  | [] => if marker = [] then some ([], []) else none
  | c :: rest =>
    match after? marker (c :: rest) with
    | some tail => some ([], tail)
    | none => (cut? marker rest).map fun (head, tail) => (c :: head, tail)

theorem eq_of_cut? {marker text head tail : Text} (h : cut? marker text = some (head, tail)) :
    text = head ++ marker ++ tail := by
  induction text generalizing head with
  | nil =>
    unfold cut? at h
    split at h <;> simp_all
  | cons c rest ih =>
    unfold cut? at h
    split at h
    · rename_i t ht
      obtain ⟨rfl, rfl⟩ := by simpa using h
      simpa using after?_eq_some_iff.1 ht
    · obtain ⟨⟨a, b⟩, hab, he⟩ := Option.map_eq_some_iff.1 h
      obtain ⟨rfl, rfl⟩ := by simpa using he
      simp [ih hab]

/-- The parts before and after the first character that satisfies `p`. -/
def splitOnce? (p : Char → Bool) : Text → Option (Text × Text)
  | [] => none
  | c :: rest =>
    if p c then some ([], rest)
    else (splitOnce? p rest).map fun (head, tail) => (c :: head, tail)

/-- The characters whose first byte lies at offsets `start` to `stop`. -/
def slice (start stop : Nat) : Text → Text
  | [] => []
  | c :: rest =>
    if start = 0 then
      if stop = 0 then [] else c :: slice 0 (stop - c.utf8Size) rest
    else slice (start - c.utf8Size) (stop - c.utf8Size) rest

/-- Drops the characters satisfying `p` at either end. -/
def trimBy (p : Char → Bool) (text : Text) : Text :=
  ((text.dropWhile p).reverse.dropWhile p).reverse

/-- Puts `between` between neighbouring texts. -/
def join (between : Text) : List Text → Text
  | [] => []
  | [text] => text
  | text :: rest => text ++ between ++ join between rest

/-- Letters `A` to `Z` become small; every other character stays. -/
def asciiLower (text : Text) : Text :=
  text.map Char.toLower

/-- Equality up to the case of ASCII letters. -/
def sameLetters (a b : Text) : Bool :=
  asciiLower a == asciiLower b

end Text

end Changelog
