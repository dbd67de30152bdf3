import Changelog.Text.Basic

/-!
White space, in the sense of the character property of that name, and what is cut at it: words and
trimmed texts.
-/

namespace Changelog.Text

/-- The characters of the property White_Space. -/
def isBlank (c : Char) : Bool :=
  let n := c.toNat
  (9 ≤ n && n ≤ 13) || n == 0x20 || n == 0x85 || n == 0xA0 || n == 0x1680 ||
    (0x2000 ≤ n && n ≤ 0x200A) || n == 0x2028 || n == 0x2029 || n == 0x202F || n == 0x205F ||
    n == 0x3000

/-- The text without the white space at its ends. -/
def trim (text : Text) : Text :=
  trimBy isBlank text

/-- No character but white space. -/
def isAllBlank (text : Text) : Bool :=
  text.all isBlank

/-- A word with the white space before it. -/
structure Item where
  gap : Text
  word : Text
deriving DecidableEq, Repr

/-- The items of a text and the white space after the last of them. -/
structure Items where
  items : List Item
  tail : Text
deriving DecidableEq, Repr

/-- Reads the items from the back: a blank opens the gap of the next word, any other character
belongs to the word that follows it directly. -/
def itemize : Text → Items
  | [] => ⟨[], []⟩
  | c :: rest =>
    match itemize rest with
    | ⟨[], tail⟩ => if isBlank c then ⟨[], c :: tail⟩ else ⟨[⟨[], [c]⟩], tail⟩
    | ⟨⟨gap, word⟩ :: more, tail⟩ =>
      if isBlank c then ⟨⟨c :: gap, word⟩ :: more, tail⟩
      else if gap = [] then ⟨⟨[], c :: word⟩ :: more, tail⟩
      else ⟨⟨[], [c]⟩ :: ⟨gap, word⟩ :: more, tail⟩

/-- The text that the items were read from. -/
def Items.toText (i : Items) : Text :=
  (i.items.flatMap fun item => item.gap ++ item.word) ++ i.tail

theorem toText_itemize (text : Text) : (itemize text).toText = text := by
  induction text with
  | nil => rfl
  | cons c rest ih =>
    unfold itemize
    split <;> rename_i h <;> rw [h] at ih <;> simp only [Items.toText] at ih
    · split <;> simp_all [Items.toText]
    · split
      · simp_all [Items.toText]
      · split <;> simp_all [Items.toText]

/-- The maximal runs of characters other than white space. -/
def words (text : Text) : List Text :=
  (itemize text).items.map Item.word

/-- The text up to each newline, newlines left out; what follows the last newline counts only if
it is not empty. -/
def paragraphs : Text → List Text
  | [] => []
  | c :: rest =>
    if c = '\n' then [] :: paragraphs rest
    else
      match paragraphs rest with
      | [] => [[c]]
      | first :: more => (c :: first) :: more

end Changelog.Text
