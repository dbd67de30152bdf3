import Changelog.Drawing.Measurer

/-!
Word wrap. The words of a paragraph fill lines one after the other; a word goes to a new line where
the line together with it is wider than the column. Words are never broken, so one that is wider
than the column stands alone and sticks out.
-/

namespace Changelog

/-- A line of wrapped text: its place in the text, what stands there, and its width. -/
structure WrappedLine (α : Type) where
  span : Span
  text : Text
  width : α
deriving Repr

namespace Wrap

variable {α : Type} [Scalar α]

/-- The column that text is wrapped to. -/
structure Column (α : Type) where
  measurer : Measurer α
  font : FontSize
  width : α

/-- Whether a text fits in the column on one line. -/
def Column.fits (c : Column α) (text : Text) : Bool :=
  c.measurer.textWidth text c.font ≤ c.width

/-- The line that holds `text` from offset `start` on. -/
def Column.line (c : Column α) (start : Nat) (text : Text) : WrappedLine α :=
  { span := ⟨start, start + Text.byteSize text⟩
    text
    width := c.measurer.textWidth text c.font }

/-- Fills lines with items, the first of which begins with `text` at offset `start`. -/
def Column.fill (c : Column α) (start : Nat) (text : Text) : List Text.Item → List (WrappedLine α)
  | [] => [c.line start text]
  | item :: rest =>
    let longer := text ++ item.gap ++ item.word
    if c.fits longer then c.fill start longer rest
    else
      c.line start text ::
        c.fill (start + Text.byteSize text + Text.byteSize item.gap) item.word rest

/-- The lines of a paragraph that begins at offset `base`. One without words is an empty line. -/
def Column.paragraphLines (c : Column α) (base : Nat) (paragraph : Text) : List (WrappedLine α) :=
  match (Text.itemize paragraph).items with
  | [] => [{ span := ⟨base, base⟩, text := [], width := Scalar.zero }]
  | item :: rest => c.fill (base + Text.byteSize item.gap) item.word rest

/-- The lines of paragraphs that begin at offset `base`; a newline follows each of them. A carriage
return before the newline belongs to it. -/
def Column.linesFrom (c : Column α) (base : Nat) : List Text → List (WrappedLine α)
  | [] => []
  | paragraph :: rest =>
    c.paragraphLines base ((Text.before? ['\r'] paragraph).getD paragraph) ++
      c.linesFrom (base + Text.byteSize paragraph + 1) rest

/-- The lines of a text. -/
def Column.lines (c : Column α) (text : Text) : List (WrappedLine α) :=
  c.linesFrom 0 (Text.paragraphs text)

end Wrap

/-- Height of a text wrapped to a column. -/
def Measurer.textHeight {α : Type} [Scalar α] (m : Measurer α) (text : Text) (width : α)
    (font : FontSize) : α :=
  Scalar.ofNat (Wrap.Column.lines ⟨m, font, width⟩ text).length * m.lineHeight font

end Changelog
