import Changelog.Markup.Segment
import Changelog.Notice
import Changelog.Text.Quoted

/-!
Plain text as it is drawn. The annotations of a segment are found again in its text by the way they
are written; each is replaced by what it shows, and the place of the replacement is remembered.
-/

namespace Changelog

/-- How a stretch of drawn text is decorated. -/
inductive DecorationKind where
  | underline
  | link (url : Text)
deriving DecidableEq, Repr

/-- A decorated stretch of drawn text. -/
structure Decoration where
  span : Span
  kind : DecorationKind
deriving DecidableEq, Repr

/-- Drawn text with its decorations from left to right. -/
structure DecoratedText where
  text : Text := []
  decorations : List Decoration := []
deriving DecidableEq, Repr

namespace DecoratedText

def plain (text : Text) : DecoratedText :=
  { text }

/-- The text of a decoration. -/
def decorationText (d : DecoratedText) (decoration : Decoration) : Text :=
  Text.slice decoration.span.start decoration.span.stop d.text

end DecoratedText

/-- What an annotation is for. -/
inductive AnnotationKind where
  | underline
  | link
deriving DecidableEq, Repr

/-- An annotation as written, with the offset where it was found. -/
structure Occurrence where
  start : Nat
  literal : Text
  kind : AnnotationKind
deriving DecidableEq, Repr

namespace Occurrence

def stop (o : Occurrence) : Nat :=
  o.start + Text.byteSize o.literal

/-- Whether the literal at offset `start` would have no byte in common with this one. -/
def isApart (o : Occurrence) (start : Nat) (literal : Text) : Bool :=
  start + Text.byteSize literal ≤ o.start || o.stop ≤ start

/-- What is shown of an annotation and how; a literal that is no link is shown as it is. -/
def shown (o : Occurrence) : Text × Option DecorationKind :=
  match o.kind with
  | .underline => (Annotations.underlineContent o.literal, some .underline)
  | .link =>
    match Annotations.hyperlink? o.literal with
    | some link => (link.display, some (.link link.url))
    | none => (o.literal, none)

end Occurrence

namespace DecoratedText

/-- Offsets of the literal in a text that begins at `offset`, from left to right and without
overlaps. The next `skip` characters belong to an occurrence already counted. -/
def occurrencesFrom (literal : Text) (skip offset : Nat) : Text → List Nat
  | [] => if literal = [] then [offset] else []
  | c :: rest =>
    let next := offset + c.utf8Size
    match skip with
    | skip + 1 => occurrencesFrom literal skip next rest
    | 0 =>
      if literal.isPrefixOf (c :: rest) then
        offset :: occurrencesFrom literal (literal.length - 1) next rest
      else occurrencesFrom literal 0 next rest

/-- Offsets of the literal in a text. -/
def occurrences (literal text : Text) : List Nat :=
  occurrencesFrom literal 0 0 text

/-- The notice about an annotation that is not in its text. -/
def missingNotice (literal text : Text) : Notice :=
  { severity := .warning
    key := ['d', 'e', 'c', 'o', 'r', 'a', 't', 'i', 'o', 'n', ':'] ++ literal
    message := "Failed to find " ++ String.ofList (Text.quoted literal) ++ " in " ++
      String.ofList (Text.quoted text) }

/-- Finds the annotations one after the other, each at its first occurrence that has nothing in
common with the ones found before. -/
def locateAll (text : Text) (found : List Occurrence) :
    List (Text × AnnotationKind) → Noted (List Occurrence)
  | [] => pure found
  | (literal, kind) :: rest =>
    let free := (occurrences literal text).find? fun start =>
      found.all fun earlier => earlier.isApart start literal
    match free with
    | some start => locateAll text (found ++ [⟨start, literal, kind⟩]) rest
    | none => do
      Noted.tell (missingNotice literal text)
      locateAll text found rest

/-- Occurrences in the order of their places; of two at one place the earlier one stays first. -/
def inOrder (found : List Occurrence) : List Occurrence :=
  found.mergeSort fun a b => a.start ≤ b.start

/-- Replaces occurrences, which stand in order, by what they show, and adds the rest of the text
from offset `last` on to `drawn`. -/
def replaceFrom (text : Text) (drawn : DecoratedText) (last : Nat) : List Occurrence → DecoratedText
  | [] => { drawn with text := drawn.text ++ Text.slice last (Text.byteSize text) text }
  | next :: rest =>
    let before := drawn.text ++ Text.slice last next.start text
    let (shown, kind) := next.shown
    let start := Text.byteSize before
    let decoration := kind.map fun kind =>
      (⟨⟨start, start + Text.byteSize shown⟩, kind⟩ : Decoration)
    replaceFrom text
      { text := before ++ shown, decorations := drawn.decorations ++ decoration.toList }
      next.stop rest

/-- The drawn form of a text with these annotations. Links are found before underlines, so an
underline inside a link is drawn as written. -/
def resolve (text : Text) (underlines hyperlinks : List Text) : Noted DecoratedText := do
  let found ← locateAll text []
    (hyperlinks.map (·, .link) ++ underlines.map (·, .underline))
  return replaceFrom text {} 0 (inOrder found)

/-- The drawn form of a segment. -/
def ofSegment (s : Segment) : Noted DecoratedText :=
  resolve s.text s.underlines s.hyperlinks

end DecoratedText

end Changelog
