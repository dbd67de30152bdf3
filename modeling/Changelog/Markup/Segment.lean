import Changelog.Markup.Piece
import Changelog.Markup.Annotations

/-!
The segments of a description: tags by their inner text, and plain text with the annotations found
in it. Reading never fails: what forms no complete tag is plain text.
-/

namespace Changelog

/-- What a segment holds. -/
inductive Content where
  /-- A tag and the text between its markers. -/
  | tagged (kind : TagKind) (inner : Text)
  /-- Text as written, with the annotations in it as written. -/
  | plain (text : Text) (underlines hyperlinks : List Text)
deriving DecidableEq, Repr

/-- A segment and its place in the description. -/
structure Segment where
  content : Content
  span : Span
deriving DecidableEq, Repr

namespace Segment

/-- The inner text of a tag, or plain text with its annotations. -/
def text (s : Segment) : Text :=
  match s.content with
  | .tagged _ inner => inner
  | .plain text _ _ => text

def tag? (s : Segment) : Option TagKind :=
  match s.content with
  | .tagged kind _ => some kind
  | .plain .. => none

def underlines (s : Segment) : List Text :=
  match s.content with
  | .tagged .. => []
  | .plain _ underlines _ => underlines

def hyperlinks (s : Segment) : List Text :=
  match s.content with
  | .tagged .. => []
  | .plain _ _ hyperlinks => hyperlinks

/-- Plain text with at least one annotation. -/
def isAnnotated (s : Segment) : Bool :=
  !s.underlines.isEmpty || !s.hyperlinks.isEmpty

/-- Whether the segment only changes the style of what follows. -/
def isInstruction (s : Segment) : Bool :=
  match s.tag? with
  | some kind => kind.isInstruction
  | none => false

/-- A newline added behind a text of the given size. -/
def newline (size : Nat) : Segment :=
  ⟨.plain ['\n'] [] [], ⟨size, size⟩⟩

end Segment

namespace Content

/-- Plain text with the annotations found in it. -/
def ofPlain (text : Text) : Content :=
  .plain text (Annotations.underlineLiterals text) (Annotations.linkLiterals text)

/-- What a piece holds: the inner text of its tag, or plain text. -/
def ofPiece (piece : Piece) : Content :=
  match piece.tag with
  | some d =>
    match d.strip? piece.text with
    | some inner => .tagged d.kind inner
    | none => ofPlain piece.text
  | none => ofPlain piece.text

end Content

/-- Whether a piece gives no segment: a newline by itself. -/
def Piece.isDropped (piece : Piece) : Bool :=
  piece.text = [] || piece.text = ['\n']

/-- The segments of pieces that begin at `start`. -/
def Segment.ofPieces (start : Nat) : List Piece → List Segment
  | [] => []
  | piece :: rest =>
    let stop := start + Text.byteSize piece.text
    let more := ofPieces stop rest
    if piece.isDropped then more else ⟨Content.ofPiece piece, ⟨start, stop⟩⟩ :: more

/-- The places of pieces that begin at `start`. -/
def Piece.spans (start : Nat) : List Piece → List Span
  | [] => []
  | piece :: rest =>
    let stop := start + Text.byteSize piece.text
    ⟨start, stop⟩ :: spans stop rest

/-- Splits a description into segments. -/
def Registry.parse (r : Registry) (raw : Text) : List Segment :=
  Segment.ofPieces 0 (r.split raw)

/-- Splits a description by the usual tags. -/
def parse (raw : Text) : List Segment :=
  Registry.builtin.parse raw

namespace Segment

/-- Adds a newline behind a last segment whose text does not end with one. No segments stay none. -/
def ensureTrailingNewline (size : Nat) (segments : List Segment) : List Segment :=
  match segments.getLast? with
  | none => []
  | some last => if last.text.getLast? = some '\n' then segments else segments ++ [newline size]

/-- The parts of the description that the segments were read from. -/
def reconstruct (raw : Text) (segments : List Segment) : Text :=
  segments.flatMap fun s => Text.slice s.span.start s.span.stop raw

end Segment

end Changelog
