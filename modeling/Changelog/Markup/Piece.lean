import Changelog.Markup.Registry

/-!
Splitting a text into tags and plain stretches. Tags are found from left to right; a gap between
them is divided before every opening marker inside it, and a newline that ends the whole text
stands alone.
-/

namespace Changelog

/-- A stretch of a split text: a tag, or plain text. -/
structure Piece where
  tag : Option TagDefinition
  text : Text
deriving DecidableEq, Repr

namespace Piece

def plain (text : Text) : Piece := ⟨none, text⟩

end Piece

/-- Plain text, then tags each followed by the plain text up to the next one. -/
structure TagScan where
  gap : Text
  tags : List (Piece × Text)
deriving DecidableEq, Repr

namespace Registry

/-- Finds the tags of a text, each time the leftmost one. -/
def scan (r : Registry) (text : Text) : TagScan :=
  match _h : r.match? text with
  | some (d, tag, rest) =>
    let after := r.scan rest
    ⟨[], (⟨some d, tag⟩, after.gap) :: after.tags⟩
  | none =>
    match text with
    | [] => ⟨[], []⟩
    | c :: rest =>
      let after := r.scan rest
      ⟨c :: after.gap, after.tags⟩
termination_by text.length
decreasing_by
  · exact rest_length_lt_of_match? _h
  · simp

/-- Whether an opening marker stands at the front of the text. -/
def opensHere (r : Registry) (text : Text) : Bool :=
  r.openers.any fun opener => opener.isPrefixOf text

/-- Divides a gap before every opening marker but one at its front. -/
def plainRuns (r : Registry) : Text → List Text
  | [] => []
  | c :: rest =>
    match r.plainRuns rest with
    | [] => [[c]]
    | run :: more => if r.opensHere rest then [c] :: run :: more else (c :: run) :: more

/-- Divides the gap at the end of the text, where a final newline stands alone. -/
def lastRuns (r : Registry) (gap : Text) : List Text :=
  if gap.length ≤ 1 then r.plainRuns gap
  else
    match Text.before? ['\n'] gap with
    | some body => r.plainRuns body ++ [['\n']]
    | none => r.plainRuns gap

/-- The pieces of a scanned text. -/
def piecesOf (r : Registry) (gap : Text) : List (Piece × Text) → List Piece
  | [] => (r.lastRuns gap).map Piece.plain
  | (tag, next) :: more => (r.plainRuns gap).map Piece.plain ++ tag :: r.piecesOf next more

/-- The pieces of a text, in order. -/
def split (r : Registry) (text : Text) : List Piece :=
  let found := r.scan text
  r.piecesOf found.gap found.tags

theorem flatten_plainRuns (r : Registry) (text : Text) : (r.plainRuns text).flatten = text := by
  induction text with
  | nil => rfl
  | cons c rest ih =>
    unfold plainRuns
    split
    · simp_all
    · split <;> simp_all

theorem flatten_lastRuns (r : Registry) (gap : Text) : (r.lastRuns gap).flatten = gap := by
  unfold lastRuns
  split
  · exact r.flatten_plainRuns gap
  · split
    · rename_i body h
      simp [flatten_plainRuns, Text.before?_eq_some_iff.1 h]
    · exact r.flatten_plainRuns gap

end Registry

end Changelog
