import Changelog.CommandLine.Options
import Changelog.Entry.Record
import Changelog.Layout.Document
import Changelog.Markup.Pattern

/-!
The listing of a description: its segments with their heights, as lines or as a JSON document.
-/

namespace Changelog

/-- A description that has been laid out. -/
structure Listed where
  segments : List Segment
  layout : DocumentLayout Float32
  totalHeight : Nat

namespace Listed

/-- Reads and lays out a description. -/
def ofText? (settings : Settings Float32) (images : ImageCache) (brackets : Bool) (text : Text) :
    Option (Noted Listed) := do
  let raw :=
    if brackets then ({ description := text } : EntryRecord).enhancedDescription else text
  let segments := Segment.ensureTrailingNewline (Text.byteSize raw) (parse raw)
  let laidOut ← DocumentLayout.compute? (.standard settings images .standard) segments
  let totalHeight ← laidOut.value.totalHeight?
  return { laidOut with value := { segments, layout := laidOut.value, totalHeight } }

/-- The segments with their heights. -/
def rows (l : Listed) : List (Segment × Nat) :=
  l.segments.zipIdx.map fun (segment, i) => (segment, (l.layout.heights.height? i).getD 0)

/-- The text behind enough spaces to be `width` characters long. -/
def padLeft (width : Nat) (text : Text) : Text :=
  List.replicate (width - text.length) ' ' ++ text

/-- The text before enough spaces to be `width` characters long. -/
def padRight (width : Nat) (text : Text) : Text :=
  text ++ List.replicate (width - text.length) ' '

def digits (n : Nat) : Text :=
  Nat.toDigits 10 n

/-- The name of what a segment is. -/
def kindName (segment : Segment) : Text :=
  match segment.tag? with
  | some kind => kind.name
  | none => "plain".toList

/-- The line of a segment: its number, what it is, its height and its text. -/
def rowLine (number : Nat) (segment : Segment) (height : Nat) : Text :=
  padLeft 4 (digits number) ++ [' ', ' '] ++ padRight 6 (kindName segment) ++ ' ' ::
    padLeft 6 (digits height) ++ [' ', ' '] ++ Text.quoted segment.text ++ ['\n']

/-- The line below the segments. -/
def totalLine (l : Listed) : Text :=
  "total ".toList ++ digits l.totalHeight ++ " (".toList ++
    digits l.layout.contentHeight ++ " + ".toList ++ digits l.layout.bottomPadding ++
    " padding)\n".toList

/-- The pattern and a blank line, in colours unless they are unwanted. -/
def patternLines (o : Options) : Text :=
  let pattern := Registry.builtin.pattern
  if o.showPattern then
    (if o.noColor then pattern else Pattern.toTerminal (Pattern.runs pattern)) ++ ['\n', '\n']
  else []

/-- The listing as lines. -/
def toLines (l : Listed) (o : Options) : Text :=
  patternLines o ++
    (l.rows.zipIdx.flatMap fun ((segment, height), i) => rowLine i segment height) ++ l.totalLine

/-- A segment with its height. -/
def rowToJson (segment : Segment) (height : Nat) : Json :=
  .object [
    ("text", .string segment.text),
    ("tag", (segment.tag?.map fun kind => Json.string kind.name).getD .null),
    ("underline_ranges", .list (segment.underlines.map Json.string)),
    ("hyperlink_ranges", .list (segment.hyperlinks.map Json.string)),
    ("span", .object [("start", .ofNat segment.span.start), ("end", .ofNat segment.span.stop)]),
    ("height", .ofNat height)]

/-- The listing as a document. -/
def toJson (l : Listed) (o : Options) : Json :=
  let pattern := if o.showPattern then [("pattern", .string Registry.builtin.pattern)] else []
  .object (pattern ++ [
    ("column_width", .ofSingle l.layout.params.columnWidth),
    ("segments", .list (l.rows.map fun (segment, height) => rowToJson segment height)),
    ("bottom_padding", .ofNat l.layout.bottomPadding),
    ("total_height", .ofNat l.totalHeight)])

/-- The listing in the form that is asked for. -/
def print (l : Listed) (o : Options) : String :=
  match o.format with
  | .text => String.ofList (l.toLines o)
  | .json => (l.toJson o).pretty ++ "\n"

end Listed

end Changelog
