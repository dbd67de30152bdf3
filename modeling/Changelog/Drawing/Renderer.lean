import Changelog.Drawing.Canvas
import Changelog.Drawing.Decorated
import Changelog.Drawing.LinkRegions
import Changelog.Drawing.Wrap
import Changelog.Image.Cache

/-!
Drawing down a column. The renderer places texts, images and boxes one below the other, each at the
cursor, which then moves down by the height of what was placed.
-/

namespace Changelog

/-- Time since an entry was opened. -/
structure Elapsed where
  nanoseconds : Nat := 0
deriving DecidableEq, Repr

namespace Elapsed

def ofMilliseconds (n : Nat) : Elapsed := ⟨n * 1000000⟩

/-- Whole seconds. -/
def seconds (e : Elapsed) : Nat :=
  e.nanoseconds / 1000000000

/-- Seconds with their fraction. -/
def toDouble (e : Elapsed) : Float :=
  e.seconds.toUInt64.toFloat + (e.nanoseconds % 1000000000).toUInt64.toFloat / 1000000000

end Elapsed

/-- What one pass has drawn: the height used, and the links. -/
structure RenderOutput (α : Type) where
  height : α
  links : LinkRegions α
deriving Repr

/-- A column being drawn. The first four fields do not change while drawing. -/
structure Renderer (α : Type) where
  settings : Settings α
  images : ImageCache
  /-- The upper left corner of the column. -/
  origin : Point α
  elapsed : Elapsed := {}
  columnWidth : α
  /-- Distance of the cursor from the origin. -/
  cursor : α
  scope : TextScope := {}
  canvas : Canvas α
  links : LinkRegions α := {}
  notices : List Notice := []

namespace Renderer

variable {α : Type} [Scalar α]

/-- A renderer at the top of a column of the usual width. -/
def start (canvas : Canvas α) (settings : Settings α) (images : ImageCache) (origin : Point α) :
    Renderer α :=
  { settings, images, origin, canvas, columnWidth := settings.columnWidth, cursor := Scalar.zero }

/-- Another width of the column; a negative one counts as zero. -/
def withColumnWidth (r : Renderer α) (width : α) : Renderer α :=
  { r with columnWidth := Scalar.larger width Scalar.zero }

/-- Moves the cursor down; a negative height does not move it. -/
def skip (r : Renderer α) (height : α) : Renderer α :=
  { r with cursor := r.cursor + Scalar.larger height Scalar.zero }

def draw (r : Renderer α) (op : DrawOp α) : Renderer α :=
  { r with canvas := r.canvas.draw op }

/-- Draws one thing after the other. -/
def drawAll (r : Renderer α) (ops : List (DrawOp α)) : Renderer α :=
  ops.foldl draw r

def notice (r : Renderer α) (notice : Notice) : Renderer α :=
  { r with notices := r.notices ++ [notice] }

/-- Takes over the value of a computation together with its notices. -/
def note {β : Type} (r : Renderer α) (noted : Noted β) : Renderer α × β :=
  ({ r with notices := r.notices ++ noted.notices }, noted.value)

/-- The pass as a whole. -/
def finish (r : Renderer α) : RenderOutput α :=
  { height := r.cursor, links := r.links }

/-- The vertical position of the cursor on the canvas. -/
def top (r : Renderer α) : α :=
  r.origin.y + r.cursor

/-- Makes a rectangle a link: it opens the address if it was clicked, and is remembered. -/
def linkRect (r : Renderer α) (rect : Rect α) (url : Text) : Renderer α :=
  { r with
    canvas := r.canvas.openIfClicked rect url
    links := r.links.push rect url }

/-- A line along the lower part of a rectangle, at the given part of the line height. -/
def ruleOp (rect : Rect α) (lineHeight part : α) (color : Color) : DrawOp α :=
  let y := rect.y + lineHeight * part
  .line ⟨rect.x, y⟩ ⟨rect.right, y⟩ color

/-- A wrapped line and the place of its upper left corner. -/
structure PlacedLine (α : Type) where
  line : WrappedLine α
  position : Point α

/-- Space to the left of a line. -/
def alignOffset (r : Renderer α) (lineWidth : α) : α :=
  let slack := Scalar.larger (r.columnWidth - lineWidth) Scalar.zero
  match r.scope.anchor.horizontal with
  | .left => Scalar.zero
  | .center => slack / Scalar.ofNat 2
  | .right => slack

/-- The lines of a text, placed from the cursor on. -/
def placedLines (r : Renderer α) (text : Text) (font : FontSize) : List (PlacedLine α) :=
  let lineHeight := r.canvas.measurer.lineHeight font
  let lines := Wrap.Column.lines ⟨r.canvas.measurer, font, r.columnWidth⟩ text
  lines.zipIdx.map fun (line, i) =>
    { line
      position :=
        { x := r.origin.x + r.alignOffset line.width
          y := r.top + Scalar.ofNat i * lineHeight } }

/-- The part of a span that lies on a line. -/
def onLine (span : Span) (line : Span) : Span :=
  ⟨max span.start line.start, min span.stop line.stop⟩

/-- The rectangles of a span, one for each line that it has a part of. -/
def spanRects (measurer : Measurer α) (font : FontSize) (text : Text)
    (placed : List (PlacedLine α)) (span : Span) : List (Rect α) :=
  placed.filterMap fun p =>
    let part := onLine span p.line.span
    if part.start < part.stop then
      some
        { x := p.position.x +
            measurer.textWidth (Text.slice p.line.span.start part.start text) font
          y := p.position.y
          width := measurer.textWidth (Text.slice part.start part.stop text) font
          height := measurer.lineHeight font }
    else none

/-- A decoration with its rectangles. -/
structure PlacedDecoration (α : Type) where
  decoration : Decoration
  rects : List (Rect α)
  /-- Whether the pointer is over one of the rectangles. -/
  hovered : Bool

def placedDecorations (r : Renderer α) (block : DecoratedText) (font : FontSize)
    (placed : List (PlacedLine α)) : List (PlacedDecoration α) :=
  block.decorations.map fun decoration =>
    let rects := spanRects r.canvas.measurer font block.text placed decoration.span
    { decoration, rects, hovered := rects.any r.canvas.isHovered }

/-- A stretch of a line in one colour. -/
structure ColoredRun where
  span : Span
  color : Color
deriving DecidableEq, Repr

/-- The stretches of a line from offset `mark` on: links in their colour, all else in the colour of
the block. -/
def lineRuns (settings : Settings α) (color : Color) (line : Span) (mark : Nat) :
    List (PlacedDecoration α) → List ColoredRun
  | [] => if mark < line.stop then [⟨⟨mark, line.stop⟩, color⟩] else []
  | d :: rest =>
    match d.decoration.kind with
    | .underline => lineRuns settings color line mark rest
    | .link _ =>
      let part := onLine d.decoration.span line
      if part.start < part.stop then
        let linkColor := if d.hovered then settings.linkHoverColor else settings.linkColor
        (if mark < part.start then [⟨⟨mark, part.start⟩, color⟩] else []) ++
          ⟨part, linkColor⟩ :: lineRuns settings color line part.stop rest
      else lineRuns settings color line mark rest

/-- What is drawn of a line. -/
def lineOps (r : Renderer α) (block : DecoratedText) (style : TextStyle)
    (decorations : List (PlacedDecoration α)) (placed : PlacedLine α) : List (DrawOp α) :=
  let line := placed.line.span
  (lineRuns r.settings style.color line line.start decorations).map fun run =>
    let x := placed.position.x +
      r.canvas.measurer.textWidth (Text.slice line.start run.span.start block.text) style.font
    .text ⟨x, placed.position.y⟩ (Text.slice run.span.start run.span.stop block.text)
      { style with color := run.color }

/-- Where a line under text runs, as a part of the line height. -/
def underlinePart : α := Scalar.ratio 17 20

/-- Draws one rectangle of a link, and makes it a link. -/
def placeLinkRect (font : FontSize) (hovered : Bool) (url : Text) (r : Renderer α) (rect : Rect α) :
    Renderer α :=
  let lineHeight := r.canvas.measurer.lineHeight font
  let r := r.draw (.tooltip rect url)
  let r := if hovered then r.draw (ruleOp rect lineHeight underlinePart .mouseover) else r
  r.linkRect rect url

/-- Draws the lines and boxes of a decoration. -/
def placeDecoration (style : TextStyle) (r : Renderer α) (d : PlacedDecoration α) : Renderer α :=
  match d.decoration.kind with
  | .underline =>
    let lineHeight := r.canvas.measurer.lineHeight style.font
    r.drawAll (d.rects.map fun rect => ruleOp rect lineHeight underlinePart style.color)
  | .link url => d.rects.foldl (placeLinkRect style.font d.hovered url) r

/-- Wraps and draws a text at the cursor. Gives the height placed. -/
def placeBlock (r : Renderer α) (block : DecoratedText) (style : TextStyle) : Renderer α × α :=
  let placed := r.placedLines block.text style.font
  let decorations := r.placedDecorations block style.font placed
  let height := Scalar.ofNat placed.length * r.canvas.measurer.lineHeight style.font
  let r := r.drawAll (placed.flatMap (r.lineOps block style decorations))
  let r := decorations.foldl (placeDecoration style) r
  (r.skip height, height)

/-- Draws a text in the current font. -/
def placeText (r : Renderer α) (text : Text) : Renderer α × α :=
  r.placeBlock (DecoratedText.plain text) { font := r.scope.font }

/-- Draws a plain segment with its decorations. -/
def placeAnnotated (r : Renderer α) (segment : Segment) : Renderer α × α :=
  let (r, block) := r.note (DecoratedText.ofSegment segment)
  r.placeBlock block { font := r.scope.font }

/-- Draws a heading in bold body text with a rule beneath it. -/
def placeTitle (r : Renderer α) (text : Text) : Renderer α × α :=
  let style : TextStyle := { font := .small, bold := true }
  let (r, textHeight) := r.placeBlock (DecoratedText.plain text) style
  let r := r.draw (.line ⟨r.origin.x, r.top⟩ ⟨r.origin.x + r.columnWidth, r.top⟩ style.color)
  let padding := Scalar.ofNat r.settings.titlePadding.toNat
  (r.skip padding, textHeight + padding)

/-- A rectangle at the cursor, centred in the column. -/
def centered (r : Renderer α) (width height : α) : Rect α :=
  { x := r.origin.x + (r.columnWidth - width) / Scalar.ofNat 2
    y := r.top
    width
    height }

/-- Draws the part `source` of a texture at the given height, with its proportions kept. -/
def placeTexture (r : Renderer α) (texture : Texture) (height : α) (source : Rect α) :
    Renderer α × α :=
  let sourceWidth := Scalar.ofNat texture.size.width * source.width
  let sourceHeight := Scalar.ofNat texture.size.height * source.height
  let width :=
    if Scalar.zero < sourceHeight then sourceWidth / sourceHeight * height else Scalar.zero
  let r := r.draw (.texture (r.centered width height) texture.name source)
  (r.skip height, height)

/-- Draws a box with a message, no wider than the column. There is no such box in a column whose
width is negative or not a number. -/
def placePlaceholder? (r : Renderer α) (width height : α) (message : Text) :
    Option (Renderer α × α) :=
  if Scalar.zero ≤ r.columnWidth then
    let width := Scalar.clamp Scalar.zero r.columnWidth width
    let r := r.draw (.placeholder (r.centered width height) message)
    some (r.skip height, height)
  else none

/-- Draws a link on a row of its own. -/
def placeLinkRow (r : Renderer α) (name url : Text) : Renderer α × α :=
  let font := r.scope.font
  let lineHeight := r.canvas.measurer.lineHeight font
  let rect : Rect α :=
    { x := r.origin.x
      y := r.top
      width := r.canvas.measurer.textWidth name font
      height := lineHeight }
  let hovered := r.canvas.isHovered rect
  let color := if hovered then .mouseover else r.settings.linkColor
  let r := r.draw (.text ⟨rect.x, rect.y⟩ name { font, color })
  let r :=
    if hovered then r.draw (ruleOp rect lineHeight (Scalar.ratio 3 4) .mouseover) else r
  ((r.linkRect rect url).skip lineHeight, lineHeight)

end Renderer

end Changelog
