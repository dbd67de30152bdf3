import Changelog.Proofs.Drawing.Marks
import Changelog.Proofs.Drawing.Resolved
import Changelog.Proofs.Drawing.WrappedLines

/-! What is drawn of a block. Its links and its lines divide the same text in two ways; the runs of a line
are its parts in both, and a link has a box on each line that it has a byte on. Whatever is cut out of a
text for this lies in it. -/

namespace Changelog

/-- The links of a text: where each stands, and where it leads. -/
def DecoratedText.links (d : DecoratedText) : List (Span × Text) :=
  d.decorations.flatMap fun decoration =>
    match decoration.kind with
    | .underline => []
    | .link url => [(decoration.span, url)]

namespace Renderer

variable {α : Type} [Scalar α] (r : Renderer α) (block : DecoratedText) (style : TextStyle)

/-- The lines that the text of a block is wrapped to. -/
def blockLines : List (WrappedLine α) :=
  Wrap.Column.lines ⟨r.canvas.measurer, style.font, r.columnWidth⟩ block.text

/-- The upper left corner of a line, the number of which counts from the top of the block. -/
def lineCorner (line : WrappedLine α) (number : Nat) : Point α :=
  { x := r.origin.x + r.alignOffset line.width
    y := r.top + Scalar.ofNat number * r.canvas.measurer.lineHeight style.font }

/-- The box around the part of a span that stands on a line. -/
def partBox (span : Span) (line : WrappedLine α) (number : Nat) : Rect α :=
  let part := onLine span line.span
  let width (start stop : Nat) : α :=
    r.canvas.measurer.textWidth (Text.slice start stop block.text) style.font
  { x := (r.lineCorner style line number).x + width line.span.start part.start
    y := (r.lineCorner style line number).y
    width := width part.start part.stop
    height := r.canvas.measurer.lineHeight style.font }

/-- The boxes of a span from the top: one for each line that it has a byte in common with. -/
def boxes (span : Span) : List (Rect α) :=
  ((r.blockLines block style).zipIdx.filter fun own => span.Meets own.1.span).map fun own =>
    r.partBox block style span own.1 own.2

/-- The colour of a link. All of it has the other colour if the pointer is over one of its boxes. -/
def linkColor (span : Span) : Color :=
  if (r.boxes block style span).any r.canvas.isHovered then r.settings.linkHoverColor
  else r.settings.linkColor

/-- What is drawn for a run of a line. -/
def runOp (line : WrappedLine α) (number : Nat) (run : ColoredRun) : DrawOp α :=
  let corner := r.lineCorner style line number
  let before := Text.slice line.span.start run.span.start block.text
  .text ⟨corner.x + r.canvas.measurer.textWidth before style.font, corner.y⟩
    (Text.slice run.span.start run.span.stop block.text) { style with color := run.color }

/-- The runs are the line, cut where its colour changes. -/
structure DrawnLine (line : WrappedLine α) (runs : List ColoredRun) : Prop where
  standsAt : Text.StandsAt line.text block.text line.span
  tiles : Span.Tiles line.span.start line.span.stop (runs.map ColoredRun.span)
  nonempty : ∀ run ∈ runs, Text.slice run.span.start run.span.stop block.text ≠ []
  text_eq : runs.flatMap (fun run => Text.slice run.span.start run.span.stop block.text) = line.text
  hasSpan : ∀ run ∈ runs, Text.HasSpan block.text run.span ∧
    Text.HasSpan block.text ⟨line.span.start, run.span.start⟩
  /-- A byte has the colour of the link that it belongs to, or else that of the block. -/
  color : ∀ run ∈ runs, ∀ i, run.span.Covers i →
    (∃ link ∈ block.links, link.1.Covers i ∧ run.color = r.linkColor block style link.1) ∨
    run.color = style.color ∧ ∀ link ∈ block.links, ¬link.1.Covers i

/-- What is drawn of a block, and where it can be clicked. -/
structure DrawsBlock : Prop where
  /-- Wrapping measures nothing but parts of the text. -/
  wraps : ∀ c, Wrap.Column.AgreesOn block.text ⟨r.canvas.measurer, style.font, r.columnWidth⟩ c →
    c.lines block.text = r.blockLines block style
  /-- The texts drawn are runs of the lines, line by line. -/
  texts : ∃ runs : WrappedLine α → List ColoredRun,
    (r.placeBlock block style).1.canvas.texts = r.canvas.texts ++
      ((r.blockLines block style).zipIdx.flatMap fun own =>
        (runs own.1).map (r.runOp block style own.1 own.2)) ∧
    ∀ line ∈ r.blockLines block style, r.DrawnLine block style line (runs line)
  /-- What is measured for the box of a decoration lies in the text. -/
  parts : ∀ line ∈ r.blockLines block style, ∀ d ∈ block.decorations, d.span.Meets line.span →
    Text.HasSpan block.text (onLine d.span line.span) ∧
      Text.HasSpan block.text ⟨line.span.start, (onLine d.span line.span).start⟩
  /-- The new regions are the boxes of the links, link by link, each with the address of its link. -/
  regions : (r.placeBlock block style).1.links.regions =
    r.links.regions ++ block.links.flatMap fun link =>
      (r.boxes block style link.1).map fun box => ⟨box, link.2⟩

variable {r block style}

/-- The lines that drawing places are those of the text, one below the other. -/
theorem placedLines_eq :
    r.placedLines block.text style.font = (r.blockLines block style).zipIdx.map fun own =>
      { line := own.1, position := r.lineCorner style own.1 own.2 } :=
  rfl

/-- The rectangles that drawing finds for a span are its boxes. -/
theorem spanRects_eq_boxes (span : Span) :
    spanRects r.canvas.measurer style.font block.text (r.placedLines block.text style.font) span =
      r.boxes block style span := by
  rw [spanRects_eq, placedLines_eq, List.filter_map, List.map_map]
  rfl

/-- The regions that drawing leaves are those of the links. -/
theorem flatMap_linkRegions :
    block.decorations.flatMap (r.linkRegions block style.font) =
      block.links.flatMap fun link => (r.boxes block style link.1).map fun box => ⟨box, link.2⟩ := by
  unfold DecoratedText.links
  rw [List.flatMap_assoc]
  refine congrArg (List.flatMap · block.decorations) (funext fun d => ?_)
  unfold linkRegions
  cases d.kind with
  | underline => rfl
  | link url =>
      rw [List.flatMap_singleton, ← spanRects_eq_boxes, spanRects_eq, List.map_map]
      rfl

/-- The runs that drawing finds for a line. -/
def lineRunsOf (r : Renderer α) (block : DecoratedText) (style : TextStyle) (line : WrappedLine α) :
    List ColoredRun :=
  lineRuns r.settings style.color line.span line.span.start
    (r.placedDecorations block style.font (r.placedLines block.text style.font))

theorem standsAt_of_mem_blockLines {line : WrappedLine α} (h : line ∈ r.blockLines block style) :
    Text.StandsAt line.text block.text line.span :=
  (Wrap.divides_lines block.text).standsAt _ line h

/-- Placing decorations keeps their spans, and gives the links their colours. -/
theorem of_mem_placedDecorations {d : PlacedDecoration α}
    (h : d ∈ r.placedDecorations block style.font (r.placedLines block.text style.font)) :
    d.decoration ∈ block.decorations ∧
      ∀ color, d.linkColor? r.settings = some color →
        color = r.linkColor block style d.span ∧ ∃ url, (d.span, url) ∈ block.links := by
  obtain ⟨decoration, hMem, rfl⟩ := List.mem_map.1 h
  refine ⟨hMem, fun color hColor => ?_⟩
  unfold PlacedDecoration.linkColor? at hColor
  cases hKind : decoration.kind with
  | underline =>
      rw [hKind] at hColor
      cases hColor
  | link url =>
      rw [hKind] at hColor
      obtain rfl := Option.some.inj hColor
      refine ⟨?_, url, List.mem_flatMap.2 ⟨decoration, hMem, by rw [hKind]; exact List.mem_cons_self⟩⟩
      dsimp only
      rw [spanRects_eq_boxes]
      rfl

variable (r style) in
/-- Every link is placed, and has a colour. -/
theorem exists_placed_of_mem_links {link : Span × Text} (h : link ∈ block.links) :
    ∃ d ∈ r.placedDecorations block style.font (r.placedLines block.text style.font),
      d.span = link.1 ∧ d.linkColor? r.settings ≠ none := by
  obtain ⟨decoration, hMem, hLink⟩ := List.mem_flatMap.1 h
  cases hKind : decoration.kind with
  | underline =>
      rw [hKind] at hLink
      cases hLink
  | link url =>
      rw [hKind] at hLink
      obtain rfl := List.mem_singleton.1 hLink
      refine ⟨_, List.mem_map_of_mem hMem, rfl, ?_⟩
      rw [PlacedDecoration.linkColor?]
      dsimp only
      rw [hKind]
      exact Option.some_ne_none _

/-- What drawing finds for a line are its runs. Nothing but the order of the decorations is needed for
it. -/
theorem drawnLine (hOrder : block.InOrder) {line : WrappedLine α}
    (hMem : line ∈ r.blockLines block style) :
    r.DrawnLine block style line (r.lineRunsOf block style line) := by
  have hStands := standsAt_of_mem_blockLines hMem
  have hLine := hStands.hasSpan
  have hAhead : Ahead line.span line.span.start
      (r.placedDecorations block style.font (r.placedLines block.text style.font)) :=
    ⟨Nat.le_refl _, hLine.start_le, List.pairwise_map.2 hOrder.ordered, fun d _ => Nat.le_max_right ..⟩
  have hTiles : Span.Tiles line.span.start line.span.stop
      ((r.lineRunsOf block style line).map ColoredRun.span) := hAhead.tiles
  have hRuns : ∀ run ∈ r.lineRunsOf block style line, Text.HasSpan block.text run.span := fun run hRun =>
    hAhead.hasSpan hLine (fun d hd => hOrder.hasSpan _ (of_mem_placedDecorations hd).1) hRun
  refine ⟨hStands, hTiles, fun run hRun => ?_, ?_, fun run hRun => ?_, fun run hRun i hCovers => ?_⟩
  · exact (hRuns run hRun).slice_ne_nil (hTiles.of_mem (List.mem_map_of_mem hRun)).2.1
  · rw [← hStands.slice_eq, ← hTiles.flatMap_slice, List.flatMap_map]
  · exact ⟨hRuns run hRun, (hTiles.of_mem (List.mem_map_of_mem hRun)).1, hLine.start,
      (hRuns run hRun).start⟩
  · rcases hAhead.color_eq hRun hCovers with ⟨d, hd, hSpan, hColor⟩ | ⟨hColor, hNone⟩
    · obtain ⟨hEq, url, hLink⟩ := (of_mem_placedDecorations hd).2 _ hColor
      exact .inl ⟨_, hLink, hSpan, hEq⟩
    · refine .inr ⟨hColor, fun link hLink hSpan => ?_⟩
      obtain ⟨d, hd, hEq, hSome⟩ := exists_placed_of_mem_links r style hLink
      exact hSome (hNone d hd (hEq ▸ hSpan))

/-- A block whose decorations lie in order is drawn line by line without a gap. -/
theorem drawsBlock (r : Renderer α) (style : TextStyle) (hOrder : block.InOrder) :
    r.DrawsBlock block style := by
  have hMarks := marks_placeBlock r block style
  refine ⟨fun c hAgree => (Wrap.divides_lines block.text).agrees _ c hAgree,
    ⟨r.lineRunsOf block style, ?_, fun line hMem => drawnLine hOrder hMem⟩,
    fun line hMem d hd hMeets => ?_, ?_⟩
  · rw [hMarks.texts_eq]
    exact congrArg _ (List.flatMap_map ..)
  · have hLine := (standsAt_of_mem_blockLines hMem).hasSpan
    have hPart := hasSpan_onLine (hOrder.hasSpan d hd) hLine hMeets
    exact ⟨hPart, Nat.le_max_right .., hLine.start, hPart.start⟩
  · rw [hMarks.regions_eq, flatMap_linkRegions]

/-- The text that annotations were resolved in is drawn line by line without a gap, with each link in its
colour and clickable where it stands; and every slice that is taken on the way lies in its text and cuts
no character. -/
theorem placeBlock_resolved (r : Renderer α) (style : TextStyle) (text : Text)
    {underlines hyperlinks : List Text} (hUnderlines : [] ∉ underlines)
    (hHyperlinks : [] ∉ hyperlinks) :
    (∀ cut ∈ DecoratedText.cutsFrom text 0 (DecoratedText.inOrder (DecoratedText.locateAll text []
        (hyperlinks.map (·, .link) ++ underlines.map (·, .underline))).value),
      Text.HasSpan text cut) ∧
    r.DrawsBlock (DecoratedText.resolve text underlines hyperlinks).value style := by
  refine ⟨DecoratedText.hasSpan_cuts fun l hl => ?_,
    drawsBlock r style (DecoratedText.inOrder_resolve text underlines hyperlinks)⟩
  rcases List.mem_append.1 hl with hl | hl
  · obtain ⟨literal, hMem, rfl⟩ := List.mem_map.1 hl
    exact ne_of_mem_of_not_mem hMem hHyperlinks
  · obtain ⟨literal, hMem, rfl⟩ := List.mem_map.1 hl
    exact ne_of_mem_of_not_mem hMem hUnderlines

/-- A link across a line break, with an underline in the same text. -/
theorem placeBlock_resolved_across_lines :
    let r : Renderer Float32 :=
      .start { measurer := .standard } { columnWidth := 30 } {} ⟨0, 0⟩
    let text := "<link>a b c d</link> <u>e</u>".toList
    [] ∉ ["<u>e</u>".toList] ∧ [] ∉ ["<link>a b c d</link>".toList] ∧
      (∀ cut ∈ DecoratedText.cutsFrom text 0 (DecoratedText.inOrder (DecoratedText.locateAll text []
          (["<link>a b c d</link>".toList].map (·, .link) ++
            ["<u>e</u>".toList].map (·, .underline))).value),
        Text.HasSpan text cut) ∧
      r.DrawsBlock (DecoratedText.resolve text ["<u>e</u>".toList]
        ["<link>a b c d</link>".toList]).value { font := .small } :=
  ⟨by decide, by decide, placeBlock_resolved _ _ _ (by decide) (by decide)⟩

end Renderer

end Changelog
