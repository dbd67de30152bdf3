import Changelog.Proofs.Entry.Pass

/-! Drawing the part of a document that is seen through a window. The segments above the window are left
out, except for instructions, and the cursor jumps to the first visible one; still every segment is drawn
as in the whole document, moved up by the rows above the window. This needs a layout that was computed
with the measurer of the canvas, and machine words that hold what is added up. -/

namespace Changelog.Entry

open Renderer

variable (e : Entry ℚ) (canvas : Canvas ℚ) (origin : Point ℚ) (viewport : Option Viewport)
  (elapsed : Elapsed)

/-- The column that a pass draws in. For a window it begins above the origin by the rows that are
scrolled away. -/
def column : Renderer ℚ :=
  let shift : ℚ := (viewport.map fun view => (view.scroll : ℚ)).getD 0
  { Renderer.start canvas e.settings e.images ⟨origin.x, origin.y - shift⟩ with elapsed }

/-- What `renderWith?` draws, segment by segment. -/
def placedSegments? (layout : DocumentLayout ℚ) : Option (List PlacedSegment) :=
  (e.visibleRange? layout viewport).bind fun range =>
    ((e.column canvas origin viewport elapsed).placeSegments?
        ((e.segments.take range.start).filter Segment.isInstruction)).bind fun r =>
      placedRange? layout r ((e.segments.zipIdx.drop range.start).take range.size)

/-- A segment drawn higher up. -/
def PlacedSegment.shiftUp (s : ℚ) (placed : PlacedSegment) : PlacedSegment :=
  { placed with top := placed.top - s, ops := placed.ops.map (DrawOp.shiftUp s) }

variable {e canvas origin viewport elapsed} {layout : DocumentLayout ℚ} {range : VisibleRange}

/-- Moving the cursor to the end of the range draws nothing. -/
theorem renderWith?_eq {r last : Renderer ℚ}
    (hRange : e.visibleRange? layout viewport = some range)
    (hInstructions : (e.column canvas origin viewport elapsed).placeSegments?
      ((e.segments.take range.start).filter Segment.isInstruction) = some r)
    (hPlace : placeRange? layout r ((e.segments.zipIdx.drop range.start).take range.size) = some last) :
    ∃ final, e.renderWith? layout canvas origin viewport elapsed = some final ∧
      final.canvas.ops = last.canvas.ops := by
  have hAligned := (step_alignTo last (layout.segmentOffset range.stop)).ops_eq
  rw [List.append_nil] at hAligned
  unfold renderWith?
  rw [hRange]
  show ∃ final, Option.bind ((e.column canvas origin viewport elapsed).placeSegments? _) _ =
    some final ∧ _
  rw [hInstructions, Option.bind_some]
  show ∃ final, Option.bind (placeRange? layout r _) _ = some final ∧ _
  rw [hPlace, Option.bind_some]
  split
  · exact ⟨_, rfl, hAligned⟩
  · exact ⟨_, rfl, hAligned⟩

/-- What a pass over the numbers in `range` draws. -/
def placedIn (r : Renderer ℚ) (segments : List Segment) (range : VisibleRange) :
    List PlacedSegment :=
  (segments.zipIdx.filter fun own => range.contains own.2).map (placedAt r segments)

variable (origin viewport elapsed) in
/-- A pass draws exactly the segments of its range, each as it is drawn by itself. -/
theorem exists_pass
    (hDrawable : ∀ segment ∈ e.segments, segment.Fits e.images e.settings.columnWidth)
    (hMouse : canvas.mouse = none)
    (hOffset : ∀ i, layout.segmentOffset i =
      (((e.env canvas.measurer).documentRows {} e.segments).take i).sum)
    (hRange : e.visibleRange? layout viewport = some range) (hStop : range.stop ≤ e.segments.length) :
    ∃ final, e.renderWith? layout canvas origin viewport elapsed = some final ∧
      e.placedSegments? canvas origin viewport elapsed layout =
        some (placedIn (e.column canvas origin viewport elapsed) e.segments range) ∧
      final.canvas.ops = canvas.ops ++
        (placedIn (e.column canvas origin viewport elapsed) e.segments range).flatMap
          PlacedSegment.ops := by
  obtain ⟨before, drawn, after, hSplit, hBefore, hDrawn⟩ := VisibleRange.split_range range hStop
  have hTake : e.segments.take range.start = before := by
    rw [hSplit, ← hBefore, List.append_assoc, List.take_left]
  have hItems : (e.segments.zipIdx.drop range.start).take range.size = drawn.zipIdx before.length := by
    rw [hSplit, ← hBefore, ← hDrawn, VisibleRange.zipIdx_range]
  obtain ⟨r, hInstructions, hStep⟩ :=
    exists_placeInstructions (e.column canvas origin viewport elapsed) before
  have hThrough : Through (e.column canvas origin viewport elapsed) before r :=
    { column := hStep.column
      scope_eq := hStep.scope_eq
      cursor_le := by
        rw [hStep.cursor_eq, add_zero]
        exact Nat.cast_nonneg _ }
  obtain ⟨last, hPlace, hPlaced, hOps⟩ :=
    hThrough.exists_placeRange? hDrawable hMouse hOffset hSplit
  obtain ⟨final, hRender, hFinal⟩ := renderWith?_eq hRange (hTake ▸ hInstructions) (hItems ▸ hPlace)
  rw [placedIn, VisibleRange.filter_contains_zipIdx _ hStop, hItems]
  refine ⟨final, hRender, ?_, ?_⟩
  · rw [placedSegments?, hRange, Option.bind_some, hTake, hInstructions, Option.bind_some, hItems,
      hPlaced]
  · rw [hFinal, hOps, hStep.ops_eq, List.append_nil]
    rfl

/-- A window only moves the column up, by the rows that are scrolled away. -/
theorem shifted_column (hMouse : canvas.mouse = none) (view : Viewport) :
    Shifted view.scroll (e.column canvas origin none elapsed)
      (e.column canvas origin (some view) elapsed) where
  settings := rfl
  images := rfl
  x_eq := rfl
  y_eq := congrArg (· - (view.scroll : ℚ)) (sub_zero origin.y).symm
  elapsed := rfl
  width := rfl
  measurer := rfl
  mouse := ⟨hMouse, hMouse⟩
  cursor := rfl
  scope := rfl

/-- A segment of a column further up is drawn further up, and otherwise the same. -/
theorem placedAt_shiftUp {s : ℚ} {r r' : Renderer ℚ} (h : Shifted s r r')
    (segments : List Segment) (own : Segment × Nat) :
    placedAt r' segments own = (placedAt r segments own).shiftUp s := by
  obtain ⟨segment, i⟩ := own
  have hOwn (cursor : ℚ) (scope : TextScope) :
      Shifted s { r with cursor, scope } { r' with cursor, scope } :=
    { h with cursor := rfl, scope := rfl }
  simp only [placedAt, PlacedSegment.shiftUp, h.env_eq, h.y_eq, (hOwn _ _).segmentOps,
    sub_add_eq_add_sub]

/-- A range over all segments leaves none of them out. -/
theorem placedIn_all (r : Renderer ℚ) (segments : List Segment) {all : VisibleRange}
    (hStart : all.start = 0) (hStop : all.stop = segments.length) :
    placedIn r segments all = segments.zipIdx.map (placedAt r segments) := by
  refine congrArg _ (List.filter_eq_self.2 fun own hMem => VisibleRange.contains_iff.2 ?_)
  have hLt := List.snd_lt_of_mem_zipIdx hMem
  omega

/-- Of what a pass over the whole document draws, the part in a range is what a pass over the range
draws, but for the rows above the window. -/
theorem placedIn_column (hMouse : canvas.mouse = none) (view : Viewport) (range : VisibleRange) :
    placedIn (e.column canvas origin (some view) elapsed) e.segments range =
      ((e.segments.zipIdx.map (placedAt (e.column canvas origin none elapsed) e.segments)).filter
        fun placed => range.contains placed.index).map (PlacedSegment.shiftUp view.scroll) := by
  rw [placedIn, List.filter_map, List.map_map]
  exact List.map_congr_left fun own _ => placedAt_shiftUp (shifted_column hMouse view) e.segments own

/-- A layout that would be used again is the one that would be computed with this measurer. -/
def LaidOutFor (e : Entry ℚ) (measurer : Measurer ℚ) : Prop :=
  ∀ layout, e.currentLayout? = some layout →
    (DocumentLayout.compute? (e.env measurer) e.segments).map (·.value) = some layout

/-- Machine words hold all that is added up to lay an entry out and to draw it: the rows of each segment,
the rows of all, these with the space below them, and the cells of each sprite sheet. -/
structure FitsWords (e : Entry ℚ) (measurer : Measurer ℚ) : Prop where
  rows : (e.env measurer).Fits32 {} e.segments
  sum : ((e.env measurer).documentRows {} e.segments).sum < 2 ^ 63
  total : ((e.env measurer).documentRows {} e.segments).sum +
    DocumentLayout.padding (e.env measurer) (e.segments.foldl TextScope.after {}) < 2 ^ 64
  cells : ∀ segment ∈ e.segments, segment.CellsFit e.images

/-- An entry that can be laid out has a layout that is a computed one. -/
theorem LaidOutFor.exists_computeLayout? {measurer : Measurer ℚ} (h : e.LaidOutFor measurer)
    (hTitles : ∀ segment ∈ e.segments, (e.env measurer).TitleFits segment) :
    ∃ laidOut, e.computeLayout? measurer = some laidOut ∧
      DocumentLayout.Computed (e.env measurer) e.segments laidOut.value.2 := by
  obtain ⟨computed, hCompute⟩ :=
    Option.isSome_iff_exists.1 (DocumentLayout.isSome_compute?_iff.2 hTitles)
  have hComputed := DocumentLayout.computed_of_compute? hCompute
  unfold computeLayout?
  cases hCurrent : e.currentLayout? with
  | some layout =>
      obtain ⟨computed', hCompute', rfl⟩ := Option.map_eq_some_iff.1 (h layout hCurrent)
      exact ⟨_, rfl, DocumentLayout.computed_of_compute? hCompute'⟩
  | none =>
      rw [hCompute]
      exact ⟨_, rfl, hComputed⟩

/-- Laying out keeps a layout for the measurer that was used. -/
theorem LaidOutFor.computeLayout? {measurer : Measurer ℚ} (h : e.LaidOutFor measurer)
    {laidOut : Noted (Entry ℚ × DocumentLayout ℚ)} (hLayout : e.computeLayout? measurer = some laidOut) :
    laidOut.value.1.LaidOutFor measurer := by
  unfold Entry.computeLayout? at hLayout
  cases hCurrent : e.currentLayout? with
  | some layout =>
      rw [hCurrent] at hLayout
      obtain rfl := Option.some.inj hLayout
      exact h
  | none =>
      rw [hCurrent] at hLayout
      obtain ⟨computed, hCompute, rfl⟩ := Option.map_eq_some_iff.1 hLayout
      intro layout hKept
      obtain ⟨hLayout, _⟩ := Option.filter_eq_some_iff.1 hKept
      obtain rfl := Option.some.inj hLayout
      exact Option.map_eq_some_iff.2 ⟨computed, hCompute, rfl⟩

/-- An entry that is only drawn with one measurer keeps a layout for it. -/
theorem LaidOutFor.render? (h : e.LaidOutFor canvas.measurer) {rendered : Rendered ℚ}
    (hRender : e.render? canvas origin viewport elapsed = some rendered) :
    rendered.entry.LaidOutFor canvas.measurer := by
  unfold Entry.render? at hRender
  split at hRender
  · obtain ⟨laidOut, hLayout, hRender⟩ := Option.bind_eq_some_iff.1 hRender
    obtain ⟨_, _, hRendered⟩ := Option.bind_eq_some_iff.1 hRender
    obtain rfl := Option.some.inj hRendered
    exact h.computeLayout? hLayout
  · obtain rfl := Option.some.inj hRender
    exact h

/-- Laying an entry out changes nothing but the layout that is kept. -/
theorem renderWith?_of_computeLayout? {measurer : Measurer ℚ} {laidOut : Noted (Entry ℚ × DocumentLayout ℚ)}
    (h : e.computeLayout? measurer = some laidOut) (layout : DocumentLayout ℚ) :
    laidOut.value.1.renderWith? layout canvas origin viewport elapsed =
      e.renderWith? layout canvas origin viewport elapsed := by
  unfold computeLayout? at h
  cases hCurrent : e.currentLayout? with
  | some layout =>
      rw [hCurrent] at h
      obtain rfl := Option.some.inj h
      rfl
  | none =>
      rw [hCurrent] at h
      obtain ⟨computed, _, rfl⟩ := Option.map_eq_some_iff.1 h
      rfl

/-- An entry draws what its pass draws. -/
theorem render?_of_renderWith? (hOpen : e.isOpen = true)
    {laidOut : Noted (Entry ℚ × DocumentLayout ℚ)}
    (hLayout : e.computeLayout? canvas.measurer = some laidOut) {final : Renderer ℚ}
    (h : e.renderWith? laidOut.value.2 canvas origin viewport elapsed = some final) :
    ∃ rendered, e.render? canvas origin viewport elapsed = some rendered ∧
      rendered.canvas = final.canvas := by
  rw [← renderWith?_of_computeLayout? hLayout] at h
  unfold render?
  rw [if_pos hOpen, hLayout]
  show ∃ rendered, Option.bind (renderWith? _ _ _ _ _ _) _ = some rendered ∧ _
  rw [h]
  exact ⟨_, rfl, rfl⟩

/-- What an entry draws through a window, beside what it draws without one: the segments in the visible
range, in order, each drawn as in the whole document and moved up by the rows that are scrolled away, and
each with its upper edge at its offset. -/
def ShowsWindow (e : Entry ℚ) (canvas : Canvas ℚ) (origin : Point ℚ) (elapsed : Elapsed)
    (view : Viewport) : Prop :=
  ∃ laidOut range document window all part,
    e.computeLayout? canvas.measurer = some laidOut ∧
    laidOut.value.2.visibleRange? view.scroll view.height = some range ∧
    e.render? canvas origin none elapsed = some document ∧
    e.render? canvas origin (some view) elapsed = some window ∧
    e.placedSegments? canvas origin none elapsed laidOut.value.2 = some all ∧
    e.placedSegments? canvas origin (some view) elapsed laidOut.value.2 = some part ∧
    document.canvas.ops = canvas.ops ++ all.flatMap PlacedSegment.ops ∧
    window.canvas.ops = canvas.ops ++ part.flatMap PlacedSegment.ops ∧
    all.map PlacedSegment.index = List.range e.segments.length ∧
    part = (all.filter fun placed => range.contains placed.index).map
      (PlacedSegment.shiftUp view.scroll) ∧
    ∀ placed ∈ part, placed.top = origin.y + laidOut.value.2.segmentOffset placed.index - view.scroll

/-- Drawing through a window is drawing the whole document, cut to the window. The layout must be one
for the measurer of the canvas, and machine words must hold what is added up for the layout, for the
drawing and for the end of the window. -/
theorem shows_window (hOpen : e.isOpen = true) (hWidth : 0 ≤ e.settings.columnWidth)
    (hMouse : canvas.mouse = none) (hLaidOut : e.LaidOutFor canvas.measurer)
    (hWords : e.FitsWords canvas.measurer) {view : Viewport}
    (hWindow : view.scroll + view.height < 2 ^ 64) :
    e.ShowsWindow canvas origin elapsed view := by
  obtain ⟨laidOut, hLayout, hComputed⟩ := hLaidOut.exists_computeLayout? hWords.rows.titleFits
  have hOffset := hComputed.segmentOffset_eq hWords.rows hWords.sum
  have hSize := hComputed.size_eq
  have hDrawable : ∀ segment ∈ e.segments, segment.Fits e.images e.settings.columnWidth :=
    fun segment hMem => ⟨fun _ => hWidth, hWords.cells segment hMem⟩
  obtain ⟨range, hRange⟩ : ∃ range,
      laidOut.value.2.visibleRange? view.scroll view.height = some range :=
    Option.isSome_iff_exists.1 (DocumentLayout.isSome_visibleRange?_iff.2 (.inr hWindow))
  have hStop : range.stop ≤ e.segments.length :=
    hSize ▸ DocumentLayout.stop_visibleRange?_le hRange
  obtain ⟨total, hTotal⟩ : ∃ total, laidOut.value.2.totalHeight? = some total := by
    rw [DocumentLayout.totalHeight?, hComputed.contentHeight_eq hWords.rows hWords.sum,
      hComputed.bottomPadding_eq, hComputed.scope_eq]
    exact Option.isSome_iff_exists.1 (isSome_inWord?_iff.2 hWords.total)
  have hAllRange : e.visibleRange? laidOut.value.2 none =
      some { start := 0, stop := e.segments.length, scroll := 0, viewport := total } := by
    rw [visibleRange?, hTotal, Option.map_some]
  -- both passes draw each segment where it is drawn by itself, so they are compared one by one
  obtain ⟨whole, hWhole, hAll, hWholeOps⟩ :=
    exists_pass origin none elapsed hDrawable hMouse hOffset hAllRange (Nat.le_refl _)
  obtain ⟨shown, hShown, hPart, hShownOps⟩ :=
    exists_pass origin (some view) elapsed hDrawable hMouse hOffset hRange hStop
  obtain ⟨document, hDocument, hDocumentCanvas⟩ := render?_of_renderWith? hOpen hLayout hWhole
  obtain ⟨window, hDrawn, hWindowCanvas⟩ := render?_of_renderWith? hOpen hLayout hShown
  rw [placedIn_all _ _ rfl rfl] at hAll hWholeOps
  refine ⟨laidOut, range, document, window, _, _, hLayout, hRange, hDocument, hDrawn, hAll, hPart, ?_,
    ?_, ?_, placedIn_column hMouse view range, ?_⟩
  · rw [hDocumentCanvas, hWholeOps]
  · rw [hWindowCanvas, hShownOps]
  · rw [List.map_map, List.range_eq_range', ← List.zipIdx_map_snd]
    rfl
  · intro placed hMem
    obtain ⟨⟨segment, i⟩, _, rfl⟩ := List.mem_map.1 hMem
    rw [hOffset]
    show origin.y - (view.scroll : ℚ) + _ = _
    rw [sub_add_eq_add_sub]
    rfl

/-- A canvas on a grid, without a pointer. -/
def grid (lineHeight : ℚ) : Canvas ℚ :=
  { measurer := .monospace 10 lineHeight }

/-- An entry with this description and without images. -/
def described (description : String) : Entry ℚ :=
  ofImages { description := description.toList } { columnWidth := 400 } {}

/-- The font is set above the window, and the window shows a part of the first line and the title. -/
theorem shows_window_below_font :
    let e := described "[font]Tiny[/font]one[title]News[/title]two"
    ((e.computeLayout? (grid 20).measurer).bind fun laidOut =>
        (laidOut.value.2.visibleRange? 10 20).map VisibleRange.indices) = some [1, 2] ∧
      e.ShowsWindow (grid 20) ⟨0, 0⟩ {} ⟨10, 20⟩ := by
  intro e
  have hWords : e.FitsWords (grid 20).measurer :=
    { rows := by decide +kernel
      sum := by decide +kernel
      total := by decide +kernel
      cells := fun segment hMem => Segment.cellsFit_of_tag?_ne <| by
        have hTags : ∀ segment ∈ e.segments, segment.tag? ≠ some .gif := by decide +kernel
        exact hTags segment hMem }
  refine ⟨by decide +kernel, shows_window rfl (by decide +kernel) rfl ?_ hWords (by decide)⟩
  intro layout hCurrent
  cases hCurrent

/-- An entry whose layout was computed with lines of height 10. -/
def stale : Entry ℚ :=
  let e := described "[title]One[/title]two"
  ((e.computeLayout? (grid 10).measurer).map fun laidOut => laidOut.value.1).getD e

/-- An entry with a picture that is shown as a sheet of 65536 columns and as many rows. -/
def unplayed : Entry ℚ :=
  ofImages { description := "[gif SIZE=(65536,65536) FPS=1 HEIGHT=8]s[/gif]".toList }
    { columnWidth := 40 } { animations := .ofList [("s".toList, ⟨[⟨"sheet".toList, ⟨64, 64⟩⟩]⟩)] }

/-- Nothing is shown so unless the whole document can be drawn. -/
theorem ShowsWindow.not_isNone_render? {view : Viewport} (h : e.ShowsWindow canvas origin elapsed view) :
    (e.render? canvas origin none elapsed).isNone ≠ true := by
  obtain ⟨_, _, _, _, _, _, _, _, hDocument, _⟩ := h
  rw [hDocument]
  exact Bool.false_ne_true

/-- In particular the upper edges of the segments that are shown are those of the whole document, moved
up. -/
theorem ShowsWindow.tops {view : Viewport} (h : e.ShowsWindow canvas origin elapsed view) :
    (e.computeLayout? canvas.measurer).map (fun laidOut =>
        (e.placedSegments? canvas origin (some view) elapsed laidOut.value.2).map
          (·.map PlacedSegment.top)) =
      (e.computeLayout? canvas.measurer).map fun laidOut =>
        (laidOut.value.2.visibleRange? view.scroll view.height).bind fun range =>
          (e.placedSegments? canvas origin none elapsed laidOut.value.2).map fun all =>
            ((all.filter fun placed => range.contains placed.index).map
              (PlacedSegment.shiftUp view.scroll)).map PlacedSegment.top := by
  obtain ⟨laidOut, range, _, _, all, part, hLayout, hRange, _, _, hAll, hPart, _, _, _, hEq, _⟩ := h
  rw [hLayout, Option.map_some, Option.map_some, hRange, hAll, hPart, hEq]
  rfl

/-- Drawing through a window is not drawing the whole document cut to the window if the layout is used
again for lines of another height, if a height is too large for its machine word, if the space at the
end makes the whole too large for one, or if the cells of a sprite sheet are too many to be counted. -/
theorem not_shows_window :
    (stale.isOpen = true ∧ 0 ≤ stale.settings.columnWidth ∧ (grid 20).mouse = none ∧
      ¬stale.ShowsWindow (grid 20) ⟨0, 0⟩ {} ⟨14, 10⟩) ∧
    ((described "one[font]Small[/font]two").isOpen = true ∧
      0 ≤ (described "one[font]Small[/font]two").settings.columnWidth ∧
      (grid 8589934592).mouse = none ∧
      ¬(described "one[font]Small[/font]two").ShowsWindow (grid 8589934592) ⟨0, 0⟩ {}
        ⟨4294967295, 10⟩) ∧
    ((described "[img HEIGHT=8]a[/img]").isOpen = true ∧
      0 ≤ (described "[img HEIGHT=8]a[/img]").settings.columnWidth ∧
      (grid 18446744073709551616).mouse = none ∧
      ¬(described "[img HEIGHT=8]a[/img]").ShowsWindow (grid 18446744073709551616) ⟨0, 0⟩ {}
        ⟨0, 10⟩) ∧
    (unplayed.isOpen = true ∧ 0 ≤ unplayed.settings.columnWidth ∧ (grid 20).mouse = none ∧
      ¬unplayed.ShowsWindow (grid 20) ⟨0, 0⟩ {} ⟨0, 10⟩) := by
  refine ⟨⟨by decide +kernel, by decide +kernel, rfl, fun h => ?_⟩,
    ⟨rfl, by decide +kernel, rfl, fun h => ?_⟩, ⟨rfl, by decide +kernel, rfl, fun h => ?_⟩,
    ⟨rfl, by decide +kernel, rfl, fun h => ?_⟩⟩
  · exact absurd h.tops (by decide +kernel)
  · exact absurd h.tops (by decide +kernel)
  · exact h.not_isNone_render? (by decide +kernel)
  · exact h.not_isNone_render? (by decide +kernel)

end Changelog.Entry
