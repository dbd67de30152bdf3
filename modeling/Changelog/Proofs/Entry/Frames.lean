import Changelog.Entry.Open
import Changelog.Proofs.Drawing.Reports
import Changelog.Proofs.Exact
import Changelog.Proofs.Layout.Rows
import Changelog.Proofs.Notice

/-! Frames do not flood the log. A document is laid out and drawn again in every frame. What the first frame
reports it reports for good: a later one has the same layout, so it shows the same segments, and neither the
time nor the place of a drawing has a part in what a segment reports. -/

namespace Changelog

/-- Every number counts as the same as itself, also a value that is not a number. -/
class ReflexiveScalar (α : Type) [Scalar α] : Prop where
  same_self (a : α) : Scalar.same a a = true

instance : ReflexiveScalar ℚ where
  same_self _ := beq_self_eq_true _

instance : ReflexiveScalar Float32 where
  same_self _ := beq_self_eq_true _

variable {α : Type} [Scalar α]

namespace DocumentLayout

/-- Measuring reports the faults of the segments, in order, whatever their heights are. -/
theorem notices_of_measure? {env : LayoutEnv α} {scope : TextScope} {x : HeightIndex}
    {segments : List Segment} {measured : Noted (HeightIndex × TextScope)}
    (h : measure? env scope x segments = some measured) :
    measured.notices = segments.flatMap Segment.faults := by
  induction segments generalizing scope x measured with
  | nil =>
      obtain rfl := Option.some.inj h
      rfl
  | cons segment rest ih =>
      rw [measure?_cons] at h
      obtain ⟨first, hFirst, h⟩ := Option.bind_eq_some_iff.1 h
      obtain ⟨others, hOthers, rfl⟩ := Option.map_eq_some_iff.1 h
      rw [List.flatMap_cons, ← LayoutEnv.notices_of_segmentHeight? hFirst, ← ih hOthers]

/-- A layout that is computed reports the faults of all segments, whatever column it is computed for. -/
theorem notices_of_compute? {env : LayoutEnv α} {segments : List Segment}
    {computed : Noted (DocumentLayout α)} (h : compute? env segments = some computed) :
    computed.notices = segments.flatMap Segment.faults := by
  obtain ⟨measured, hMeasure, rfl⟩ := Option.map_eq_some_iff.1 h
  exact (List.append_nil _).trans (notices_of_measure? hMeasure)

end DocumentLayout

namespace Entry

/-- One frame: a layout pass, then a drawing. -/
structure Frame (α : Type) where
  /-- Whether the document is measured although its layout is known. The layout is kept then. -/
  measuresAnew : Bool
  measurer : Measurer α
  canvas : Canvas α
  origin : Point α
  elapsed : Elapsed

/-- What frames leave: the entry, the log, and what was emitted. -/
structure Shown (α : Type) where
  entry : Entry α
  log : OnceLog
  emitted : List Notice := []

/-- The layout pass of a frame. -/
def layoutPass? (e : Entry α) (frame : Frame α) : Option (Noted (Entry α)) :=
  if frame.measuresAnew then
    (DocumentLayout.compute? (e.env frame.measurer) e.segments).map fun computed =>
      { value := e, notices := computed.notices }
  else
    (e.computeLayout? frame.measurer).map fun laidOut =>
      { value := laidOut.value.1, notices := laidOut.notices }

/-- A frame with the part of the document in a window. -/
def frame? (viewport : Option Viewport) (e : Entry α) (log : OnceLog) (frame : Frame α) :
    Option (Shown α) :=
  (e.layoutPass? frame).bind fun laidOut =>
    (laidOut.value.render? frame.canvas frame.origin viewport frame.elapsed).map fun rendered =>
      let (log, emitted) := log.reportAll (laidOut.notices ++ rendered.notices)
      { entry := rendered.entry, log, emitted }

/-- A frame has to measure the document: it is meant to, or there is no layout to be used again. -/
def Measures (e : Entry α) (frame : Frame α) : Prop :=
  frame.measuresAnew = true ∨ e.currentLayout? = none

/-- Frames with the same part of the document. -/
def frames? (viewport : Option Viewport) (e : Entry α) (log : OnceLog) :
    List (Frame α) → Option (Shown α)
  | [] => some { entry := e, log }
  | frame :: rest => do
    let shown ← e.frame? viewport log frame
    let last ← shown.entry.frames? viewport shown.log rest
    return { last with emitted := shown.emitted ++ last.emitted }

/-- The segments that are drawn: the instructions above the window and the segments in it. -/
def shownSegments (e : Entry α) (range : VisibleRange) : List Segment :=
  (e.segments.take range.start).filter Segment.isInstruction ++
    ((e.segments.zipIdx.drop range.start).take range.size).map Prod.fst

variable {e e' : Entry α} {layout : DocumentLayout α} {viewport : Option Viewport} {log : OnceLog}
  {range : VisibleRange} {frame : Frame α} {shown : Shown α} {r r₁ : Renderer α}

theorem reports_alignTo (r : Renderer α) (offset : Nat) : r.Reports (alignTo r offset) [] := by
  unfold alignTo
  dsimp only
  split
  · exact r.reports_skip _
  · exact .refl r

theorem reports_placeRange? {items : List (Segment × Nat)} (h : placeRange? layout r items = some r₁) :
    r.Reports r₁ ((items.map Prod.fst).flatMap (Segment.notices r.images)) := by
  induction items generalizing r with
  | nil =>
      obtain rfl := Option.some.inj h
      exact .refl r
  | cons item rest ih =>
      obtain ⟨next, hNext, hRest⟩ := Option.bind_eq_some_iff.1 h
      have hAligned := reports_alignTo r (layout.segmentOffset item.2)
      have hFirst := hAligned.trans (Renderer.reports_placeSegment? hNext)
      have hOthers := ih hRest
      rw [hFirst.images_eq] at hOthers
      rw [hAligned.images_eq] at hFirst
      exact hFirst.trans hOthers

/-- A range is drawn to its end just when every segment of it can be drawn. -/
theorem isSome_placeRange?_iff {items : List (Segment × Nat)} :
    (placeRange? layout r items).isSome = true ↔
      ∀ segment ∈ items.map Prod.fst, segment.Fits r.images r.columnWidth := by
  induction items generalizing r with
  | nil => exact ⟨fun _ => nofun, fun _ => rfl⟩
  | cons item rest ih =>
      have hAligned := reports_alignTo r (layout.segmentOffset item.2)
      rw [List.map_cons, List.forall_mem_cons, ← hAligned.images_eq, ← hAligned.width_eq,
        ← Renderer.isSome_placeSegment?_iff, placeRange?]
      cases hNext : (alignTo r (layout.segmentOffset item.2)).placeSegment? item.1 with
      | none => exact ⟨nofun, fun h => nomatch h.1⟩
      | some next =>
          have hFirst := Renderer.reports_placeSegment? hNext
          rw [Option.bind_some, ih, hFirst.images_eq, hFirst.width_eq]
          exact ⟨fun h => ⟨rfl, h⟩, And.right⟩

/-- A drawing reports what the segments that it shows report. -/
theorem notices_renderWith? {canvas : Canvas α} {origin : Point α} {elapsed : Elapsed}
    (hRange : e.visibleRange? layout viewport = some range)
    (h : e.renderWith? layout canvas origin viewport elapsed = some r) :
    r.notices = (e.shownSegments range).flatMap (Segment.notices e.images) := by
  obtain ⟨range', hRange', h⟩ := Option.bind_eq_some_iff.1 h
  obtain rfl : range = range' := Option.some.inj (hRange.symm.trans hRange')
  obtain ⟨r₁, hAbove, h⟩ := Option.bind_eq_some_iff.1 h
  obtain ⟨r₂, hInside, h⟩ := Option.bind_eq_some_iff.1 h
  have hAbove := Renderer.reports_placeSegments? hAbove
  have hInside := reports_placeRange? hInside
  rw [hAbove.images_eq] at hInside
  have hEnd : r₂.Reports r [] := by
    have hAligned := reports_alignTo r₂ (layout.segmentOffset range.stop)
    dsimp only at h
    split at h
    · obtain rfl := Option.some.inj h
      exact hAligned.then (Renderer.reports_skip _ _)
    · obtain rfl := Option.some.inj h
      exact hAligned
  rw [((hAbove.trans hInside).then hEnd).notices_eq, shownSegments, List.flatMap_append]
  rfl

/-- There is a drawing of a range if and only if there is room for all boxes that it shows, and the cells
of its sprite sheets can be counted. -/
theorem isSome_renderWith?_iff {canvas : Canvas α} {origin : Point α} {elapsed : Elapsed}
    (hRange : e.visibleRange? layout viewport = some range) :
    (e.renderWith? layout canvas origin viewport elapsed).isSome = true ↔
      ∀ segment ∈ e.shownSegments range, segment.Fits e.images e.settings.columnWidth := by
  let shift := (viewport.map fun view => Scalar.ofNat view.scroll).getD (Scalar.zero : α)
  let start : Renderer α :=
    { Renderer.start canvas e.settings e.images ⟨origin.x, origin.y - shift⟩ with elapsed }
  let above := (e.segments.take range.start).filter Segment.isInstruction
  let inside := (e.segments.zipIdx.drop range.start).take range.size
  have hAbove : (start.placeSegments? above).isSome = true ↔
      ∀ segment ∈ above, segment.Fits e.images e.settings.columnWidth :=
    Renderer.isSome_placeSegments?_iff
  have hRender : e.renderWith? layout canvas origin viewport elapsed =
      (start.placeSegments? above).bind fun r => (placeRange? layout r inside).bind fun r =>
        let r := alignTo r (layout.segmentOffset range.stop)
        if range.stop = e.segments.length then some (r.skip (Scalar.ofNat layout.bottomPadding))
        else some r := by
    unfold renderWith?
    rw [hRange]
    rfl
  rw [hRender, shownSegments, List.forall_mem_append, ← hAbove]
  cases hPlaced : start.placeSegments? above with
  | none => exact ⟨nofun, fun h => nomatch h.1⟩
  | some r =>
      have hReports := Renderer.reports_placeSegments? hPlaced
      have hInside : (placeRange? layout r inside).isSome = true ↔
          ∀ segment ∈ inside.map Prod.fst, segment.Fits e.images e.settings.columnWidth := by
        rw [isSome_placeRange?_iff, hReports.images_eq, hReports.width_eq]
        rfl
      rw [Option.bind_some, ← hInside]
      cases placeRange? layout r inside with
      | none => exact ⟨nofun, fun h => nomatch h.2⟩
      | some r =>
          -- below the last segment only room is left, which cannot fail
          refine ⟨fun _ => ⟨rfl, rfl⟩, fun _ => ?_⟩
          rw [Option.bind_some]
          split <;> rfl

/-- A layout that may be used again costs nothing and reports nothing. -/
theorem computeLayout?_of_current (measurer : Measurer α) (h : e.currentLayout? = some layout) :
    e.computeLayout? measurer = some ⟨(e, layout), []⟩ := by
  unfold computeLayout?
  rw [h]
  rfl

/-- A layout that is computed anew is kept, and the faults of the document are reported. -/
theorem computeLayout?_of_none (measurer : Measurer α) (h : e.currentLayout? = none) :
    e.computeLayout? measurer =
      (DocumentLayout.compute? (e.env measurer) e.segments).map fun computed =>
        ⟨({ e with layout := some computed.value }, computed.value),
          e.segments.flatMap Segment.faults⟩ := by
  unfold computeLayout?
  rw [h]
  refine Option.map_congr fun computed hCompute => ?_
  rw [← DocumentLayout.notices_of_compute? hCompute]
  simp only [bind, pure, List.append_nil]

/-- Computing the layout changes nothing else. -/
theorem kept_of_computeLayout? {measurer : Measurer α} {laidOut : Noted (Entry α × DocumentLayout α)}
    (h : e.computeLayout? measurer = some laidOut) :
    ∃ kept, laidOut.value.1 = { e with layout := kept } := by
  cases hCurrent : e.currentLayout? with
  | some layout =>
      obtain rfl := Option.some.inj ((computeLayout?_of_current _ hCurrent).symm.trans h)
      exact ⟨e.layout, rfl⟩
  | none =>
      rw [computeLayout?_of_none _ hCurrent] at h
      obtain ⟨computed, _, rfl⟩ := Option.map_eq_some_iff.1 h
      exact ⟨_, rfl⟩

/-- Machine words hold what is added up to lay an entry out and to draw it with these measurers: there is
a layout with each of them, the range of its segments can be found, and the cells of sprite sheets can be
counted. -/
structure WithinWords (e : Entry α) (viewport : Option Viewport) (measurers : List (Measurer α)) :
    Prop where
  measured : ∀ measurer ∈ measurers,
    ((DocumentLayout.compute? (e.env measurer) e.segments).bind fun computed =>
      e.visibleRange? computed.value viewport).isSome = true
  kept : ∀ layout ∈ e.currentLayout?, (e.visibleRange? layout viewport).isSome = true
  cells : ∀ segment ∈ e.segments, segment.CellsFit e.images

/-- Within words there is a layout, which is the kept one or one that is computed, and a range. -/
theorem WithinWords.exists_computeLayout? {measurers : List (Measurer α)}
    (h : e.WithinWords viewport measurers) {measurer : Measurer α} (hMem : measurer ∈ measurers) :
    ∃ laidOut range, e.computeLayout? measurer = some laidOut ∧
      e.visibleRange? laidOut.value.2 viewport = some range := by
  cases hCurrent : e.currentLayout? with
  | some layout =>
      obtain ⟨range, hRange⟩ := Option.isSome_iff_exists.1 (h.kept layout hCurrent)
      exact ⟨_, range, computeLayout?_of_current measurer hCurrent, hRange⟩
  | none =>
      obtain ⟨range, hRange⟩ := Option.isSome_iff_exists.1 (h.measured measurer hMem)
      obtain ⟨computed, hCompute, hRange⟩ := Option.bind_eq_some_iff.1 hRange
      rw [computeLayout?_of_none _ hCurrent, hCompute]
      exact ⟨_, range, rfl, hRange⟩

section Render

variable {canvas : Canvas α} {origin : Point α} {elapsed : Elapsed}

/-- A closed entry draws nothing at all. -/
theorem render?_of_closed (hClosed : e.isOpen = false) :
    e.render? canvas origin viewport elapsed =
      some { entry := e, canvas, output := { height := Scalar.zero, links := {} } } := by
  unfold render?
  rw [hClosed]
  rfl

/-- An open one is laid out first, and then drawn with this layout. -/
theorem render?_of_open (hOpen : e.isOpen = true) :
    e.render? canvas origin viewport elapsed =
      (e.computeLayout? canvas.measurer).bind fun laidOut =>
        (laidOut.value.1.renderWith? laidOut.value.2 canvas origin viewport elapsed).map fun r =>
          { entry := laidOut.value.1
            canvas := r.canvas
            output := r.finish
            notices := laidOut.notices ++ r.notices } := by
  unfold render?
  rw [if_pos hOpen]
  exact congrArg _ (funext fun _ => Option.map_eq_bind.symm)

/-- What an open entry is drawn with: the layout that it has or now gets, and the segments in a range, for
all of which there is room. -/
structure Drawn (e : Entry α) (viewport : Option Viewport)
    (laidOut : Noted (Entry α × DocumentLayout α)) (range : VisibleRange) (rendered : Rendered α) :
    Prop where
  range_eq : e.visibleRange? laidOut.value.2 viewport = some range
  fits : ∀ segment ∈ e.shownSegments range, segment.Fits e.images e.settings.columnWidth
  entry_eq : rendered.entry = laidOut.value.1
  notices_eq : rendered.notices = laidOut.notices ++
    (e.shownSegments range).flatMap (Segment.notices e.images)

/-- Every drawing of an open entry is made of a layout, a range, and the segments in it. -/
theorem drawn_of_render? {rendered : Rendered α} (hOpen : e.isOpen = true)
    (h : e.render? canvas origin viewport elapsed = some rendered) :
    ∃ laidOut range, e.computeLayout? canvas.measurer = some laidOut ∧
      e.Drawn viewport laidOut range rendered := by
  rw [render?_of_open hOpen] at h
  obtain ⟨laidOut, hLayout, h⟩ := Option.bind_eq_some_iff.1 h
  obtain ⟨r, hDrawn, rfl⟩ := Option.map_eq_some_iff.1 h
  obtain ⟨range, hRange, -⟩ := Option.bind_eq_some_iff.1 hDrawn
  obtain ⟨kept, hKept⟩ := kept_of_computeLayout? hLayout
  have hFits := (isSome_renderWith?_iff hRange).1 (Option.isSome_of_eq_some hDrawn)
  have hNotices := notices_renderWith? hRange hDrawn
  rw [hKept] at hRange hFits hNotices
  exact ⟨laidOut, range, hLayout, hRange, hFits, rfl, congrArg _ hNotices⟩

variable (origin elapsed) in
/-- And there is one if there are these, with room for every segment that is shown. -/
theorem isSome_render?_of_fits (hOpen : e.isOpen = true)
    {laidOut : Noted (Entry α × DocumentLayout α)}
    (hLayout : e.computeLayout? canvas.measurer = some laidOut)
    (hRange : e.visibleRange? laidOut.value.2 viewport = some range)
    (hFits : ∀ segment ∈ e.shownSegments range, segment.Fits e.images e.settings.columnWidth) :
    (e.render? canvas origin viewport elapsed).isSome = true := by
  obtain ⟨kept, hKept⟩ := kept_of_computeLayout? hLayout
  have hRange : laidOut.value.1.visibleRange? laidOut.value.2 viewport = some range := by
    rw [hKept]
    exact hRange
  rw [render?_of_open hOpen, hLayout, Option.bind_some, Option.isSome_map,
    isSome_renderWith?_iff hRange, hKept]
  exact hFits

/-- Of the entry, a drawing changes only the layout. -/
theorem kept_of_render? {rendered : Rendered α}
    (h : e.render? canvas origin viewport elapsed = some rendered) :
    ∃ kept, rendered.entry = { e with layout := kept } := by
  by_cases hOpen : e.isOpen = true
  · obtain ⟨_, _, hLayout, hDrawn⟩ := drawn_of_render? hOpen h
    rw [hDrawn.entry_eq]
    exact kept_of_computeLayout? hLayout
  · rw [render?_of_closed (Bool.eq_false_iff.2 hOpen)] at h
    obtain rfl := Option.some.inj h
    exact ⟨e.layout, rfl⟩

end Render

omit [Scalar α] in
/-- Only segments of the entry are shown. -/
theorem mem_of_mem_shownSegments {segment : Segment} (h : segment ∈ e.shownSegments range) :
    segment ∈ e.segments := by
  rcases List.mem_append.1 h with hAbove | hInside
  · exact List.mem_of_mem_take (List.mem_filter.1 hAbove).1
  · obtain ⟨own, hOwn, rfl⟩ := List.mem_map.1 hInside
    exact List.fst_mem_of_mem_zipIdx (List.mem_of_mem_drop (List.mem_of_mem_take hOwn))

/-- Of the entry, a layout pass changes only the layout, and only if it is out of date. -/
theorem kept_of_layoutPass? {laidOut : Noted (Entry α)} (h : e.layoutPass? frame = some laidOut) :
    ∃ kept, laidOut.value = { e with layout := kept } ∧
      (e.currentLayout? = none ∨ kept = e.layout) := by
  unfold layoutPass? at h
  split at h
  · obtain ⟨_, _, rfl⟩ := Option.map_eq_some_iff.1 h
    exact ⟨e.layout, rfl, .inr rfl⟩
  · obtain ⟨_, hLayout, rfl⟩ := Option.map_eq_some_iff.1 h
    cases hCurrent : e.currentLayout? with
    | none =>
        obtain ⟨kept, hKept⟩ := kept_of_computeLayout? hLayout
        exact ⟨kept, hKept, .inl rfl⟩
    | some layout =>
        obtain rfl := Option.some.inj ((computeLayout?_of_current _ hCurrent).symm.trans hLayout)
        exact ⟨e.layout, rfl, .inr rfl⟩

/-- There is a layout pass unless it has to measure the document and a title cannot be measured. -/
theorem isSome_layoutPass?_iff :
    (e.layoutPass? frame).isSome = true ↔
      (e.Measures frame → ∀ segment ∈ e.segments, (e.env frame.measurer).TitleFits segment) := by
  rw [← DocumentLayout.isSome_compute?_iff]
  unfold layoutPass? Measures
  split
  · rename_i hMeasured
    rw [Option.isSome_map]
    exact ⟨fun h _ => h, fun h => h (.inl hMeasured)⟩
  · rename_i hKept
    rw [Option.isSome_map]
    cases hCurrent : e.currentLayout? with
    | some layout =>
        rw [computeLayout?_of_current _ hCurrent]
        exact ⟨fun _ h => absurd h (by simp [hKept]), fun _ => rfl⟩
    | none =>
        rw [computeLayout?_of_none _ hCurrent, Option.isSome_map]
        exact ⟨fun h _ => h, fun h => h (.inr rfl)⟩

/-- Within words a document can be measured with each of the measurers. -/
theorem WithinWords.titleFits {measurers : List (Measurer α)} (h : e.WithinWords viewport measurers)
    {measurer : Measurer α} (hMem : measurer ∈ measurers) :
    ∀ segment ∈ e.segments, (e.env measurer).TitleFits segment := by
  obtain ⟨range, hRange⟩ := Option.isSome_iff_exists.1 (h.measured measurer hMem)
  obtain ⟨computed, hCompute, -⟩ := Option.bind_eq_some_iff.1 hRange
  exact DocumentLayout.isSome_compute?_iff.1 (Option.isSome_of_eq_some hCompute)

/-- A layout that is computed within words is kept within words. -/
theorem WithinWords.layoutPass? {measurers : List (Measurer α)} (h : e.WithinWords viewport measurers)
    (hMem : frame.measurer ∈ measurers) {laidOut : Noted (Entry α)}
    (hPass : e.layoutPass? frame = some laidOut) : laidOut.value.WithinWords viewport measurers := by
  unfold Entry.layoutPass? at hPass
  split at hPass
  · obtain ⟨_, _, rfl⟩ := Option.map_eq_some_iff.1 hPass
    exact h
  · obtain ⟨_, hLayout, rfl⟩ := Option.map_eq_some_iff.1 hPass
    cases hCurrent : e.currentLayout? with
    | some layout =>
        obtain rfl := Option.some.inj ((computeLayout?_of_current _ hCurrent).symm.trans hLayout)
        exact h
    | none =>
        rw [computeLayout?_of_none _ hCurrent] at hLayout
        obtain ⟨computed, hCompute, rfl⟩ := Option.map_eq_some_iff.1 hLayout
        refine ⟨h.measured, fun layout hKept => ?_, h.cells⟩
        obtain ⟨hLayout, -⟩ := Option.filter_eq_some_iff.1 hKept
        obtain rfl := Option.some.inj hLayout
        have hRange := h.measured frame.measurer hMem
        rwa [hCompute, Option.bind_some] at hRange

/-- In a column that is not of negative width there is room for every box, so there is a frame if machine
words hold what is added up for it. -/
theorem isSome_frame? (hWidth : Scalar.zero ≤ e.settings.columnWidth)
    (hWords : e.WithinWords viewport [frame.measurer, frame.canvas.measurer]) :
    (e.frame? viewport log frame).isSome = true := by
  obtain ⟨pass, hPass⟩ := Option.isSome_iff_exists.1 <| isSome_layoutPass?_iff.2 fun _ =>
    hWords.titleFits List.mem_cons_self
  obtain ⟨kept, hKept, -⟩ := kept_of_layoutPass? hPass
  have hPassed := hWords.layoutPass? List.mem_cons_self hPass
  rw [frame?, hPass, Option.bind_some, Option.isSome_map]
  cases hOpen : pass.value.isOpen with
  | false => rw [render?_of_closed hOpen, Option.isSome_some]
  | true =>
      obtain ⟨laidOut, range, hLayout, hRange⟩ :=
        hPassed.exists_computeLayout? (List.mem_cons_of_mem _ List.mem_cons_self)
      refine isSome_render?_of_fits _ _ hOpen hLayout hRange fun segment hMem => ⟨fun _ => ?_, ?_⟩
      · rw [hKept]
        exact hWidth
      · exact hPassed.cells segment (mem_of_mem_shownSegments hMem)

/-- The log knows all that further frames of an entry report, and they can be drawn. They may measure the
document anew if `anew` holds. -/
structure Settled (viewport : Option Viewport) (anew : Prop) (e : Entry α) (log : OnceLog) :
    Prop where
  measured : anew ∨ e.currentLayout? = none →
    ∀ notice ∈ e.segments.flatMap Segment.faults, notice.key ∈ log.reported
  drawn : e.isOpen = true → ∃ layout range, e.currentLayout? = some layout ∧
    e.visibleRange? layout viewport = some range ∧
    (∀ segment ∈ e.shownSegments range, segment.Fits e.images e.settings.columnWidth) ∧
    ∀ notice ∈ (e.shownSegments range).flatMap (Segment.notices e.images),
      notice.key ∈ log.reported

variable {anew : Prop}

/-- A layout pass reports nothing new. -/
theorem Settled.layoutPass? (h : e.Settled viewport anew log)
    (hAnew : frame.measuresAnew = true → anew) {laidOut : Noted (Entry α)}
    (hPass : e.layoutPass? frame = some laidOut) :
    laidOut.value.Settled viewport anew log ∧
      ∀ notice ∈ laidOut.notices, notice.key ∈ log.reported := by
  unfold Entry.layoutPass? at hPass
  split at hPass
  · rename_i hMeasured
    obtain ⟨_, hCompute, rfl⟩ := Option.map_eq_some_iff.1 hPass
    refine ⟨h, ?_⟩
    rw [DocumentLayout.notices_of_compute? hCompute]
    exact h.measured (.inl (hAnew hMeasured))
  · obtain ⟨_, hLayout, rfl⟩ := Option.map_eq_some_iff.1 hPass
    cases hCurrent : e.currentLayout? with
    | some layout =>
        obtain rfl := Option.some.inj ((computeLayout?_of_current _ hCurrent).symm.trans hLayout)
        exact ⟨h, nofun⟩
    | none =>
        have hFaults := h.measured (.inr hCurrent)
        rw [computeLayout?_of_none _ hCurrent] at hLayout
        obtain ⟨_, _, rfl⟩ := Option.map_eq_some_iff.1 hLayout
        refine ⟨⟨fun _ => hFaults, fun hOpen => ?_⟩, hFaults⟩
        obtain ⟨layout, _, hLayout, -⟩ := h.drawn hOpen
        exact nomatch hCurrent.symm.trans hLayout

/-- Once everything is settled an entry can be drawn at any time and place, and nothing new is reported. -/
theorem Settled.exists_render? (h : e.Settled viewport anew log) (canvas : Canvas α)
    (origin : Point α) (elapsed : Elapsed) :
    ∃ rendered, e.render? canvas origin viewport elapsed = some rendered ∧ rendered.entry = e ∧
      ∀ notice ∈ rendered.notices, notice.key ∈ log.reported := by
  cases hOpen : e.isOpen with
  | false => exact ⟨_, render?_of_closed hOpen, rfl, nofun⟩
  | true =>
      obtain ⟨layout, range, hCurrent, hRange, hFits, hKnown⟩ := h.drawn hOpen
      have hLaidOut := computeLayout?_of_current canvas.measurer hCurrent
      obtain ⟨rendered, hRender⟩ := Option.isSome_iff_exists.1 <|
        isSome_render?_of_fits origin elapsed hOpen hLaidOut hRange hFits
      obtain ⟨_, range', hLayout, hDrawn⟩ := drawn_of_render? hOpen hRender
      obtain rfl := Option.some.inj (hLaidOut.symm.trans hLayout)
      obtain rfl : range = range' := Option.some.inj (hRange.symm.trans hDrawn.range_eq)
      exact ⟨rendered, hRender, hDrawn.entry_eq, hDrawn.notices_eq ▸ hKnown⟩

/-- A further frame emits nothing and leaves everything settled, and there is one if there is a layout
pass. -/
theorem Settled.exists_frame? (h : e.Settled viewport anew log)
    (hAnew : frame.measuresAnew = true → anew) {laidOut : Noted (Entry α)}
    (hPass : e.layoutPass? frame = some laidOut) :
    ∃ e', e.frame? viewport log frame = some { entry := e', log } ∧
      e'.Settled viewport anew log ∧
      ∃ kept, e' = { e with layout := kept } ∧ (e.currentLayout? = none ∨ kept = e.layout) := by
  obtain ⟨hSettled, hLaidOut⟩ := h.layoutPass? hAnew hPass
  obtain ⟨rendered, hRender, hEntry, hDrawn⟩ :=
    hSettled.exists_render? frame.canvas frame.origin frame.elapsed
  refine ⟨rendered.entry, ?_, hEntry ▸ hSettled, hEntry ▸ kept_of_layoutPass? hPass⟩
  unfold frame?
  rw [hPass, Option.bind_some, hRender, Option.map_some,
    OnceLog.reportAll_of_known (List.forall_mem_append.2 ⟨hLaidOut, hDrawn⟩)]

/-- Whatever further frames there are, they emit nothing. -/
theorem Settled.silent_of_frames? (h : e.Settled viewport anew log) {frames : List (Frame α)}
    (hAnew : ∀ frame ∈ frames, frame.measuresAnew = true → anew)
    (hFrames : e.frames? viewport log frames = some shown) :
    shown.log = log ∧ shown.emitted = [] := by
  induction frames generalizing e shown with
  | nil =>
      obtain rfl := Option.some.inj hFrames
      exact ⟨rfl, rfl⟩
  | cons frame rest ih =>
      obtain ⟨hFirst, hRest⟩ := List.forall_mem_cons.1 hAnew
      obtain ⟨next, hNext, hFrames⟩ := Option.bind_eq_some_iff.1 hFrames
      obtain ⟨last, hLast, hFrames⟩ := Option.bind_eq_some_iff.1 hFrames
      obtain rfl := Option.some.inj hFrames
      obtain ⟨_, hPass, -⟩ := Option.bind_eq_some_iff.1 hNext
      obtain ⟨_, hFrame, hSettled, -⟩ := h.exists_frame? hFirst hPass
      obtain rfl := Option.some.inj (hFrame.symm.trans hNext)
      exact ih hSettled hRest hLast

/-- There are all further frames if those that have to measure the document can do so. -/
theorem Settled.exists_frames? (h : e.Settled viewport anew log) {frames : List (Frame α)}
    (hAnew : ∀ frame ∈ frames, frame.measuresAnew = true → anew)
    (hTitles : ∀ frame ∈ frames, e.Measures frame →
      ∀ segment ∈ e.segments, (e.env frame.measurer).TitleFits segment) :
    ∃ e', e.frames? viewport log frames = some { entry := e', log } := by
  induction frames generalizing e with
  | nil => exact ⟨e, rfl⟩
  | cons frame rest ih =>
      obtain ⟨hFirst, hRest⟩ := List.forall_mem_cons.1 hAnew
      obtain ⟨hTitle, hTitles⟩ := List.forall_mem_cons.1 hTitles
      obtain ⟨_, hPass⟩ := Option.isSome_iff_exists.1 (isSome_layoutPass?_iff.2 hTitle)
      obtain ⟨_, hFrame, hSettled, kept, rfl, hKept⟩ := h.exists_frame? hFirst hPass
      obtain ⟨last, hLast⟩ := ih hSettled hRest fun frame hMem hMeasures =>
        hTitles frame hMem <| hMeasures.imp_right fun hNone => by
          rcases hKept with hOld | rfl
          · exact hOld
          · exact hNone
      refine ⟨last, ?_⟩
      rw [frames?, hFrame]
      simp only [Option.bind_eq_bind, Option.bind_some, hLast]
      rfl

variable [ReflexiveScalar α]

/-- A layout is current as soon as it is computed. -/
theorem currentLayout?_of_computeLayout? {measurer : Measurer α}
    {laidOut : Noted (Entry α × DocumentLayout α)} (h : e.computeLayout? measurer = some laidOut) :
    laidOut.value.1.currentLayout? = some laidOut.value.2 := by
  cases hCurrent : e.currentLayout? with
  | some layout =>
      obtain rfl := Option.some.inj ((computeLayout?_of_current _ hCurrent).symm.trans h)
      exact hCurrent
  | none =>
      rw [computeLayout?_of_none _ hCurrent] at h
      obtain ⟨computed, hCompute, rfl⟩ := Option.map_eq_some_iff.1 h
      have hParams := (DocumentLayout.computed_of_compute? hCompute).params_eq
      refine Option.filter_eq_some_iff.2 ⟨rfl, ?_⟩
      rw [LayoutParams.same, hParams]
      exact Bool.and_eq_true_iff.2 ⟨ReflexiveScalar.same_self _, beq_self_eq_true _⟩

/-- The layout pass reports the faults of the document if it measures it. -/
theorem notices_of_layoutPass? {laidOut : Noted (Entry α)} (hPass : e.layoutPass? frame = some laidOut)
    (h : e.Measures frame ∨ laidOut.value.currentLayout? = none) :
    laidOut.notices = e.segments.flatMap Segment.faults := by
  unfold layoutPass? at hPass
  split at hPass
  · obtain ⟨_, hCompute, rfl⟩ := Option.map_eq_some_iff.1 hPass
    exact DocumentLayout.notices_of_compute? hCompute
  · rename_i hKept
    obtain ⟨_, hLayout, rfl⟩ := Option.map_eq_some_iff.1 hPass
    have hNone : e.currentLayout? = none := by
      rcases h with (hMeasured | hNone) | hAfter
      · exact absurd hMeasured hKept
      · exact hNone
      · exact nomatch hAfter.symm.trans (currentLayout?_of_computeLayout? hLayout)
    rw [computeLayout?_of_none _ hNone] at hLayout
    obtain ⟨_, _, rfl⟩ := Option.map_eq_some_iff.1 hLayout
    rfl

/-- The first frame settles everything. Later ones may measure the document anew if this one has
measured it. -/
theorem settled_of_frame? (h : e.frame? viewport log frame = some shown)
    (hAnew : anew → e.Measures frame) : shown.entry.Settled viewport anew shown.log := by
  obtain ⟨pass, hPass, h⟩ := Option.bind_eq_some_iff.1 h
  obtain ⟨rendered, hRender, rfl⟩ := Option.map_eq_some_iff.1 h
  let reported := (log.reportAll (pass.notices ++ rendered.notices)).1
  change rendered.entry.Settled viewport anew reported
  have hReported {notice : Notice} (hNotice : notice ∈ pass.notices ++ rendered.notices) :
      notice.key ∈ reported.reported :=
    OnceLog.reported_reportAll.2 (.inr (List.mem_map_of_mem hNotice))
  obtain ⟨kept, hKept, -⟩ := kept_of_layoutPass? hPass
  have hFaults (hMeasured : anew ∨ pass.value.currentLayout? = none) :
      ∀ notice ∈ pass.value.segments.flatMap Segment.faults, notice.key ∈ reported.reported := by
    intro notice hNotice
    apply hReported
    apply List.mem_append_left
    rw [notices_of_layoutPass? hPass (hMeasured.imp_left hAnew)]
    have hSegments : pass.value.segments = e.segments := by rw [hKept]
    exact hSegments ▸ hNotice
  cases hOpen : pass.value.isOpen with
  | false =>
      obtain rfl := Option.some.inj ((render?_of_closed hOpen).symm.trans hRender)
      exact ⟨hFaults, fun h => nomatch hOpen.symm.trans h⟩
  | true =>
      obtain ⟨laidOut, range, hLayout, hDrawn⟩ := drawn_of_render? hOpen hRender
      -- the layout is current now, so from here on only `anew` makes a frame measure
      have hCurrent := currentLayout?_of_computeLayout? hLayout
      obtain ⟨last, hLast⟩ := kept_of_computeLayout? hLayout
      rw [← hDrawn.entry_eq] at hCurrent hLast
      refine ⟨fun hMeasured => ?_, fun _ => ⟨_, range, hCurrent, ?_, ?_, ?_⟩⟩
      · rw [hLast]
        exact hFaults (.inl (hMeasured.resolve_right fun h => nomatch hCurrent.symm.trans h))
      · rw [hLast]
        exact hDrawn.range_eq
      · rw [hLast]
        exact hDrawn.fits
      · rw [hLast]
        intro notice hNotice
        apply hReported
        apply List.mem_append_right
        rw [hDrawn.notices_eq]
        exact List.mem_append_right _ hNotice

/-- However often a document is laid out and drawn, the log is not flooded. If there is a first frame, as
there is in every column that is not of negative width if machine words hold what is added up for it, then
there are all the further ones, wherever and whenever they are drawn and with whatever measurers, as long
as those that have to measure the document again can measure its titles. Whatever further frames there
are emit nothing, and the log knows afterwards what it knew after the first one. They may measure the
document anew if the first one had to measure it. And whatever is reported to a log, only the first notice
with a key is emitted, if the key was new, and the keys reported are those of the notices and no others. -/
theorem further_frames_silent (viewport : Option Viewport) (e : Entry α) (log : OnceLog)
    (first : Frame α) :
    (Scalar.zero ≤ e.settings.columnWidth →
      e.WithinWords viewport [first.measurer, first.canvas.measurer] →
      (e.frame? viewport log first).isSome = true) ∧
    (∀ shown, e.frame? viewport log first = some shown → ∀ frames : List (Frame α),
      (∀ frame ∈ frames, frame.measuresAnew = true → e.Measures first) →
      ((∀ frame ∈ frames, shown.entry.Measures frame → ∀ segment ∈ shown.entry.segments,
          (shown.entry.env frame.measurer).TitleFits segment) →
        (shown.entry.frames? viewport shown.log frames).isSome = true) ∧
      ∀ last, shown.entry.frames? viewport shown.log frames = some last →
        last.log = shown.log ∧ last.emitted = []) ∧
    ∀ notices : List Notice, ∀ key,
      ((log.reportAll notices).2.filter fun notice => notice.key = key) =
        (if key ∈ log.reported then []
          else (notices.filter fun notice => notice.key = key).take 1) ∧
      (key ∈ (log.reportAll notices).1.reported ↔
        key ∈ log.reported ∨ key ∈ notices.map Notice.key) := by
  refine ⟨isSome_frame?, ?_, fun notices key => ⟨log.filter_emitted notices key, ?_⟩⟩
  · intro shown hFirst frames hAnew
    have hSettled : shown.entry.Settled viewport (e.Measures first) shown.log :=
      settled_of_frame? hFirst id
    refine ⟨fun hTitles => ?_, fun last hFrames => hSettled.silent_of_frames? hAnew hFrames⟩
    obtain ⟨_, hFrames⟩ := hSettled.exists_frames? hAnew hTitles
    exact Option.isSome_of_eq_some hFrames
  · exact OnceLog.reported_reportAll

/-- An entry with an unknown font, an image that is not there, and an attribute that is not one. -/
def faulty : Entry ℚ :=
  ofImages { description := "[font]Vast[/font]see[img depth=3]a[/img]".toList } { columnWidth := 400 } {}

/-- The first frame emits each of the three notices, although two of them arise twice in it; frames at later
times and other places emit nothing. -/
theorem faulty_frames_silent :
    let frame (measuresAnew : Bool) (x : ℚ) (seconds : Nat) : Frame ℚ :=
      { measuresAnew
        measurer := .monospace 10 20
        canvas := { measurer := .standard }
        origin := ⟨x, 0⟩
        elapsed := .ofMilliseconds (1000 * seconds) }
    ∃ shown last, faulty.frame? none {} (frame false 0 0) = some shown ∧
      shown.emitted.map Notice.key =
        ["font:Vast".toList, "attribute:Image:DEPTH".toList, "texture:a".toList] ∧
      shown.entry.frames? none shown.log [frame false 0 1, frame true 30 7] = some last ∧
      last.log = shown.log ∧ last.emitted = [] := by
  intro frame
  obtain ⟨hDrawn, hSilent, -⟩ := further_frames_silent none faulty {} (frame false 0 0)
  have hWidth : Scalar.zero ≤ faulty.settings.columnWidth := by decide +kernel
  have hTags : ∀ segment ∈ faulty.segments, segment.tag? ≠ some .gif ∧ segment.tag? ≠ some .title := by
    decide +kernel
  have hWords : faulty.WithinWords none [.monospace 10 20, .standard] :=
    { measured := by decide +kernel
      kept := nofun
      cells := fun segment hMem => Segment.cellsFit_of_tag?_ne (hTags segment hMem).1 }
  obtain ⟨shown, hShown⟩ := Option.isSome_iff_exists.1 (hDrawn hWidth hWords)
  have hShows : (faulty.frame? none {} (frame false 0 0)).map (fun shown =>
      (shown.emitted.map Notice.key, shown.entry.segments)) =
      some (["font:Vast".toList, "attribute:Image:DEPTH".toList, "texture:a".toList],
        faulty.segments) := by
    decide +kernel
  rw [hShown] at hShows
  obtain ⟨hEmitted, hSegments⟩ := Prod.ext_iff.1 (Option.some.inj hShows)
  have hSegments : shown.entry.segments = faulty.segments := hSegments
  obtain ⟨hFurther, hSilent⟩ := hSilent shown hShown [frame false 0 1, frame true 30 7]
    fun _ _ _ => .inr rfl
  obtain ⟨last, hLast⟩ := Option.isSome_iff_exists.1 <| hFurther fun _ _ _ segment hMem hTitle =>
    absurd hTitle (hTags segment (hSegments ▸ hMem)).2
  exact ⟨shown, last, hShown, hEmitted, hLast, hSilent last hLast⟩

end Entry

end Changelog
