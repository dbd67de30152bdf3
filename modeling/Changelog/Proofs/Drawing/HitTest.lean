import Changelog.Proofs.Drawing.Extent
import Changelog.Proofs.Drawing.Tiling
import Mathlib.Data.List.Pairwise

/-! Links and clicks. A click opens the first region that was drawn where it is, and a hit test finds the
last one. In a pass the two agree, since no two regions have a point in common: the regions of a step lie
between the places of the cursor before and after it, and the cursor never moves up; those of one block
lie on different lines, or side by side on one. -/

namespace Changelog

/-- Lines have no negative height, and the width of a text is the sum of those of its parts. -/
structure Measurer.Additive (m : Measurer ℚ) : Prop where
  lineHeight_nonneg : ∀ font, 0 ≤ m.lineHeight font
  textWidth_nonneg : ∀ text font, 0 ≤ m.textWidth text font
  textWidth_append : ∀ a b font,
    m.textWidth (a ++ b) font = m.textWidth a font + m.textWidth b font

namespace Rect

/-- The rectangles have no point in common. -/
def Apart (a b : Rect ℚ) : Prop :=
  ∀ p, ¬(a.contains p = true ∧ b.contains p = true)

variable {a b : Rect ℚ} {p : Point ℚ}

/-- A rectangle holds its left and upper edges, but not the other two. So rectangles that touch have no
point in common. -/
theorem contains_iff :
    a.contains p = true ↔ (a.x ≤ p.x ∧ p.x < a.right) ∧ a.y ≤ p.y ∧ p.y < a.bottom := by
  simp only [contains, Bool.and_eq_true, decide_eq_true_eq, and_assoc]

theorem Apart.symm (h : Apart a b) : Apart b a :=
  fun p hBoth => h p hBoth.symm

theorem apart_of_below (h : a.bottom ≤ b.y) : Apart a b := by
  rintro p ⟨ha, hb⟩
  exact absurd ((contains_iff.1 ha).2.2.trans_le h) (not_lt.2 (contains_iff.1 hb).2.1)

theorem apart_of_beside (h : a.right ≤ b.x) : Apart a b := by
  rintro p ⟨ha, hb⟩
  exact absurd ((contains_iff.1 ha).1.2.trans_le h) (not_lt.2 (contains_iff.1 hb).1.1)

end Rect

namespace LinkRegion

/-- No two of the regions have a point in common. -/
def AllApart (regions : List (LinkRegion ℚ)) : Prop :=
  regions.Pairwise fun a b => a.rect.Apart b.rect

/-- Of regions that lie apart, at most one contains a point, so it is found from either end. -/
theorem AllApart.find?_reverse {regions : List (LinkRegion ℚ)} (h : AllApart regions)
    (p : Point ℚ) :
    (regions.reverse.find? fun region => region.rect.contains p) =
      regions.find? fun region => region.rect.contains p := by
  induction regions with
  | nil => rfl
  | cons first rest ih =>
      obtain ⟨hFirst, hRest⟩ := List.pairwise_cons.1 h
      rw [List.reverse_cons, List.find?_append, ih hRest]
      by_cases hIn : first.rect.contains p = true
      · have hNone : rest.find? (fun region => region.rect.contains p) = none := by
          refine List.find?_eq_none.2 fun region hMem hAlso => ?_
          exact hFirst region hMem p ⟨hIn, hAlso⟩
        simp [hNone, hIn]
      · cases hTail : rest.find? (fun region => region.rect.contains p) <;> simp [hIn, hTail]

end LinkRegion

namespace Renderer

open LinkRegion

variable {r r₁ r₂ : Renderer ℚ} {block : DecoratedText} {style : TextStyle}

/-- One line ends where the other one begins, or above. -/
def PlacedLine.Above (lineHeight : ℚ) (p q : PlacedLine ℚ) : Prop :=
  p.position.y + lineHeight ≤ q.position.y

/-- A line of a block lies above the next one. -/
theorem pairwise_placedLines (r : Renderer ℚ) (text : Text) {font : FontSize}
    (hHeight : 0 ≤ r.canvas.measurer.lineHeight font) :
    (r.placedLines text font).Pairwise
      (PlacedLine.Above (r.canvas.measurer.lineHeight font)) := by
  refine List.pairwise_map.2 ?_
  have hIndices : ((Wrap.Column.lines ⟨r.canvas.measurer, font, r.columnWidth⟩ text).zipIdx).Pairwise
      fun a b => a.2 < b.2 := by
    refine List.pairwise_map.1 ?_
    rw [List.zipIdx_map_snd]
    exact List.pairwise_lt_range'
  refine hIndices.imp fun {a b} hLt => ?_
  have hLe : (a.2 : ℚ) + 1 ≤ b.2 := by exact_mod_cast hLt
  have hMul := mul_le_mul_of_nonneg_right hLe hHeight
  show r.top + (a.2 : ℚ) * _ + _ ≤ r.top + (b.2 : ℚ) * _
  linarith

/-- Of two lines of a block one lies above the other. -/
theorem eq_or_above {text : Text} {font : FontSize}
    (hHeight : 0 ≤ r.canvas.measurer.lineHeight font) {p q : PlacedLine ℚ}
    (hp : p ∈ r.placedLines text font) (hq : q ∈ r.placedLines text font) :
    p = q ∨ p.Above (r.canvas.measurer.lineHeight font) q ∨
      q.Above (r.canvas.measurer.lineHeight font) p := by
  have hSymm : Std.Symm fun p q : PlacedLine ℚ => p.Above (r.canvas.measurer.lineHeight font) q ∨
      q.Above (r.canvas.measurer.lineHeight font) p := ⟨fun _ _ => Or.symm⟩
  have hLines : (r.placedLines text font).Pairwise fun p q =>
      p.Above (r.canvas.measurer.lineHeight font) q ∨
        q.Above (r.canvas.measurer.lineHeight font) p :=
    (pairwise_placedLines r text hHeight).imp Or.inl
  by_cases hEq : p = q
  · exact Or.inl hEq
  · exact Or.inr (hLines.forall hp hq hEq)

/-- Parts of different lines lie apart, whatever they are parts of. -/
theorem partRect_above {m : Measurer ℚ} {font : FontSize} {p q : PlacedLine ℚ}
    (h : p.Above (m.lineHeight font) q) (text : Text) (a b : Span) :
    (partRect m font text a p).Apart (partRect m font text b q) :=
  Rect.apart_of_below h

/-- On one line, the part of a span lies to the left of the part of a later one. -/
theorem partRect_beside {m : Measurer ℚ} (hMeasurer : m.Additive) (font : FontSize) (text : Text)
    {p : PlacedLine ℚ} {a b : Span} (hOrder : a.stop ≤ b.start) (ha : a.Meets p.line.span) :
    (partRect m font text a p).right ≤ (partRect m font text b p).x := by
  have hStart : p.line.span.start ≤ (onLine a p.line.span).start := Nat.le_max_right ..
  have hPart : (onLine a p.line.span).start ≤ (onLine a p.line.span).stop :=
    Nat.le_of_lt (meets_iff.1 ha)
  have hGap : (onLine a p.line.span).stop ≤ (onLine b p.line.span).start :=
    (Nat.min_le_left ..).trans (hOrder.trans (Nat.le_max_left ..))
  have hWhole := Text.slice_append_slice (hStart.trans hPart) hGap text
  rw [← Text.slice_append_slice hStart hPart text] at hWhole
  have hWidth := congrArg (m.textWidth · font) hWhole
  simp only [hMeasurer.textWidth_append] at hWidth
  have hNonneg := hMeasurer.textWidth_nonneg
    (Text.slice (onLine a p.line.span).stop (onLine b p.line.span).start text) font
  simp only [partRect, Rect.right]
  linarith

theorem mem_linkRegions {font : FontSize} {d : Decoration} {region : LinkRegion ℚ}
    (h : region ∈ r.linkRegions block font d) :
    ∃ p ∈ r.placedLines block.text font, d.span.Meets p.line.span ∧
      region.rect = partRect r.canvas.measurer font block.text d.span p := by
  unfold linkRegions at h
  cases hKind : d.kind with
  | underline =>
      rw [hKind] at h
      cases h
  | link url =>
      rw [hKind] at h
      obtain ⟨p, hp, rfl⟩ := List.mem_map.1 h
      obtain ⟨hMem, hMeets⟩ := List.mem_filter.1 hp
      exact ⟨p, hMem, of_decide_eq_true hMeets, rfl⟩

/-- The regions of one link lie apart, being on different lines. -/
theorem allApart_linkRegions (hMeasurer : r.canvas.measurer.Additive) (font : FontSize)
    (d : Decoration) : AllApart (r.linkRegions block font d) := by
  unfold linkRegions
  cases d.kind with
  | underline => exact List.Pairwise.nil
  | link url =>
      have hLines := pairwise_placedLines r block.text (hMeasurer.lineHeight_nonneg font)
      exact List.pairwise_map.2 ((hLines.filter _).imp fun hAbove => partRect_above hAbove _ _ _)

/-- The regions of two links lie apart: on different lines, or side by side on one. -/
theorem apart_linkRegions (hMeasurer : r.canvas.measurer.Additive) {font : FontSize}
    {d e : Decoration} (hOrder : d.span.stop ≤ e.span.start) {a b : LinkRegion ℚ}
    (ha : a ∈ r.linkRegions block font d) (hb : b ∈ r.linkRegions block font e) :
    a.rect.Apart b.rect := by
  obtain ⟨p, hp, hMeets, hRect⟩ := mem_linkRegions ha
  obtain ⟨q, hq, _, hRect'⟩ := mem_linkRegions hb
  rw [hRect, hRect']
  rcases eq_or_above (hMeasurer.lineHeight_nonneg font) hp hq with rfl | hAbove | hAbove
  · exact Rect.apart_of_beside (partRect_beside hMeasurer font block.text hOrder hMeets)
  · exact partRect_above hAbove _ _ _
  · exact (partRect_above hAbove _ _ _).symm

/-- The links of a block lie apart. -/
theorem allApart_block (hMeasurer : r.canvas.measurer.Additive) (hOrder : block.InOrder)
    (font : FontSize) : AllApart (block.decorations.flatMap (r.linkRegions block font)) := by
  refine List.pairwise_flatMap.2 ⟨fun d _ => allApart_linkRegions hMeasurer font d, ?_⟩
  exact hOrder.ordered.imp fun hLe a ha b hb => apart_linkRegions hMeasurer hLe ha hb

/-- The links of a block lie between the places of the cursor before and after it. -/
theorem within_block (hMeasurer : r.canvas.measurer.Additive) {font : FontSize}
    {region : LinkRegion ℚ} (h : region ∈ block.decorations.flatMap (r.linkRegions block font)) :
    r.top ≤ region.rect.y ∧ region.rect.bottom ≤
      r.top + max (r.canvas.measurer.textHeight block.text r.columnWidth font) 0 := by
  obtain ⟨d, _, hRegion⟩ := List.mem_flatMap.1 h
  obtain ⟨p, hp, hMeets, hRect⟩ := mem_linkRegions hRegion
  rw [hRect]
  have hMem : partRect r.canvas.measurer font block.text d.span p ∈
      spanRects r.canvas.measurer font block.text (r.placedLines block.text font) d.span := by
    rw [spanRects_eq]
    exact List.mem_map_of_mem (List.mem_filter.2 ⟨hp, decide_eq_true hMeets⟩)
  refine ⟨?_, (rect_part_le hMem).2⟩
  obtain ⟨i, _, hy⟩ := mem_placedLines hp
  have hMul := mul_nonneg (Nat.cast_nonneg' i) (hMeasurer.lineHeight_nonneg font)
  show r.top ≤ p.position.y
  linarith

/-- From `r` to `r'` links are added between the old and the new place of the cursor, which does not move
up, and no two of them have a point in common. -/
structure Stacks (r r' : Renderer ℚ) : Prop where
  column : SameColumn r r'
  top_le : r.top ≤ r'.top
  marks : ∃ texts regions, r.Marks r' texts regions ∧ AllApart regions ∧
    ∀ region ∈ regions, r.top ≤ region.rect.y ∧ region.rect.bottom ≤ r'.top

theorem Stacks.refl (r : Renderer ℚ) : Stacks r r :=
  ⟨SameColumn.refl r, le_refl _, [], [], Marks.refl r, List.Pairwise.nil,
    fun _ h => absurd h List.not_mem_nil⟩

/-- What is added later lies below what was added before, so all of it lies apart. -/
theorem Stacks.trans (h : Stacks r r₁) (h' : Stacks r₁ r₂) : Stacks r r₂ := by
  obtain ⟨texts, regions, hMarks, hApart, hWithin⟩ := h.marks
  obtain ⟨texts', regions', hMarks', hApart', hWithin'⟩ := h'.marks
  refine ⟨h.column.trans h'.column, h.top_le.trans h'.top_le, _, _, hMarks.trans hMarks', ?_, ?_⟩
  · -- the later regions lie below the place where the cursor was, and the earlier ones above it
    refine List.pairwise_append.2 ⟨hApart, hApart', fun a ha b hb => ?_⟩
    exact Rect.apart_of_below ((hWithin a ha).2.trans (hWithin' b hb).1)
  · intro region hMem
    rcases List.mem_append.1 hMem with hMem | hMem
    · exact ⟨(hWithin region hMem).1, (hWithin region hMem).2.trans h'.top_le⟩
    · exact ⟨h.top_le.trans (hWithin' region hMem).1, (hWithin' region hMem).2⟩

/-- A step that adds no links. -/
theorem Stacks.of_step {scope : TextScope} {height : ℚ} {ops texts : List (DrawOp ℚ)}
    (hStep : r.Step r₁ scope height ops) (hHeight : 0 ≤ height) (hMarks : r.Marks r₁ texts []) :
    Stacks r r₁ := by
  refine ⟨hStep.column, ?_, texts, [], hMarks, List.Pairwise.nil,
    fun _ h => absurd h List.not_mem_nil⟩
  rw [hStep.top]
  exact le_add_of_nonneg_right hHeight

theorem stacks_skip (r : Renderer ℚ) (height : ℚ) : Stacks r (r.skip height) :=
  .of_step (step_skip r height) (le_max_right ..) (marks_skip r height)

theorem stacks_draw (r : Renderer ℚ) (op : DrawOp ℚ) : Stacks r (r.draw op) :=
  .of_step (step_draw r op) (le_refl _) (marks_draw r op)

theorem stacks_notes (r : Renderer ℚ) (notices : List Notice) : Stacks r { r with notices } :=
  .of_step (step_notes r notices) (le_refl _) (.of_eq rfl rfl)

/-- A block adds its links between the places of the cursor before and after it. -/
theorem stacks_placeBlock (hMeasurer : r.canvas.measurer.Additive) (hOrder : block.InOrder)
    (style : TextStyle) : Stacks r (r.placeBlock block style).1 := by
  have hStep := step_placeBlock r block style
  refine ⟨hStep.column, ?_, _, _, marks_placeBlock r block style,
    allApart_block hMeasurer hOrder style.font, fun region hMem => ?_⟩
  · rw [hStep.top]
    exact le_add_of_nonneg_right (le_max_right ..)
  · rw [hStep.top]
    exact within_block hMeasurer hMem

/-- A link at the cursor, which then moves below it. -/
theorem stacks_linkRect (r : Renderer ℚ) {rect : Rect ℚ} (hTop : rect.y = r.top) {height : ℚ}
    (hHeight : rect.height = height) (url : Text) : Stacks r ((r.linkRect rect url).skip height) := by
  have hStep := (step_linkRect r rect url).trans (step_skip _ height)
  have hTopAfter := hStep.top
  rw [zero_add] at hTopAfter
  refine ⟨hStep.column, ?_, _, _, (marks_linkRect r rect url).trans (marks_skip _ height),
    List.pairwise_singleton .., fun region hMem => ?_⟩
  · rw [hTopAfter]
    exact le_add_of_nonneg_right (le_max_right ..)
  · obtain rfl := List.mem_singleton.1 hMem
    refine ⟨hTop.ge, ?_⟩
    rw [hTopAfter]
    show rect.y + rect.height ≤ _
    rw [hTop, hHeight]
    exact add_le_add_right (le_max_left ..) _

/-- What can be asked of a renderer. -/
inductive Operation where
  | text (text : Text)
  | annotated (segment : Segment)
  | title (text : Text)
  | texture (texture : Texture) (height : ℚ) (source : Rect ℚ)
  | placeholder (width height : ℚ) (message : Text)
  | linkRow (name url : Text)
  | skip (height : ℚ)
  | font (font : FontSize)
  | anchor (anchor : Anchor)

/-- Does one thing; there is no box in a column whose width is negative. -/
def act? (r : Renderer ℚ) : Operation → Option (Renderer ℚ)
  | .text text => some (r.placeText text).1
  | .annotated segment => some (r.placeAnnotated segment).1
  | .title text => some (r.placeTitle text).1
  | .texture texture height source => some (r.placeTexture texture height source).1
  | .placeholder width height message => (r.placePlaceholder? width height message).map Prod.fst
  | .linkRow name url => some (r.placeLinkRow name url).1
  | .skip height => some (r.skip height)
  | .font font => some { r with scope := { r.scope with font } }
  | .anchor anchor => some { r with scope := { r.scope with anchor } }

/-- Does one thing after the other. -/
def run? (r : Renderer ℚ) : List Operation → Option (Renderer ℚ)
  | [] => some r
  | operation :: rest => (r.act? operation).bind fun r => r.run? rest

theorem stacks_restyle (r : Renderer ℚ) (scope : TextScope) : Stacks r { r with scope } := by
  refine ⟨⟨rfl, rfl, rfl, rfl, rfl, rfl, rfl⟩, le_refl _, [], [], .of_eq rfl rfl,
    List.Pairwise.nil, fun _ h => absurd h List.not_mem_nil⟩

theorem stacks_placeAnnotated (hMeasurer : r.canvas.measurer.Additive) (segment : Segment) :
    Stacks r (r.placeAnnotated segment).1 := by
  let noted := { r with notices := r.notices ++ (DecoratedText.ofSegment segment).notices }
  have hNoted : noted.canvas.measurer.Additive := hMeasurer
  have hOrder : (DecoratedText.ofSegment segment).value.InOrder :=
    DecoratedText.inOrder_resolve segment.text segment.underlines segment.hyperlinks
  have hBlock : Stacks noted
      (noted.placeBlock (DecoratedText.ofSegment segment).value { font := r.scope.font }).1 :=
    stacks_placeBlock hNoted hOrder _
  exact (stacks_notes r _).trans hBlock

theorem stacks_placeTitle (hMeasurer : r.canvas.measurer.Additive) (text : Text) :
    Stacks r (r.placeTitle text).1 :=
  (stacks_placeBlock hMeasurer (DecoratedText.inOrder_plain text)
    { font := .small, bold := true }).trans ((stacks_draw _ _).trans (stacks_skip _ _))

theorem stacks_placeLinkRow (r : Renderer ℚ) (name url : Text) :
    Stacks r (r.placeLinkRow name url).1 := by
  cases hHovered : r.canvas.isHovered ⟨r.origin.x, r.top,
      r.canvas.measurer.textWidth name r.scope.font, r.canvas.measurer.lineHeight r.scope.font⟩ with
  | false =>
      simp only [placeLinkRow, hHovered]
      exact (stacks_draw r _).trans (stacks_linkRect _ rfl rfl url)
  | true =>
      simp only [placeLinkRow, hHovered]
      exact (stacks_draw r _).trans ((stacks_draw _ _).trans (stacks_linkRect _ rfl rfl url))

/-- No operation fails in a column of non-negative width, and none moves the cursor up or puts a link above
it. -/
theorem exists_act? (hMeasurer : r.canvas.measurer.Additive) (hWidth : 0 ≤ r.columnWidth)
    (operation : Operation) : ∃ r', r.act? operation = some r' ∧ Stacks r r' := by
  cases operation with
  | text text =>
      exact ⟨_, rfl, stacks_placeBlock hMeasurer (DecoratedText.inOrder_plain text) _⟩
  | annotated segment => exact ⟨_, rfl, stacks_placeAnnotated hMeasurer segment⟩
  | title text => exact ⟨_, rfl, stacks_placeTitle hMeasurer text⟩
  | texture texture height source => exact ⟨_, rfl, (stacks_draw _ _).trans (stacks_skip _ _)⟩
  | placeholder width height message =>
      have hRoom : Scalar.zero ≤ r.columnWidth := hWidth
      refine ⟨(r.draw (r.placeholderOp width height message)).skip height, ?_,
        (stacks_draw r _).trans (stacks_skip _ height)⟩
      rw [act?, placePlaceholder?, if_pos hRoom]
      rfl
  | linkRow name url => exact ⟨_, rfl, stacks_placeLinkRow r name url⟩
  | skip height => exact ⟨_, rfl, stacks_skip r height⟩
  | font font => exact ⟨_, rfl, stacks_restyle r _⟩
  | anchor anchor => exact ⟨_, rfl, stacks_restyle r _⟩

theorem exists_run? (hMeasurer : r.canvas.measurer.Additive) (hWidth : 0 ≤ r.columnWidth)
    (operations : List Operation) : ∃ r', r.run? operations = some r' ∧ Stacks r r' := by
  induction operations generalizing r with
  | nil => exact ⟨r, rfl, .refl r⟩
  | cons operation rest ih =>
      obtain ⟨r₁, hAct, hStacks⟩ := exists_act? hMeasurer hWidth operation
      obtain ⟨r₂, hRun, hRest⟩ := ih (hStacks.column.measurer.symm ▸ hMeasurer)
        (hStacks.column.width.symm ▸ hWidth)
      exact ⟨r₂, by rw [run?, hAct, Option.bind_some, hRun], hStacks.trans hRest⟩

/-- Whatever is drawn in a pass, no two of its links have a point in common, and a click opens what a
hit test finds at its place. -/
theorem click_agrees_with_hitTest (hMeasurer : r.canvas.measurer.Additive)
    (hWidth : 0 ≤ r.columnWidth) (hFresh : r.links.regions = []) (operations : List Operation) :
    ∃ r', r.run? operations = some r' ∧ AllApart r'.links.regions ∧
      ∀ p, r.canvas.click = some p →
        r'.canvas.opened = r.canvas.opened ++ (r'.links.hitTest? p).toList := by
  obtain ⟨r', hRun, hStacks⟩ := exists_run? hMeasurer hWidth operations
  obtain ⟨texts, regions, hMarks, hApart, _⟩ := hStacks.marks
  have hRegions : r'.links.regions = regions := by
    rw [hMarks.regions_eq, hFresh, List.nil_append]
  refine ⟨r', hRun, hRegions.symm ▸ hApart, fun p hClick => ?_⟩
  rw [hMarks.opened_eq, hClick, Option.bind_some, LinkRegions.hitTest?, hRegions,
    hApart.find?_reverse]

/-- A grid of cells, each ten wide and twenty high. -/
def cells : Measurer ℚ :=
  { lineHeight := fun _ => 20
    textWidth := fun text _ => 10 * text.length }

theorem cells_additive : cells.Additive where
  lineHeight_nonneg _ := by norm_num [cells]
  textWidth_nonneg _ _ := by simp [cells]
  textWidth_append a b _ := by simp [cells, mul_add]

/-- A link that is wrapped to two lines, and one on a row of its own below it, which is clicked. -/
theorem click_opens_row_below_wrapped_link :
    let canvas : Canvas ℚ := Canvas.clickAt { measurer := cells } ⟨5, 50⟩
    let r : Renderer ℚ := .start canvas { columnWidth := 40 } {} ⟨0, 0⟩
    let operations : List Operation :=
      [.annotated ⟨.plain "<link>ab cd</link>".toList [] ["<link>ab cd</link>".toList], ⟨0, 18⟩⟩,
        .linkRow "row".toList "ef".toList]
    r.canvas.measurer.Additive ∧ 0 ≤ r.columnWidth ∧ r.links.regions = [] ∧
      ∃ r', r.run? operations = some r' ∧ AllApart r'.links.regions ∧
        r'.canvas.opened = (r'.links.hitTest? ⟨5, 50⟩).toList := by
  intro canvas r operations
  have hWidth : 0 ≤ r.columnWidth := by decide +kernel
  obtain ⟨r', hRun, hApart, hClick⟩ :=
    click_agrees_with_hitTest cells_additive hWidth rfl operations
  exact ⟨cells_additive, hWidth, rfl, r', hRun, hApart, hClick _ rfl⟩

example :
    let canvas : Canvas ℚ := Canvas.clickAt { measurer := cells } ⟨5, 50⟩
    let r : Renderer ℚ := .start canvas { columnWidth := 40 } {} ⟨0, 0⟩
    let operations : List Operation :=
      [.annotated ⟨.plain "<link>ab cd</link>".toList [] ["<link>ab cd</link>".toList], ⟨0, 18⟩⟩,
        .linkRow "row".toList "ef".toList]
    (r.run? operations).map (fun r' => (r'.links.size, r'.canvas.opened)) =
      some (3, ["ef".toList]) := by
  cbv

end Renderer

end Changelog
