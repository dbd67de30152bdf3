import Changelog.Proofs.Drawing.Placement

/-! Drawing further up. A renderer whose column begins higher up draws the same things higher up by the
same distance, as long as there is no pointer, which would not move along. -/

namespace Changelog

variable (s : ℚ)

def Point.shiftUp (p : Point ℚ) : Point ℚ :=
  { p with y := p.y - s }

def Rect.shiftUp (r : Rect ℚ) : Rect ℚ :=
  { r with y := r.y - s }

def DrawOp.shiftUp : DrawOp ℚ → DrawOp ℚ
  | .text position content style => .text (position.shiftUp s) content style
  | .texture rect name source => .texture (rect.shiftUp s) name source
  | .line start stop color => .line (start.shiftUp s) (stop.shiftUp s) color
  | .placeholder rect message => .placeholder (rect.shiftUp s) message
  | .tooltip rect content => .tooltip (rect.shiftUp s) content

@[simp] theorem DrawOp.shiftUp_zero (op : DrawOp ℚ) : op.shiftUp 0 = op := by
  cases op <;> simp [DrawOp.shiftUp, Point.shiftUp, Rect.shiftUp]

namespace Renderer

def PlacedLine.shiftUp (p : PlacedLine ℚ) : PlacedLine ℚ :=
  { p with position := p.position.shiftUp s }

def PlacedDecoration.shiftUp (d : PlacedDecoration ℚ) : PlacedDecoration ℚ :=
  { d with rects := d.rects.map (Rect.shiftUp s) }

/-- The column of `r'` is that of `r`, but begins higher up; there is no pointer over it. -/
structure Shifted (r r' : Renderer ℚ) : Prop where
  settings : r'.settings = r.settings
  images : r'.images = r.images
  x_eq : r'.origin.x = r.origin.x
  y_eq : r'.origin.y = r.origin.y - s
  elapsed : r'.elapsed = r.elapsed
  width : r'.columnWidth = r.columnWidth
  measurer : r'.canvas.measurer = r.canvas.measurer
  mouse : r.canvas.mouse = none ∧ r'.canvas.mouse = none
  cursor : r'.cursor = r.cursor
  scope : r'.scope = r.scope

variable {s} {r r' : Renderer ℚ}

/-- The cursor stands higher up by the same distance. -/
theorem Shifted.top (h : Shifted s r r') : r'.top = r.top - s := by
  unfold Renderer.top
  rw [h.y_eq, h.cursor]
  ring

/-- What is measured in the one column is measured in the other. -/
theorem Shifted.env_eq (h : Shifted s r r') : r'.env = r.env := by
  unfold env
  rw [h.settings, h.images, h.measurer, h.width]

/-- The lines of a block are the same lines, only higher up: how a text is wrapped does not depend on where
it stands. -/
theorem Shifted.placedLines (h : Shifted s r r') (text : Text) (font : FontSize) :
    r'.placedLines text font = (r.placedLines text font).map (PlacedLine.shiftUp s) := by
  unfold Renderer.placedLines alignOffset
  rw [h.measurer, h.width, h.x_eq, h.top, h.scope, List.map_map]
  refine List.map_congr_left fun line _ => ?_
  simp only [Function.comp_apply, PlacedLine.shiftUp, Point.shiftUp, sub_add_eq_add_sub]

/-- The rectangles of a span move with the lines. -/
theorem spanRects_shiftUp (measurer : Measurer ℚ) (font : FontSize) (text : Text)
    (placed : List (PlacedLine ℚ)) (span : Span) :
    spanRects measurer font text (placed.map (PlacedLine.shiftUp s)) span =
      (spanRects measurer font text placed span).map (Rect.shiftUp s) := by
  unfold spanRects
  rw [List.filterMap_map, List.map_filterMap]
  refine List.filterMap_congr fun p _ => ?_
  by_cases hPart : (onLine span p.line.span).start < (onLine span p.line.span).stop
  · refine (if_pos hPart).trans ?_
    dsimp only
    rw [if_pos hPart]
    rfl
  · refine (if_neg hPart).trans ?_
    dsimp only
    rw [if_neg hPart]
    rfl

/-- Without a pointer nothing is under it. -/
theorem not_hovered (hMouse : r.canvas.mouse = none) (rects : List (Rect ℚ)) :
    rects.any r.canvas.isHovered = false := by
  refine List.any_eq_false.2 fun rect _ => ?_
  rw [Canvas.isHovered, hMouse]
  exact Bool.false_ne_true

/-- The decorations of a block move with its lines. This is where the pointer would make a difference. -/
theorem Shifted.placedDecorations (h : Shifted s r r') (block : DecoratedText) (font : FontSize)
    (placed : List (PlacedLine ℚ)) :
    r'.placedDecorations block font (placed.map (PlacedLine.shiftUp s)) =
      (r.placedDecorations block font placed).map (PlacedDecoration.shiftUp s) := by
  unfold Renderer.placedDecorations
  rw [List.map_map]
  refine List.map_congr_left fun decoration _ => ?_
  simp only [Function.comp_apply, PlacedDecoration.shiftUp, not_hovered h.mouse.1,
    not_hovered h.mouse.2, h.measurer, spanRects_shiftUp]

/-- Where a line changes its colour does not depend on the rectangles. -/
theorem lineRuns_shiftUp (settings : Settings ℚ) (color : Color) (line : Span) (mark : Nat)
    (decorations : List (PlacedDecoration ℚ)) :
    lineRuns settings color line mark (decorations.map (PlacedDecoration.shiftUp s)) =
      lineRuns settings color line mark decorations := by
  induction decorations generalizing mark with
  | nil => rfl
  | cons d rest ih =>
      simp only [List.map_cons, lineRuns, PlacedDecoration.shiftUp, ih]

theorem Shifted.lineOps (h : Shifted s r r') (block : DecoratedText) (style : TextStyle)
    (decorations : List (PlacedDecoration ℚ)) (placed : PlacedLine ℚ) :
    r'.lineOps block style (decorations.map (PlacedDecoration.shiftUp s)) (placed.shiftUp s) =
      (r.lineOps block style decorations placed).map (DrawOp.shiftUp s) := by
  unfold Renderer.lineOps
  dsimp only [PlacedLine.shiftUp]
  rw [lineRuns_shiftUp, h.settings, h.measurer, List.map_map]
  rfl

theorem ruleOp_shiftUp (rect : Rect ℚ) (lineHeight part : ℚ) (color : Color) :
    ruleOp (rect.shiftUp s) lineHeight part color =
      (ruleOp rect lineHeight part color).shiftUp s := by
  simp only [ruleOp, Rect.shiftUp, DrawOp.shiftUp, Point.shiftUp, sub_add_eq_add_sub, Rect.right]

theorem linkRectOps_shiftUp (style : TextStyle) (hovered : Bool) (url : Text)
    (measurer : Measurer ℚ) (rect : Rect ℚ) :
    linkRectOps style hovered url measurer (rect.shiftUp s) =
      (linkRectOps style hovered url measurer rect).map (DrawOp.shiftUp s) := by
  unfold linkRectOps
  rw [ruleOp_shiftUp]
  cases hovered <;> rfl

theorem decorationOps_shiftUp (style : TextStyle) (measurer : Measurer ℚ)
    (d : PlacedDecoration ℚ) :
    decorationOps style measurer (d.shiftUp s) =
      (decorationOps style measurer d).map (DrawOp.shiftUp s) := by
  unfold decorationOps
  dsimp only [PlacedDecoration.shiftUp]
  cases d.decoration.kind with
  | underline =>
      simp only [List.map_map]
      exact List.map_congr_left fun rect _ => ruleOp_shiftUp ..
  | link url =>
      simp only [List.flatMap_map, List.map_flatMap]
      exact List.flatMap_congr fun rect _ => linkRectOps_shiftUp ..

/-- So everything that a block draws moves up by the distance. -/
theorem Shifted.blockOps (h : Shifted s r r') (block : DecoratedText) (style : TextStyle) :
    r'.blockOps block style = (r.blockOps block style).map (DrawOp.shiftUp s) := by
  unfold Renderer.blockOps
  dsimp only
  rw [h.placedLines, h.placedDecorations, h.measurer, List.map_append]
  simp only [List.flatMap_map, List.map_flatMap, h.lineOps, decorationOps_shiftUp]

theorem Shifted.titleOps (h : Shifted s r r') (text : Text) :
    r'.titleOps text = (r.titleOps text).map (DrawOp.shiftUp s) := by
  unfold Renderer.titleOps titleRuleOp
  rw [h.blockOps, h.top, h.measurer, h.width, h.x_eq, List.map_append, sub_add_eq_add_sub]
  rfl

/-- A box in the middle of the column moves up and stays in the middle. -/
theorem Shifted.centered (h : Shifted s r r') (width height : ℚ) :
    r'.centered width height = (r.centered width height).shiftUp s := by
  unfold Renderer.centered
  rw [h.x_eq, h.width, h.top]
  rfl

theorem Shifted.textureOp (h : Shifted s r r') (texture : Texture) (height : ℚ)
    (source : Rect ℚ) :
    r'.textureOp texture height source = (r.textureOp texture height source).shiftUp s := by
  unfold Renderer.textureOp
  dsimp only
  rw [h.centered]
  rfl

theorem Shifted.placeholderOp (h : Shifted s r r') (width height : ℚ) (message : Text) :
    r'.placeholderOp width height message = (r.placeholderOp width height message).shiftUp s := by
  unfold Renderer.placeholderOp
  rw [h.centered, h.width]
  rfl

/-- An image is in the same state for both, so the same is drawn for it. -/
theorem Shifted.imageOps (h : Shifted s r r') (container : Container) :
    r'.imageOps container = (r.imageOps container).map (DrawOp.shiftUp s) := by
  unfold Renderer.imageOps
  rw [h.images, h.elapsed]
  cases r.images.lookup container.name with
  | ready texture => exact congrArg (fun op => [op]) (h.textureOp ..)
  | remote status => exact congrArg (fun op => [op]) (h.placeholderOp ..)
  | missing => rfl

/-- The time is the same for both, and so is the picture of an animation that is shown. -/
theorem Shifted.animationOps (h : Shifted s r r') (container : Container) :
    r'.animationOps container = (r.animationOps container).map (DrawOp.shiftUp s) := by
  have hPicture (frames : FrameSet) : r'.picture? container frames = r.picture? container frames := by
    unfold picture?
    rw [h.settings, h.elapsed]
  unfold Renderer.animationOps
  rw [h.images]
  cases r.images.animations.get? container.name with
  | none => rfl
  | some frames =>
      dsimp only
      rw [hPicture]
      cases r.picture? container frames with
      | none => rfl
      | some shown => exact congrArg (fun op => [op]) (h.textureOp ..)

theorem Shifted.containerOps (h : Shifted s r r') (kind : TagKind) (container : Container) :
    r'.containerOps kind container = (r.containerOps kind container).map (DrawOp.shiftUp s) := by
  cases kind with
  | gif => exact h.animationOps container
  | font | anchor | title | image => exact h.imageOps container

theorem Shifted.bodyOps (h : Shifted s r r') (kind : TagKind) (body : Text) :
    r'.bodyOps kind body = (r.bodyOps kind body).map (DrawOp.shiftUp s) := by
  unfold Renderer.bodyOps
  rw [h.env_eq]
  cases (Container.resolveOrReserve kind r.env body).value with
  | ok container => exact h.containerOps kind container
  | error reserved => rfl

/-- A segment is drawn in the same way, only higher up. -/
theorem Shifted.segmentOps (h : Shifted s r r') (segment : Segment) :
    r'.segmentOps segment = (r.segmentOps segment).map (DrawOp.shiftUp s) := by
  unfold Renderer.segmentOps
  cases segment.tag? with
  | none =>
      rw [h.scope]
      exact h.blockOps ..
  | some kind =>
      cases kind with
      | font | anchor => rfl
      | title => exact h.titleOps segment.text
      | image => exact h.bodyOps .image segment.text
      | gif => exact h.bodyOps .gif segment.text

end Renderer

end Changelog
