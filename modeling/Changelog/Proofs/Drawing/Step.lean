import Changelog.Drawing.Renderer
import Changelog.Proofs.Exact

/-! What placing something does to a renderer, with exact numbers. A step tells how far the cursor moves
down and what is drawn; everything else about the column stays. Steps compose, so the step of a block
or a box is put together from those of single strokes. -/

namespace Changelog.Renderer

/-- The column, its measurer and the pointer are the same. -/
structure SameColumn (r r' : Renderer ℚ) : Prop where
  settings : r'.settings = r.settings
  images : r'.images = r.images
  origin : r'.origin = r.origin
  elapsed : r'.elapsed = r.elapsed
  width : r'.columnWidth = r.columnWidth
  measurer : r'.canvas.measurer = r.canvas.measurer
  mouse : r'.canvas.mouse = r.canvas.mouse

/-- From `r` to `r'` the cursor moves down by `height` and `ops` are drawn; `scope` is in force
afterwards. Links, notices and clicks are left open. -/
structure Step (r r' : Renderer ℚ) (scope : TextScope) (height : ℚ) (ops : List (DrawOp ℚ)) :
    Prop where
  column : SameColumn r r'
  scope_eq : r'.scope = scope
  cursor_eq : r'.cursor = r.cursor + height
  ops_eq : r'.canvas.ops = r.canvas.ops ++ ops

variable {r r₁ r₂ : Renderer ℚ} {scope scope₁ scope₂ : TextScope} {height height₁ height₂ : ℚ}
  {ops ops₁ ops₂ : List (DrawOp ℚ)}

theorem SameColumn.refl (r : Renderer ℚ) : SameColumn r r :=
  ⟨rfl, rfl, rfl, rfl, rfl, rfl, rfl⟩

theorem SameColumn.trans (h : SameColumn r r₁) (h' : SameColumn r₁ r₂) : SameColumn r r₂ :=
  ⟨h'.settings.trans h.settings, h'.images.trans h.images, h'.origin.trans h.origin,
    h'.elapsed.trans h.elapsed, h'.width.trans h.width, h'.measurer.trans h.measurer,
    h'.mouse.trans h.mouse⟩

theorem Step.refl (r : Renderer ℚ) : r.Step r r.scope 0 [] :=
  ⟨SameColumn.refl r, rfl, (add_zero _).symm, (List.append_nil _).symm⟩

/-- Steps are taken one after the other: the heights add up, and what is drawn is put in a row. The style is
that of the later one. -/
theorem Step.trans (h : r.Step r₁ scope₁ height₁ ops₁) (h' : r₁.Step r₂ scope₂ height₂ ops₂) :
    r.Step r₂ scope₂ (height₁ + height₂) (ops₁ ++ ops₂) := by
  refine ⟨h.column.trans h'.column, h'.scope_eq, ?_, ?_⟩
  · rw [h'.cursor_eq, h.cursor_eq, add_assoc]
  · rw [h'.ops_eq, h.ops_eq, List.append_assoc]

/-- A step after one that neither moves the cursor nor draws. -/
theorem Step.after (h : r₁.Step r₂ scope height ops) (h' : r.Step r₁ scope₁ 0 []) :
    r.Step r₂ scope height ops := by
  simpa using h'.trans h

/-- The place of the cursor on the canvas moves with the cursor. -/
theorem Step.top (h : r.Step r₁ scope height ops) : r₁.top = r.top + height := by
  unfold Renderer.top
  rw [h.column.origin, h.cursor_eq]
  ring

/-- Room is left downwards only; a height below zero does not take the cursor back. -/
theorem step_skip (r : Renderer ℚ) (height : ℚ) :
    r.Step (r.skip height) r.scope (max height 0) [] := by
  refine ⟨⟨rfl, rfl, rfl, rfl, rfl, rfl, rfl⟩, rfl, ?_, (List.append_nil _).symm⟩
  show r.cursor + Scalar.larger height Scalar.zero = _
  rw [Scalar.larger_rat, Scalar.zero_rat]

theorem step_draw (r : Renderer ℚ) (op : DrawOp ℚ) : r.Step (r.draw op) r.scope 0 [op] :=
  ⟨⟨rfl, rfl, rfl, rfl, rfl, rfl, rfl⟩, rfl, (add_zero _).symm, rfl⟩

@[simp] theorem draw_scope (r : Renderer ℚ) (op : DrawOp ℚ) : (r.draw op).scope = r.scope := rfl

@[simp] theorem draw_settings (r : Renderer ℚ) (op : DrawOp ℚ) :
    (r.draw op).settings = r.settings := rfl

theorem step_notes (r : Renderer ℚ) (notices : List Notice) :
    r.Step { r with notices } r.scope 0 [] :=
  ⟨⟨rfl, rfl, rfl, rfl, rfl, rfl, rfl⟩, rfl, (add_zero _).symm, (List.append_nil _).symm⟩

/-- A link is not drawn. It may use up a click, which a step says nothing of. -/
theorem step_linkRect (r : Renderer ℚ) (rect : Rect ℚ) (url : Text) :
    r.Step (r.linkRect rect url) r.scope 0 [] := by
  unfold linkRect Canvas.openIfClicked
  split <;>
    exact ⟨⟨rfl, rfl, rfl, rfl, rfl, rfl, rfl⟩, rfl, (add_zero _).symm, (List.append_nil _).symm⟩

/-- Steps that leave the cursor and the style alone can be done for a whole list. -/
theorem step_foldl {β : Type} (place : Renderer ℚ → β → Renderer ℚ)
    (drawn : Measurer ℚ → β → List (DrawOp ℚ))
    (hPlace : ∀ (r : Renderer ℚ) (b : β), r.Step (place r b) r.scope 0 (drawn r.canvas.measurer b))
    (r : Renderer ℚ) (items : List β) :
    r.Step (items.foldl place r) r.scope 0 (items.flatMap (drawn r.canvas.measurer)) := by
  induction items generalizing r with
  | nil => exact Step.refl r
  | cons item rest ih =>
      have hFirst := hPlace r item
      have hRest := ih (place r item)
      rw [hFirst.column.measurer, hFirst.scope_eq] at hRest
      simpa using hFirst.trans hRest

/-- Drawing does not move the cursor. -/
theorem step_drawAll (r : Renderer ℚ) (ops : List (DrawOp ℚ)) :
    r.Step (r.drawAll ops) r.scope 0 ops := by
  have h := step_foldl draw (fun _ op => [op]) step_draw r ops
  simpa [drawAll] using h

/-- What is drawn for one rectangle of a link. -/
def linkRectOps (style : TextStyle) (hovered : Bool) (url : Text) (measurer : Measurer ℚ)
    (rect : Rect ℚ) : List (DrawOp ℚ) :=
  .tooltip rect url ::
    if hovered then [ruleOp rect (measurer.lineHeight style.font) underlinePart .mouseover] else []

/-- What is drawn for a decoration besides the text. -/
def decorationOps (style : TextStyle) (measurer : Measurer ℚ) (d : PlacedDecoration ℚ) :
    List (DrawOp ℚ) :=
  match d.decoration.kind with
  | .underline =>
    d.rects.map fun rect => ruleOp rect (measurer.lineHeight style.font) underlinePart style.color
  | .link url => d.rects.flatMap (linkRectOps style d.hovered url measurer)

/-- What is drawn for a block: its lines, then its decorations. -/
def blockOps (r : Renderer ℚ) (block : DecoratedText) (style : TextStyle) : List (DrawOp ℚ) :=
  let placed := r.placedLines block.text style.font
  let decorations := r.placedDecorations block style.font placed
  placed.flatMap (r.lineOps block style decorations) ++
    decorations.flatMap (decorationOps style r.canvas.measurer)

/-- Over a rectangle of a link lies a tooltip, and a rule only if the pointer is over the link. -/
theorem step_placeLinkRect (style : TextStyle) (hovered : Bool) (url : Text) (r : Renderer ℚ)
    (rect : Rect ℚ) :
    r.Step (placeLinkRect style.font hovered url r rect) r.scope 0
      (linkRectOps style hovered url r.canvas.measurer rect) := by
  have hTip := step_draw r (.tooltip rect url)
  cases hovered with
  | false => simpa [linkRectOps, placeLinkRect] using hTip.trans (step_linkRect _ rect url)
  | true =>
      have hRule := hTip.trans (step_draw _
        (ruleOp rect (r.canvas.measurer.lineHeight style.font) underlinePart .mouseover))
      simpa [linkRectOps, placeLinkRect] using hRule.trans (step_linkRect _ rect url)

/-- Decorations are drawn over lines that are there, without moving the cursor. -/
theorem step_placeDecoration (style : TextStyle) (r : Renderer ℚ) (d : PlacedDecoration ℚ) :
    r.Step (placeDecoration style r d) r.scope 0 (decorationOps style r.canvas.measurer d) := by
  unfold placeDecoration decorationOps
  cases d.decoration.kind with
  | underline => exact step_drawAll r _
  | link url => exact step_foldl _ _ (step_placeLinkRect style d.hovered url) r d.rects

/-- A block has the lines that its text is wrapped to. -/
theorem length_placedLines (r : Renderer ℚ) (text : Text) (font : FontSize) :
    (r.placedLines text font).length =
      (Wrap.Column.lines ⟨r.canvas.measurer, font, r.columnWidth⟩ text).length := by
  simp [placedLines]

/-- A block moves the cursor down by the height that its text is measured with. -/
theorem step_placeBlock (r : Renderer ℚ) (block : DecoratedText) (style : TextStyle) :
    r.Step (r.placeBlock block style).1 r.scope
      (max (r.canvas.measurer.textHeight block.text r.columnWidth style.font) 0)
      (r.blockOps block style) := by
  have hLines := step_drawAll r
    ((r.placedLines block.text style.font).flatMap (r.lineOps block style
      (r.placedDecorations block style.font (r.placedLines block.text style.font))))
  have hDecorations := hLines.trans (step_foldl _ _ (step_placeDecoration style) _
    (r.placedDecorations block style.font (r.placedLines block.text style.font)))
  have hAll := hDecorations.trans (step_skip _
    (Scalar.ofNat (r.placedLines block.text style.font).length *
      r.canvas.measurer.lineHeight style.font))
  rw [length_placedLines] at hAll
  simpa [blockOps, placeBlock, length_placedLines, Measurer.textHeight, hLines.column.measurer,
    hLines.scope_eq, hDecorations.scope_eq] using hAll

/-- The rule below a heading. -/
def titleRuleOp (r : Renderer ℚ) (y : ℚ) : DrawOp ℚ :=
  .line ⟨r.origin.x, y⟩ ⟨r.origin.x + r.columnWidth, y⟩ .white

/-- What is drawn for a heading. -/
def titleOps (r : Renderer ℚ) (text : Text) : List (DrawOp ℚ) :=
  r.blockOps (DecoratedText.plain text) { font := .small, bold := true } ++
    [r.titleRuleOp (r.top + max (r.canvas.measurer.textHeight text r.columnWidth .small) 0)]

/-- A heading moves the cursor down by the height of its text and by the padding of titles. -/
theorem step_placeTitle (r : Renderer ℚ) (text : Text) :
    r.Step (r.placeTitle text).1 r.scope
      (max (r.canvas.measurer.textHeight text r.columnWidth .small) 0 +
        r.settings.titlePadding.toNat) (r.titleOps text) := by
  have hText : r.Step _ r.scope (max (r.canvas.measurer.textHeight text r.columnWidth .small) 0) _ :=
    step_placeBlock r (DecoratedText.plain text) { font := .small, bold := true }
  have hRule := hText.trans (step_draw _ (r.titleRuleOp
    (r.top + max (r.canvas.measurer.textHeight text r.columnWidth .small) 0)))
  have hAll := hRule.trans (step_skip _ (Scalar.ofNat r.settings.titlePadding.toNat))
  rw [← hText.top] at hAll
  simp only [placeTitle, titleOps, hText.column.origin, hText.column.width, draw_settings,
    hText.column.settings, ← hText.top]
  simpa [titleRuleOp, hText.scope_eq] using hAll

/-- What is drawn for a texture. -/
def textureOp (r : Renderer ℚ) (texture : Texture) (height : ℚ) (source : Rect ℚ) : DrawOp ℚ :=
  let sourceWidth := texture.size.width * source.width
  let sourceHeight := texture.size.height * source.height
  let width := if 0 < sourceHeight then sourceWidth / sourceHeight * height else 0
  .texture (r.centered width height) texture.name source

/-- A texture takes its height, unless that is below zero. -/
theorem step_placeTexture (r : Renderer ℚ) (texture : Texture) (height : ℚ) (source : Rect ℚ) :
    r.Step (r.placeTexture texture height source).1 r.scope (max height 0)
      [r.textureOp texture height source] := by
  have h := (step_draw r (r.textureOp texture height source)).trans (step_skip _ height)
  show r.Step ((r.draw (r.textureOp texture height source)).skip height) _ _ _
  simpa using h

/-- What is drawn for a box with a message. -/
def placeholderOp (r : Renderer ℚ) (width height : ℚ) (message : Text) : DrawOp ℚ :=
  .placeholder (r.centered (Scalar.clamp 0 r.columnWidth width) height) message

/-- A box that there is room for moves the cursor down by its height. -/
theorem step_placePlaceholder? {width height : ℚ} {message : Text} {placed : Renderer ℚ × ℚ}
    (h : r.placePlaceholder? width height message = some placed) :
    r.Step placed.1 r.scope (max height 0) [r.placeholderOp width height message] := by
  obtain ⟨-, hPlaced⟩ := Option.ite_none_right_eq_some.1 h
  obtain rfl := Option.some.inj hPlaced
  have hStep := (step_draw r (r.placeholderOp width height message)).trans (step_skip _ height)
  rw [zero_add] at hStep
  exact hStep

end Changelog.Renderer
