import Changelog.Layout.SegmentDrawing
import Changelog.Proofs.Drawing.Extent
import Changelog.Proofs.Layout.Rows

/-! What placing a segment does to a renderer. Each kind of segment moves the cursor by its exact height,
which does not depend on where the cursor is, and draws nothing below that. -/

namespace Changelog

namespace Renderer

variable {r r' : Renderer ℚ} {scope : TextScope} {height : ℚ} {ops : List (DrawOp ℚ)}

theorem SameColumn.env_eq (h : SameColumn r r') : r'.env = r.env := by
  unfold env
  rw [h.settings, h.images, h.measurer, h.width]

/-- What is drawn for an image. -/
def imageOps (r : Renderer ℚ) (container : Container) : List (DrawOp ℚ) :=
  match r.images.lookup container.name with
  | .ready texture => [r.textureOp texture container.pixelHeight Rect.unit]
  | .remote status =>
    [r.placeholderOp container.width.toNat container.pixelHeight
      (status.text container.name r.elapsed.seconds)]
  | .missing => []

/-- Room is left for what is missing, as much as would have been drawn in. -/
theorem step_skipMissing (r : Renderer ℚ) (height : ℚ) (space : Text) (error : ResourceError)
    (name : Text) : r.Step (r.skipMissing height space error name) r.scope (max height 0) [] := by
  have hNotice : r.Step (r.notice ⟨.error, space ++ name, error.message⟩) r.scope 0 [] :=
    step_notes r _
  exact (step_skip _ height).after hNotice

/-- An image moves the cursor by its height, whatever state it is in. -/
theorem step_placeImage? {container : Container} (h : r.placeImage? container = some r') :
    r.Step r' r.scope container.pixelHeight (r.imageOps container) := by
  unfold placeImage? at h
  unfold imageOps
  cases hLookup : r.images.lookup container.name with
  | ready texture =>
      rw [hLookup] at h
      obtain rfl := Option.some.inj h
      have hStep := step_placeTexture r texture container.pixelHeight Rect.unit
      rwa [Scalar.max_natCast_zero] at hStep
  | remote status =>
      rw [hLookup] at h
      obtain ⟨placed, hPlaced, rfl⟩ := Option.map_eq_some_iff.1 h
      have hStep := r.step_placePlaceholder? hPlaced
      rwa [Scalar.ofNat_rat, Scalar.ofNat_rat, Scalar.max_natCast_zero] at hStep
  | missing =>
      rw [hLookup] at h
      obtain rfl := Option.some.inj h
      have hStep := step_skipMissing r container.pixelHeight ['t', 'e', 'x', 't', 'u', 'r', 'e', ':']
        (.missingImage container.name) container.name
      rwa [Scalar.max_natCast_zero] at hStep

/-- The picture that an animation shows now, and the part of it. -/
def picture? (r : Renderer ℚ) (container : Container) (frames : FrameSet) :
    Option (Texture × Rect ℚ) :=
  let fps := container.attributes.intOr Attribute.fpsName r.settings.defaultGifFps.toInt32.toInt
  let delay := container.attributes.intOr Attribute.delayName 0
  let index (count : Nat) : Nat :=
    (Animation.frameIndex? r.elapsed.toDouble fps delay count).getD 0
  match sheet? container frames, frames.first? with
  | some (columns, rows), some texture =>
    some (texture, Animation.spriteCell (index (columns * rows)) columns rows)
  | _, _ =>
    ((frames.get? (index frames.size)).or frames.frames.getLast?).map fun texture =>
      (texture, Rect.unit)

/-- What is drawn for an animation. -/
def animationOps (r : Renderer ℚ) (container : Container) : List (DrawOp ℚ) :=
  match r.images.animations.get? container.name with
  | some frames =>
    ((r.picture? container frames).map fun (texture, part) =>
      r.textureOp texture container.pixelHeight part).toList
  | none => []

/-- Draws a picture at the given height, or leaves room for one. -/
def placePicture (r : Renderer ℚ) (height : ℚ) : Option (Texture × Rect ℚ) → Renderer ℚ
  | some (texture, part) => (r.placeTexture texture height part).1
  | none => r.skip height

/-- A picture takes its height, and so does the room left for one. -/
theorem step_placePicture (r : Renderer ℚ) (height : ℚ) (shown : Option (Texture × Rect ℚ)) :
    r.Step (r.placePicture height shown) r.scope (max height 0)
      (shown.map fun (texture, part) => r.textureOp texture height part).toList := by
  cases shown with
  | none => exact step_skip r height
  | some shown => exact step_placeTexture r shown.1 height shown.2

/-- A texture shown as a whole is a picture, and so is the room that is left for one. -/
theorem placePicture_whole (r : Renderer ℚ) (height : ℚ) (shown : Option Texture) :
    (match shown with
      | some texture => some (r.placeTexture texture height Rect.unit).1
      | none => some (r.skip height)) =
      some (r.placePicture height (shown.map fun texture => (texture, Rect.unit))) := by
  cases shown <;> rfl

/-- If the cells of a sheet can be counted, then the count is their number. -/
theorem eq_of_placeFrames? {container : Container} {frames : FrameSet}
    (h : r.placeFrames? container frames = some r') :
    r' = r.placePicture container.pixelHeight (r.picture? container frames) := by
  unfold placeFrames? at h
  unfold picture?
  cases hSheet : sheet? container frames with
  | none =>
      rw [hSheet] at h
      exact Option.some.inj (h.symm.trans (placePicture_whole r _ _))
  | some grid =>
      cases hFirst : frames.first? with
      | none =>
          rw [hSheet, hFirst] at h
          exact Option.some.inj (h.symm.trans (placePicture_whole r _ _))
      | some texture =>
          rw [hSheet, hFirst] at h
          obtain ⟨count, hCount, rfl⟩ := Option.map_eq_some_iff.1 h
          obtain ⟨rfl, -⟩ := inWord?_eq_some_iff.1 hCount
          rfl

/-- An animation moves the cursor by its height, also if it has no pictures or is not there. -/
theorem step_placeAnimation? {container : Container} (h : r.placeAnimation? container = some r') :
    r.Step r' r.scope container.pixelHeight (r.animationOps container) := by
  unfold placeAnimation? at h
  unfold animationOps
  cases hFrames : r.images.animations.get? container.name with
  | none =>
      rw [hFrames] at h
      obtain rfl := Option.some.inj h
      have hStep := step_skipMissing r container.pixelHeight ['f', 'r', 'a', 'm', 'e', 's', ':']
        (.missingFrames container.name) container.name
      rwa [Scalar.max_natCast_zero] at hStep
  | some frames =>
      rw [hFrames] at h
      obtain rfl := eq_of_placeFrames? h
      have hStep := step_placePicture r container.pixelHeight (r.picture? container frames)
      rwa [Scalar.max_natCast_zero] at hStep

/-- What is drawn for a tag whose body could be read. -/
def containerOps (r : Renderer ℚ) (kind : TagKind) (container : Container) : List (DrawOp ℚ) :=
  match kind with
  | .gif => r.animationOps container
  | _ => r.imageOps container

/-- What is drawn for a tag with a body. -/
def bodyOps (r : Renderer ℚ) (kind : TagKind) (body : Text) : List (DrawOp ℚ) :=
  match (Container.resolveOrReserve kind r.env body).value with
  | .ok container => r.containerOps kind container
  | .error _ => []

/-- What is drawn for a segment. -/
def segmentOps (r : Renderer ℚ) (segment : Segment) : List (DrawOp ℚ) :=
  match segment.tag? with
  | none => r.blockOps (DecoratedText.ofSegment segment).value { font := r.scope.font }
  | some .font | some .anchor => []
  | some .title => r.titleOps segment.text
  | some kind => r.bodyOps kind segment.text

/-- A report changes nothing that is drawn or measured. -/
theorem step_note {β : Type} (r : Renderer ℚ) (noted : Noted β) :
    r.Step (r.note noted).1 r.scope 0 [] :=
  step_notes r _

/-- An instruction takes no height; all it does is to change the style for what follows. -/
theorem step_instruct (r : Renderer ℚ) (noted : Noted TextScope) :
    r.Step { (r.note noted).1 with scope := noted.value } noted.value 0 [] :=
  ⟨⟨rfl, rfl, rfl, rfl, rfl, rfl, rfl⟩, rfl, (add_zero _).symm, (List.append_nil _).symm⟩

theorem step_reserve (r : Renderer ℚ) (height : Nat) :
    r.Step (r.skip height) r.scope height [] := by
  have h := step_skip r height
  rwa [Scalar.max_natCast_zero] at h

/-- Draws what a tag shows. -/
def placeContainer? (r : Renderer ℚ) (kind : TagKind) (container : Container) :
    Option (Renderer ℚ) :=
  match kind with
  | .gif => r.placeAnimation? container
  | _ => r.placeImage? container

/-- What a tag shows moves the cursor by the height of the tag, whatever it is that it shows. -/
theorem step_placeContainer? {kind : TagKind} {container : Container}
    (h : r.placeContainer? kind container = some r') :
    r.Step r' r.scope container.pixelHeight (r.containerOps kind container) := by
  cases kind with
  | gif => exact step_placeAnimation? h
  | font | anchor | title | image => exact step_placeImage? h

/-- Placing a tag with a body, once the body has been resolved: either what it shows is placed, or room is
left. -/
theorem placeTag?_eq (r : Renderer ℚ) {kind : TagKind} (hKind : kind = .image ∨ kind = .gif)
    (body : Text) :
    r.placeTag? kind body =
      match (Container.resolveOrReserve kind r.env body).value with
      | .ok container =>
        (r.note (Container.resolveOrReserve kind r.env body)).1.placeContainer? kind container
      | .error reserved =>
        some ((r.note (Container.resolveOrReserve kind r.env body)).1.skip reserved.toNat) := by
  rcases hKind with rfl | rfl
  · cases hBody : (Container.resolveOrReserve .image r.env body).value <;>
      simp only [placeTag?, note, hBody] <;> rfl
  · cases hBody : (Container.resolveOrReserve .gif r.env body).value <;>
      simp only [placeTag?, note, hBody] <;> rfl

/-- A tag with a body keeps the room that was measured, also if the body cannot be read. -/
theorem step_placeTag? {kind : TagKind} (hKind : kind = .image ∨ kind = .gif) {body : Text}
    (h : r.placeTag? kind body = some r') :
    r.Step r' r.scope (r.env.containerRows kind body) (r.bodyOps kind body) := by
  have hNote := step_note r (Container.resolveOrReserve kind r.env body)
  rw [placeTag?_eq r hKind] at h
  rw [LayoutEnv.containerRows, bodyOps]
  cases hBody : (Container.resolveOrReserve kind r.env body).value with
  | error reserved =>
      rw [hBody] at h
      obtain rfl := Option.some.inj h
      exact (step_reserve _ reserved.toNat).after hNote
  | ok container =>
      rw [hBody] at h
      exact (step_placeContainer? h).after hNote

/-- A segment that can be placed moves the cursor by its exact height, and leaves the style that measuring
it leaves. -/
theorem step_placeSegment? {segment : Segment} (h : r.placeSegment? segment = some r') :
    r.Step r' (r.scope.after segment) (r.env.exactHeight r.scope segment)
      (r.segmentOps segment) := by
  unfold placeSegment? at h
  unfold TextScope.after LayoutEnv.exactHeight segmentOps
  cases hTag : segment.tag? with
  | none =>
      rw [hTag] at h
      obtain rfl := Option.some.inj h
      have hNote := step_note r (DecoratedText.ofSegment segment)
      have hBlock := step_placeBlock (r.note (DecoratedText.ofSegment segment)).1
        (DecoratedText.ofSegment segment).value { font := r.scope.font }
      exact hBlock.after hNote
  | some kind =>
      rw [hTag] at h
      cases kind with
      | font =>
          obtain rfl := Option.some.inj h
          exact step_instruct r (r.scope.instruct .font segment.text)
      | anchor =>
          obtain rfl := Option.some.inj h
          exact step_instruct r (r.scope.instruct .anchor segment.text)
      | title =>
          obtain rfl := Option.some.inj h
          exact step_placeTitle r segment.text
      | image => exact step_placeTag? (.inl rfl) h
      | gif => exact step_placeTag? (.inr rfl) h

/-- An image and the box in its place are no higher than the tag. -/
theorem allAbove_imageOps (r : Renderer ℚ) (container : Container) :
    DrawOp.AllAbove r.canvas.measurer (r.top + container.pixelHeight) (r.imageOps container) := by
  unfold imageOps
  cases r.images.lookup container.name with
  | ready texture =>
      intro op hMem
      obtain rfl := List.mem_singleton.1 hMem
      exact (bottom_textureOp ..).le
  | remote status =>
      intro op hMem
      obtain rfl := List.mem_singleton.1 hMem
      exact (bottom_placeholderOp ..).le
  | missing =>
      intro op hMem
      cases hMem

theorem allAbove_animationOps (r : Renderer ℚ) (container : Container) :
    DrawOp.AllAbove r.canvas.measurer (r.top + container.pixelHeight)
      (r.animationOps container) := by
  unfold animationOps
  cases r.images.animations.get? container.name with
  | none =>
      intro op hMem
      cases hMem
  | some frames =>
      intro op hMem
      obtain ⟨shown, _, rfl⟩ := Option.map_eq_some_iff.1 (Option.mem_toList.1 hMem)
      exact (bottom_textureOp ..).le

/-- So nothing of a tag with a body is drawn below the rows that were reserved for it. -/
theorem allAbove_bodyOps (r : Renderer ℚ) (kind : TagKind) (body : Text) :
    DrawOp.AllAbove r.canvas.measurer
      (r.top + r.env.containerRows kind body) (r.bodyOps kind body) := by
  rw [LayoutEnv.containerRows, bodyOps]
  cases (Container.resolveOrReserve kind r.env body).value with
  | error reserved =>
      intro op hMem
      cases hMem
  | ok container =>
      cases kind with
      | gif => exact allAbove_animationOps r container
      | font | anchor | title | image => exact allAbove_imageOps r container

/-- Nothing of a segment is drawn below the place where the cursor comes to rest. -/
theorem allAbove_segmentOps (r : Renderer ℚ) (segment : Segment) :
    DrawOp.AllAbove r.canvas.measurer (r.top + r.env.exactHeight r.scope segment)
      (r.segmentOps segment) := by
  unfold segmentOps LayoutEnv.exactHeight
  cases segment.tag? with
  | none =>
      exact allAbove_blockOps r (DecoratedText.ofSegment segment).value { font := r.scope.font }
  | some kind =>
      cases kind with
      | font | anchor =>
          intro op hMem
          cases hMem
      | title =>
          refine (allAbove_titleOps r segment.text).mono (add_le_add_right ?_ r.top)
          exact le_add_of_nonneg_right (Nat.cast_nonneg _)
      | image => exact allAbove_bodyOps r .image segment.text
      | gif => exact allAbove_bodyOps r .gif segment.text

end Renderer

end Changelog
