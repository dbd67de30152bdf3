import Changelog.Layout.SegmentDrawing
import Changelog.Proofs.Exact
import Changelog.Proofs.Layout.AnimationCycle
import Changelog.Proofs.Layout.ContainerBounds

/-! Animations from a sprite sheet. The cells of a sheet are counted in a 32-bit word. As long as the
word holds their number, the sheet is shown like an animation of that many pictures, and every cell has
its turn in each cycle. A sheet with more cells is not drawn at all. -/

namespace Changelog

namespace Animation

variable {α : Type} [Scalar α] {columns rows column row : Nat}

/-- The part of a sheet that lies in a column and a row. -/
def sheetPart (columns rows column row : Nat) : Rect α :=
  let width := Scalar.ofNat 1 / Scalar.ofNat columns
  let height := Scalar.ofNat 1 / Scalar.ofNat rows
  { x := Scalar.ofNat column * width, y := Scalar.ofNat row * height, width, height }

/-- Counted row by row, no cell of a sheet has a number beyond the last one. -/
theorem cell_lt (hColumn : column < columns) (hRow : row < rows) :
    row * columns + column < columns * rows := by
  have hNext : (row + 1) * columns ≤ rows * columns := Nat.mul_le_mul_right columns hRow
  rw [Nat.succ_mul] at hNext
  rw [Nat.mul_comm columns rows]
  omega

/-- Cells are counted row by row. -/
theorem spriteCell_eq (hColumn : column < columns) (hRow : row < rows) :
    (spriteCell (row * columns + column) columns rows : Rect α) =
      sheetPart columns rows column row := by
  have hPos : 0 < columns := by omega
  have hColumns : max columns 1 = columns := max_eq_left hPos
  have hRows : max rows 1 = rows := max_eq_left (by omega)
  have hAcross : (row * columns + column) % columns = column := by
    rw [Nat.mul_add_mod_self_right, Nat.mod_eq_of_lt hColumn]
  have hDown : (row * columns + column) / columns = row := by
    rw [Nat.mul_comm, Nat.mul_add_div hPos, Nat.div_eq_of_lt hColumn, Nat.add_zero]
  simp only [spriteCell, sheetPart, hColumns, hRows, Nat.mod_eq_of_lt (cell_lt hColumn hRow), hAcross,
    hDown]

/-- Every picture is shown at one of the ticks of a cycle's length, wherever they begin. -/
theorem exists_indexAtTick_eq {count i : Nat} (hi : i < count) (delay : Nat) (start : Int) :
    ∃ k < count + delay, indexAtTick (start + k) delay count = i := by
  have hMem : i ∈ window delay count start :=
    (window_perm (by omega) start).mem_iff.2 (List.mem_append_right _ (List.mem_range.2 hi))
  obtain ⟨k, hk, hIndex⟩ := List.mem_map.1 hMem
  exact ⟨k, List.mem_range.1 hk, hIndex⟩

end Animation

namespace Container

variable {columns rows : Nat}

/-- The ticks that an animation holds its first picture for. -/
def delay (container : Container) : Int :=
  container.attributes.intOr Attribute.delayName 0

/-- A delay that was read fits in a signed word. -/
theorem delay_lt_of_resolve {α : Type} [Scalar α] {kind : TagKind} {env : LayoutEnv α} {body : Text}
    {container : Container} (h : (resolve kind env body).value = .ok container) :
    container.delay < 0x80000000 := by
  obtain ⟨name, attributes, hFits, rfl⟩ := eq_ofAttributes_of_resolve h
  exact intOr_lt hFits (by decide)

theorem grid?_pos {attributes : Attributes} (h : grid? attributes = some (columns, rows)) :
    0 < columns * rows := by
  unfold grid? at h
  split at h
  · split at h
    · rename_i hPos
      obtain ⟨rfl, rfl⟩ := Prod.mk.inj (Option.some.inj h)
      exact Nat.mul_pos (Int.lt_toNat.2 hPos.1) (Int.lt_toNat.2 hPos.2)
    · cases h
  · cases h

end Container

namespace Renderer

variable {α : Type} [Scalar α] {r : Renderer α} {body : Text} {container : Container} {texture : Texture}
  {columns rows : Nat}

/-- Drawing the tag succeeds, and draws this part of the texture and nothing else. -/
def DrawsPart (r : Renderer α) (body : Text) (texture : Texture) (part : Rect α) : Prop :=
  ∃ r' rect, r.placeTag? .gif body = some r' ∧
    r'.canvas.ops = r.canvas.ops ++ [.texture rect texture.name part]

/-- The rate of an animation, in ticks for each second. -/
def fps (r : Renderer α) (container : Container) : Int :=
  container.attributes.intOr Attribute.fpsName r.settings.defaultGifFps.toInt32.toInt

section Sheet

variable (hBody : (Container.resolve .gif r.env body).value = .ok container)
  (hGrid : Container.grid? container.attributes = some (columns, rows))
  (hFrames : r.images.animations.get? container.name = some ⟨[texture]⟩)
include hGrid hFrames

/-- The cell that is drawn depends on the number of cells as it is counted. -/
theorem placeAnimation?_sheet :
    r.placeAnimation? container =
      (cellCount? columns rows).map fun count =>
        (r.placeTexture texture (Scalar.ofNat container.pixelHeight)
          (Animation.spriteCell
            ((Animation.frameIndex? r.elapsed.toDouble (r.fps container) container.delay count).getD 0)
            columns rows)).1 := by
  have hSheet : sheet? container ⟨[texture]⟩ = some (columns, rows) := hGrid
  unfold placeAnimation? placeFrames?
  rw [hFrames]
  dsimp only
  rw [hSheet]
  rfl

include hBody

/-- The tag of a sheet draws a cell, and fails just when the cells cannot be counted. -/
theorem placeTag?_sheet :
    r.placeTag? .gif body =
      (cellCount? columns rows).map fun count =>
        ((r.note (Container.resolveOrReserve .gif r.env body)).1.placeTexture texture
          (Scalar.ofNat container.pixelHeight)
          (Animation.spriteCell
            ((Animation.frameIndex? r.elapsed.toDouble (r.fps container) container.delay count).getD 0)
            columns rows)).1 := by
  have hNoted := Container.resolveOrReserve_of_resolve hBody
  have hPlace : r.placeTag? .gif body =
      (r.note (Container.resolveOrReserve .gif r.env body)).1.placeAnimation? container := by
    simp only [placeTag?, note, hNoted]
  exact hPlace.trans (placeAnimation?_sheet hGrid hFrames)

/-- A sheet with more cells than can be counted is not drawn. -/
theorem placeTag?_sheet_of_ge (hMany : UInt32.size ≤ columns * rows) : r.placeTag? .gif body = none := by
  have hNone : cellCount? columns rows = none := if_neg (Nat.not_lt_of_le hMany)
  rw [placeTag?_sheet hBody hGrid hFrames, hNone, Option.map_none]

/-- While the word holds the number of cells, the count is the true one and the cell is that of the tick. -/
theorem drawsPart_sheet_of_fits (hFits : columns * rows < 2 ^ 32) :
    r.DrawsPart body texture
      (Animation.spriteCell
        (Animation.indexAtTick (Animation.tick r.elapsed.toDouble (r.fps container))
          container.delay.toNat (columns * rows)) columns rows) := by
  have hCount : cellCount? columns rows = some (columns * rows) :=
    inWord?_eq_some_iff.2 ⟨rfl, hFits⟩
  have hPlace := placeTag?_sheet hBody hGrid hFrames
  rw [hCount, Option.map_some, Animation.frameIndex?, if_neg (Container.grid?_pos hGrid).ne'] at hPlace
  exact ⟨_, _, hPlace, rfl⟩

/-- As long as a 32-bit word holds the number of cells, no count leaves its word, that of a cycle's ticks
included. Then at every time the cell is drawn that an animation of so many pictures shows, there is such a
cell, and in a cycle, wherever its ticks begin, the part in every column and every row is drawn. -/
theorem sheet_plays_every_cell (hFits : columns * rows < 2 ^ 32) :
    cellCount? columns rows = some (columns * rows) ∧ columns * rows + container.delay.toNat < 2 ^ 63 ∧
      (∀ elapsed : Elapsed, ∃ cell,
        Animation.frameIndex? elapsed.toDouble (r.fps container) container.delay (columns * rows) =
            some cell ∧
          cell < columns * rows ∧
          { r with elapsed }.DrawsPart body texture (Animation.spriteCell cell columns rows)) ∧
      ∀ (start : Int) (column row : Nat), column < columns → row < rows →
        ∃ k < columns * rows + container.delay.toNat, ∀ elapsed : Elapsed,
          Animation.tick elapsed.toDouble (r.fps container) = start + k →
            { r with elapsed }.DrawsPart body texture
              (Animation.sheetPart columns rows column row) := by
  have hPos : 0 < columns * rows := Container.grid?_pos hGrid
  have hDrawn (elapsed : Elapsed) :
      { r with elapsed }.DrawsPart body texture
        (Animation.spriteCell
          (Animation.indexAtTick (Animation.tick elapsed.toDouble (r.fps container))
            container.delay.toNat (columns * rows)) columns rows) :=
    @drawsPart_sheet_of_fits α _ { r with elapsed } body container texture columns rows hBody hGrid
      hFrames hFits
  have hDelay := Container.delay_lt_of_resolve hBody
  refine ⟨inWord?_eq_some_iff.2 ⟨rfl, hFits⟩, by omega, fun elapsed => ?_,
    fun start column row hColumn hRow => ?_⟩
  · exact ⟨_, if_neg hPos.ne', Animation.indexAtTick_lt hPos _, hDrawn elapsed⟩
  · obtain ⟨k, hk, hIndex⟩ :=
      Animation.exists_indexAtTick_eq (Animation.cell_lt hColumn hRow) container.delay.toNat start
    refine ⟨k, hk, fun elapsed hTick => ?_⟩
    have hPart := hDrawn elapsed
    rw [hTick, hIndex, Animation.spriteCell_eq hColumn hRow] at hPart
    exact hPart

end Sheet

/-- A column with one picture that can be shown as a sheet. -/
def exhibition : Renderer ℚ :=
  { settings := { columnWidth := 40 }
    images := { animations := .ofList [("s".toList, ⟨[⟨"sheet".toList, ⟨64, 64⟩⟩]⟩)] }
    origin := ⟨0, 0⟩
    columnWidth := 40
    cursor := 0
    canvas := { measurer := .standard } }

/-- A tag that shows the texture as a sheet of so many columns and rows, each cell for a second. -/
def exhibit (columns rows : Nat) : Container where
  name := "s".toList
  width := 40
  height := 8
  attributes :=
    (({} : Attributes).insert Attribute.sizeName (.dimensions columns rows)
      |>.insert Attribute.fpsName (.int 1)).insert Attribute.heightName (.int 8)

/-- A sheet of four columns and two rows: the part in the third column of the second row is drawn at one
of the eight ticks after the first. -/
theorem sheet_plays_every_cell_of_eight :
    let body := " SIZE=(4,2) FPS=1 HEIGHT=8>s".toList
    let texture : Texture := ⟨"sheet".toList, ⟨64, 64⟩⟩
    (Container.resolve .gif exhibition.env body).value = .ok (exhibit 4 2) ∧
      ∃ k < 8, ∀ elapsed : Elapsed, Animation.tick elapsed.toDouble 1 = 1 + (k : Nat) →
        { exhibition with elapsed }.DrawsPart body texture (Animation.sheetPart 4 2 2 1) := by
  intro body texture
  have hBody : (Container.resolve .gif exhibition.env body).value = .ok (exhibit 4 2) := by
    decide +kernel
  have hGrid : Container.grid? (exhibit 4 2).attributes = some (4, 2) := by decide +kernel
  have hFrames : exhibition.images.animations.get? (exhibit 4 2).name = some ⟨[texture]⟩ := by
    decide +kernel
  obtain ⟨_, _, _, hPlayed⟩ := sheet_plays_every_cell hBody hGrid hFrames (by decide)
  exact ⟨hBody, hPlayed 1 2 1 (by decide) (by decide)⟩

/-- With 65536 columns and as many rows the 32-bit word does not hold the number of cells. An animation of
so many pictures shows its second one a second after the start, but neither the second cell is drawn then
nor anything at any other time. -/
theorem sheet_never_drawn :
    let body := " SIZE=(65536,65536) FPS=1 HEIGHT=8>s".toList
    let container := exhibit 65536 65536
    let texture : Texture := ⟨"sheet".toList, ⟨64, 64⟩⟩
    let second := Elapsed.ofMilliseconds 1000
    (Container.resolve .gif exhibition.env body).value = .ok container ∧
      Container.grid? container.attributes = some (65536, 65536) ∧
      exhibition.images.animations.get? container.name = some ⟨[texture]⟩ ∧
      Animation.frameIndex? second.toDouble (exhibition.fps container) container.delay (65536 * 65536) =
        some 1 ∧
      (∀ elapsed : Elapsed, ({ exhibition with elapsed }.placeTag? .gif body).isNone = true) ∧
      ¬ { exhibition with elapsed := second }.DrawsPart body texture
        (Animation.spriteCell 1 65536 65536) := by
  intro body container texture second
  have hBody : (Container.resolve .gif exhibition.env body).value = .ok container := by decide +kernel
  have hGrid : Container.grid? container.attributes = some (65536, 65536) := by decide +kernel
  have hFrames : exhibition.images.animations.get? container.name = some ⟨[texture]⟩ := by
    decide +kernel
  have hNone (elapsed : Elapsed) : { exhibition with elapsed }.placeTag? .gif body = none :=
    @placeTag?_sheet_of_ge ℚ _ { exhibition with elapsed } body container texture 65536 65536 hBody
      hGrid hFrames (by decide)
  refine ⟨hBody, hGrid, hFrames, by decide +kernel, fun elapsed => Option.isNone_iff_eq_none.2 (hNone elapsed),
    ?_⟩
  rintro ⟨r', rect, hPlace, -⟩
  exact absurd ((hNone second).symm.trans hPlace) nofun

end Renderer

end Changelog
