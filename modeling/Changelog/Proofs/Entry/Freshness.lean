import Changelog.Entry.Open
import Changelog.Proofs.Download.Availability
import Changelog.Proofs.Exact
import Changelog.Proofs.Layout.Rows

/-! A layout that is used again is never out of date. An entry keeps the layout computed last and uses it
again if the column is as wide and the counter stands where it stood then. The counter can do this service
because it never goes back while the images are the same ones, and no size becomes known without it; once
the images are given up, so is the layout. -/

namespace Changelog

/-- Numbers that count as the same are equal, values that are not a number included. -/
class SeparatedScalar (α : Type) [Scalar α] : Prop where
  eq_of_same {a b : α} : Scalar.same a b = true → a = b

instance : SeparatedScalar ℚ where
  eq_of_same := eq_of_beq

instance : SeparatedScalar Float32 where
  eq_of_same {a b} h := by
    have hBits : a.toBits = b.toBits := eq_of_beq h
    -- the bits are all that there is to such a number
    obtain ⟨⟨_⟩⟩ := a
    obtain ⟨⟨_⟩⟩ := b
    congr

namespace Entry

variable {α : Type} [Scalar α]

/-- What is asked of an entry, and what its workers do meanwhile. A download that ends is counted in
the same step. -/
inductive Event (α : Type) where
  | layout
  | totalHeight
  | render (canvas : Canvas α) (origin : Point α) (viewport : Option Viewport) (elapsed : Elapsed)
  | setColumnWidth (width : α)
  | wait
  | close
  | move (worker : Nat) (move : Worker.Move)

/-- What an event leaves; nothing if there is no layout or no drawing, or as long as it has to wait for the
awaited worker. Texts are measured by `measurer` throughout, also on a canvas. -/
def act? (measurer : Measurer α) (e : Entry α) : Event α → Option (Entry α)
  | .layout => (e.computeLayout? measurer).map (·.value.1)
  | .totalHeight => (e.totalHeight? measurer).map (·.value.1)
  | .render canvas origin viewport elapsed =>
    (e.render? { canvas with measurer } origin viewport elapsed).map Rendered.entry
  | .setColumnWidth width => some (e.setColumnWidth width)
  | .wait =>
    if e.images.downloads.isRunning then none
    else some { e with images := e.images.onDownloads Batches.reap }
  | .close => some e.close.1
  | .move i m => some { e with images := e.images.onDownloads fun b => b.onWorker i m.actCounted }

def run? (measurer : Measurer α) (e : Entry α) (events : List (Event α)) : Option (Entry α) :=
  events.foldlM (act? measurer) e

/-- The layout that is kept was computed with the measurer from images that the counter tells from the
present ones, and for the width that it records. -/
def KeepsLayout (measurer : Measurer α) (e : Entry α) : Prop :=
  ∀ layout, e.layout = some layout →
    ∃ images, ImageCache.TimedBy ImageCache.generation images e.images ∧
      (DocumentLayout.compute?
        (.standard { e.settings with columnWidth := layout.params.columnWidth } images measurer)
        e.segments).map (·.value) = some layout

variable {measurer : Measurer α} {e e' : Entry α}

namespace KeepsLayout

/-- Images may come forward, as long as the counter tells the later ones from the earlier. -/
theorem of_images (h : e.KeepsLayout measurer) {images : ImageCache}
    (hImages : ImageCache.TimedBy ImageCache.generation e.images images) :
    KeepsLayout measurer { e with images } := by
  intro layout hLayout
  obtain ⟨old, hTimed, hComputed⟩ := h layout hLayout
  exact ⟨old, hTimed.trans hImages, hComputed⟩

/-- A layout that is computed is one from the present images; one that is used again stays what it was. -/
theorem computeLayout? (h : e.KeepsLayout measurer) {laidOut : Noted (Entry α × DocumentLayout α)}
    (hLayout : e.computeLayout? measurer = some laidOut) : laidOut.value.1.KeepsLayout measurer := by
  unfold Entry.computeLayout? at hLayout
  cases hCurrent : e.currentLayout? with
  | some layout =>
      rw [hCurrent] at hLayout
      obtain rfl := Option.some.inj hLayout
      exact h
  | none =>
      rw [hCurrent] at hLayout
      obtain ⟨computed, hCompute, rfl⟩ := Option.map_eq_some_iff.1 hLayout
      have hWidth : computed.value.params.columnWidth = e.settings.columnWidth := by
        rw [(DocumentLayout.computed_of_compute? hCompute).params_eq]
        rfl
      intro layout hKept
      obtain rfl : computed.value = layout := Option.some.inj hKept
      refine ⟨e.images, .refl _ _, ?_⟩
      rw [hWidth]
      exact Option.map_eq_some_iff.2 ⟨computed, hCompute, rfl⟩

/-- To ask for the height is to lay out. -/
theorem totalHeight? (h : e.KeepsLayout measurer) {laidOut : Noted (Entry α × Nat)}
    (hTotal : e.totalHeight? measurer = some laidOut) : laidOut.value.1.KeepsLayout measurer := by
  obtain ⟨_, hLayout, hTotal⟩ := Option.bind_eq_some_iff.1 hTotal
  obtain ⟨_, _, hTotal⟩ := Option.bind_eq_some_iff.1 hTotal
  obtain rfl := Option.some.inj hTotal
  exact h.computeLayout? hLayout

theorem render? (h : e.KeepsLayout measurer) {canvas : Canvas α} {origin : Point α}
    {viewport : Option Viewport} {elapsed : Elapsed} {rendered : Rendered α}
    (hRender : e.render? { canvas with measurer } origin viewport elapsed = some rendered) :
    rendered.entry.KeepsLayout measurer := by
  unfold Entry.render? at hRender
  split at hRender
  · obtain ⟨_, hLayout, hRender⟩ := Option.bind_eq_some_iff.1 hRender
    obtain ⟨_, _, hRendered⟩ := Option.bind_eq_some_iff.1 hRender
    obtain rfl := Option.some.inj hRendered
    exact h.computeLayout? hLayout
  · obtain rfl := Option.some.inj hRender
    exact h

/-- Every event keeps this. Closing gives up the images and the layout with them; a change of width does not
touch the layout, which records its own. -/
theorem act? (h : e.KeepsLayout measurer) {event : Event α}
    (hAct : e.act? measurer event = some e') : e'.KeepsLayout measurer := by
  cases event with
  | layout =>
      obtain ⟨_, hLayout, rfl⟩ := Option.map_eq_some_iff.1 hAct
      exact h.computeLayout? hLayout
  | totalHeight =>
      obtain ⟨_, hTotal, rfl⟩ := Option.map_eq_some_iff.1 hAct
      exact h.totalHeight? hTotal
  | render canvas origin viewport elapsed =>
      obtain ⟨rendered, hRender, rfl⟩ := Option.map_eq_some_iff.1 hAct
      exact h.render? hRender
  | setColumnWidth width =>
      obtain rfl := Option.some.inj hAct
      exact h
  | wait =>
      have hSizes : e.images.SameSizes (e.images.onDownloads Batches.reap) :=
        .onDownloads fun _ => rfl
      dsimp only [Entry.act?] at hAct
      split at hAct
      · cases hAct
      · obtain rfl := Option.some.inj hAct
        exact h.of_images ⟨rfl, Nat.le_refl _, fun _ => hSizes⟩
  | close =>
      obtain rfl := Option.some.inj hAct
      intro layout hLayout
      cases hLayout
  | move i m =>
      obtain rfl := Option.some.inj hAct
      exact h.of_images (e.images.timedBy_generation_moveCounted i m)

theorem run? (h : e.KeepsLayout measurer) {events : List (Event α)}
    (hRun : e.run? measurer events = some e') : e'.KeepsLayout measurer := by
  induction events generalizing e with
  | nil =>
      obtain rfl := Option.some.inj hRun
      exact h
  | cons event rest ih =>
      obtain ⟨next, hAct, hRest⟩ := Option.bind_eq_some_iff.1 hRun
      exact ih (h.act? hAct) hRest

/-- A layout that is used again is the one that would be computed now. -/
theorem compute?_of_currentLayout? [SeparatedScalar α] (h : e.KeepsLayout measurer)
    {layout : DocumentLayout α} (hCurrent : e.currentLayout? = some layout) :
    (DocumentLayout.compute? (e.env measurer) e.segments).map (·.value) = some layout := by
  obtain ⟨hLayout, hParams⟩ := Option.filter_eq_some_iff.1 hCurrent
  obtain ⟨hWidth, hGeneration⟩ := Bool.and_eq_true_iff.1 hParams
  obtain ⟨old, hTimed, hComputed⟩ := h layout hLayout
  rw [SeparatedScalar.eq_of_same hWidth] at hComputed
  have hOld : e.images.generation = old.generation := by
    have hRecorded : layout.params.generation = e.images.generation := eq_of_beq hGeneration
    obtain ⟨_, hCompute, rfl⟩ := Option.map_eq_some_iff.1 hComputed
    rw [← hRecorded, (DocumentLayout.computed_of_compute? hCompute).params_eq]
    rfl
  rw [← hComputed]
  exact congrArg _ (@DocumentLayout.compute?_congr _ _ (.standard e.settings old measurer) e.images
    (hTimed.sizes hOld) hOld e.segments)

end KeepsLayout

/-- Whatever has been asked of an entry since it was opened, and whatever has been downloaded meanwhile,
its layout is the one that would be computed now: the same heights, style, space at the end and
parameters. There is none if and only if there would be none now. -/
theorem layout_never_stale [SeparatedScalar α] (record : EntryRecord) (settings : Settings α)
    (images : ImageCache) (events : List (Event α))
    (hRun : (ofImages record settings images).run? measurer events = some e) :
    (e.computeLayout? measurer).map (·.value.2) =
      (DocumentLayout.compute? (e.env measurer) e.segments).map (·.value) := by
  have hKeeps : e.KeepsLayout measurer :=
    KeepsLayout.run? (e := ofImages record settings images) (fun layout hLayout => by cases hLayout) hRun
  unfold computeLayout?
  cases hCurrent : e.currentLayout? with
  | some layout => exact (hKeeps.compute?_of_currentLayout? hCurrent).symm
  | none =>
      rw [Option.map_map]
      rfl

/-- An entry with a text and an image, which is still to be downloaded. -/
def illustrated : Entry ℚ :=
  ofImages { description := "see[img]a[/img]".toList } { columnWidth := 400 }
    (({} : ImageCache).onDownloads (Batches.spawn [⟨"a".toList, "http://x.test/a.png".toList⟩]))

/-- The column gets back its first width after a flat image has been downloaded. -/
theorem layout_of_width_before_download :
    let measurer := Measurer.monospace 10 20
    let events := [.move 0 (.turn none), .layout, .setColumnWidth 200, .totalHeight,
      .move 0 (.turn (some (.image ⟨40, 10⟩))), .wait, .setColumnWidth 400]
    ∃ e, illustrated.run? measurer events = some e ∧
      e.layout.map (·.heights.heights) = some #[20, 200, 20] ∧
      (e.computeLayout? measurer).map (·.value.2.heights.heights) = some #[20, 100, 20] ∧
      (e.computeLayout? measurer).map (·.value.2) =
        (DocumentLayout.compute? (e.env measurer) e.segments).map (·.value) := by
  intro measurer events
  have hRun : (illustrated.run? measurer events).map (fun e =>
      (e.layout.map (·.heights.heights),
        (e.computeLayout? measurer).map (·.value.2.heights.heights))) =
        some (some #[20, 200, 20], some #[20, 100, 20]) := by
    decide +kernel
  obtain ⟨e, hRun, hHeights⟩ := Option.map_eq_some_iff.1 hRun
  obtain ⟨hKept, hNow⟩ := Prod.ext_iff.1 hHeights
  exact ⟨e, hRun, hKept, hNow, layout_never_stale _ _ _ events hRun⟩

end Entry

end Changelog
