import Changelog.Proofs.Entry.Freshness

/-! Layouts that are computed while downloads go on. Segments are measured one after the other, and the
counter is read after the last one. A download may end between two segments, after some of them have been
measured without its size. If it is also counted before the counter is read, the layout records a count
that stands for a size it was not computed with, and it is used again although it is out of date. -/

namespace Changelog

/-- A layout that is being computed: the segments still to be measured, and what the others gave. -/
structure LayoutPass where
  images : ImageCache
  rest : List Segment
  heights : HeightIndex
  scope : TextScope

namespace LayoutPass

/-- The next segment is measured, or a worker makes a move. -/
inductive Event where
  | measure
  | move (worker : Nat) (move : Worker.Move)
deriving DecidableEq, Repr

/-- A pass of which nothing is measured yet. -/
def start (images : ImageCache) (segments : List Segment) : LayoutPass :=
  { images, rest := segments, heights := .withCapacity segments.length, scope := {} }

variable {α : Type} [Scalar α] (settings : Settings α) (measurer : Measurer α)

/-- What an event leaves of a pass; nothing if the height of a title overflows. -/
def act? (p : LayoutPass) : Event → Option LayoutPass
  | .measure =>
    match p.rest with
    | [] => some p
    | segment :: rest =>
      ((LayoutEnv.standard settings p.images measurer).segmentHeight? p.scope segment).map fun measured =>
        { p with
          rest
          heights := p.heights.push measured.value.1.toNat
          scope := measured.value.2 }
  | .move i m => some { p with images := p.images.onDownloads fun b => b.onWorker i m.act }

def run? (p : LayoutPass) (events : List Event) : Option LayoutPass :=
  events.foldlM (act? settings measurer) p

/-- The layout that a pass comes to. The counter is read now. -/
def layout (p : LayoutPass) : DocumentLayout α :=
  { heights := p.heights
    bottomPadding := DocumentLayout.padding (.standard settings p.images measurer) p.scope
    scope := p.scope
    params := { columnWidth := settings.columnWidth, generation := p.images.generation } }

/-- A pass that is not interrupted measures as `DocumentLayout.measure?` does. -/
theorem run?_measuring (p : LayoutPass) :
    p.run? settings measurer (List.replicate p.rest.length .measure) =
      (DocumentLayout.measure? (.standard settings p.images measurer) p.scope p.heights p.rest).map
        fun measured => { p with rest := [], heights := measured.value.1, scope := measured.value.2 } := by
  obtain ⟨images, rest, heights, scope⟩ := p
  induction rest generalizing heights scope with
  | nil => rfl
  | cons segment rest ih =>
      rw [List.length_cons, List.replicate_succ, run?, List.foldlM_cons]
      rw [DocumentLayout.measure?_cons]
      dsimp only [act?]
      cases (LayoutEnv.standard settings images measurer).segmentHeight? scope segment with
      | none => rfl
      | some first =>
          refine (ih _ _).trans ?_
          rw [Option.bind_some, Option.map_map]
          rfl

/-- The images of which a size is asked for when the next segment is measured. -/
def asks? (p : LayoutPass) : Option ImageCache :=
  if (p.rest.head?.bind Segment.tag?) = some .image then some p.images else none

/-- The images as they were whenever a size was asked for. -/
def asked (p : LayoutPass) : List Event → List ImageCache
  | [] => []
  | event :: rest =>
    (if event = .measure then p.asks?.toList else []) ++
      (p.act? settings measurer event).elim [] fun next => next.asked rest

variable {settings measurer} {images : ImageCache} {p p' : LayoutPass}

/-- Measuring leaves the images as they are, so an event only brings them forward. -/
theorem timedBy_act? {event : Event} (h : p.act? settings measurer event = some p') :
    ImageCache.TimedBy ImageCache.available p.images p'.images := by
  cases event with
  | measure =>
      obtain ⟨images, rest, heights, scope⟩ := p
      cases rest with
      | nil =>
          obtain rfl := Option.some.inj h
          exact .refl _ images
      | cons segment rest =>
          obtain ⟨_, _, rfl⟩ := Option.map_eq_some_iff.1 h
          exact .refl _ images
  | move i m =>
      obtain rfl := Option.some.inj h
      exact p.images.timedBy_available_move i m

/-- What is measured and what is still to be measured give together what `images` would give, as long as
every size asked for is the one that is known there. -/
theorem measure?_act? {event : Event} (h : p.act? settings measurer event = some p')
    (hAnimations : p.images.animations = images.animations)
    (hAsked : event = .measure → ∀ now ∈ p.asks?, now.SameSizes images) :
    (DocumentLayout.measure? (.standard settings images measurer) p'.scope p'.heights p'.rest).map
        (·.value) =
      (DocumentLayout.measure? (.standard settings images measurer) p.scope p.heights p.rest).map
        (·.value) := by
  cases event with
  | move i m =>
      obtain rfl := Option.some.inj h
      rfl
  | measure =>
      obtain ⟨now, rest, heights, scope⟩ := p
      cases rest with
      | nil =>
          obtain rfl := Option.some.inj h
          rfl
      | cons segment rest =>
          have hNatural (hTag : segment.tag? = some .image) (name : Text) :
              now.naturalSize? name = images.naturalSize? name :=
            ((hAsked rfl now (if_pos hTag)).naturalSize? name).symm
          have hHeight : (LayoutEnv.standard settings now measurer).segmentHeight? scope segment =
              (LayoutEnv.standard settings images measurer).segmentHeight? scope segment :=
            @LayoutEnv.segmentHeight?_congr _ _ (.standard settings images measurer) now scope segment
              hAnimations hNatural
          obtain ⟨first, hFirst, rfl⟩ := Option.map_eq_some_iff.1 h
          rw [DocumentLayout.measure?_cons, ← hHeight, hFirst, Option.bind_some, Option.map_map]
          rfl

/-- What is still to be measured is what was to be measured, but for segments whose titles fit. -/
theorem mem_rest_or_titleFits {event : Event} (h : p.act? settings measurer event = some p')
    {segment : Segment} (hMem : segment ∈ p.rest) :
    segment ∈ p'.rest ∨ (LayoutEnv.standard settings images measurer).TitleFits segment := by
  cases event with
  | move i m =>
      obtain rfl := Option.some.inj h
      exact .inl hMem
  | measure =>
      obtain ⟨now, rest, heights, scope⟩ := p
      cases rest with
      | nil => cases hMem
      | cons first rest =>
          obtain ⟨measured, hFirst, rfl⟩ := Option.map_eq_some_iff.1 h
          rcases List.mem_cons.1 hMem with rfl | hRest
          · have hFits := LayoutEnv.isSome_segmentHeight?_iff.1 (Option.isSome_of_eq_some hFirst)
            exact .inr hFits
          · exact .inl hRest

/-- A whole pass only brings the images forward too. -/
theorem timedBy_run? {events : List Event} (h : p.run? settings measurer events = some p') :
    ImageCache.TimedBy ImageCache.available p.images p'.images := by
  induction events generalizing p with
  | nil =>
      obtain rfl := Option.some.inj h
      exact .refl _ p.images
  | cons event rest ih =>
      obtain ⟨next, hAct, hRest⟩ := Option.bind_eq_some_iff.1 h
      exact (timedBy_act? hAct).trans (ih hRest)

/-- What has become known since a size was asked for. -/
theorem timedBy_of_asked {events : List Event} (h : p.run? settings measurer events = some p')
    {now : ImageCache} (hMem : now ∈ p.asked settings measurer events) :
    ImageCache.TimedBy ImageCache.available now p'.images := by
  induction events generalizing p with
  | nil => cases hMem
  | cons event rest ih =>
      obtain ⟨next, hAct, hRest⟩ := Option.bind_eq_some_iff.1 h
      rw [asked, hAct] at hMem
      rcases List.mem_append.1 hMem with hNow | hLater
      · obtain rfl : p.images = now := by
          split at hNow
          · unfold asks? at hNow
            split at hNow
            · exact (List.mem_singleton.1 hNow).symm
            · cases hNow
          · cases hNow
        exact timedBy_run? h
      · exact ih hRest hLater

/-- The same for any number of events. -/
theorem measure?_run? {events : List Event} (h : p.run? settings measurer events = some p')
    (hAnimations : p.images.animations = images.animations)
    (hAsked : ∀ now ∈ p.asked settings measurer events, now.SameSizes images) :
    (DocumentLayout.measure? (.standard settings images measurer) p'.scope p'.heights p'.rest).map
        (·.value) =
      (DocumentLayout.measure? (.standard settings images measurer) p.scope p.heights p.rest).map
        (·.value) := by
  induction events generalizing p with
  | nil =>
      obtain rfl := Option.some.inj h
      rfl
  | cons event rest ih =>
      obtain ⟨next, hAct, hRest⟩ := Option.bind_eq_some_iff.1 h
      rw [asked, hAct] at hAsked
      obtain ⟨hNow, hLater⟩ := List.forall_mem_append.1 hAsked
      refine (ih hRest ((timedBy_act? hAct).animations.trans hAnimations) hLater).trans ?_
      refine measure?_act? hAct hAnimations fun hMeasure now hMem => hNow now ?_
      rw [if_pos hMeasure]
      exact Option.mem_toList.2 hMem

variable (images) in
/-- A pass that has measured all segments has found that the titles among them fit. -/
theorem titleFits_of_run? {events : List Event} (h : p.run? settings measurer events = some p')
    (hRest : p'.rest = []) :
    ∀ segment ∈ p.rest, (LayoutEnv.standard settings images measurer).TitleFits segment := by
  induction events generalizing p with
  | nil =>
      obtain rfl := Option.some.inj h
      rw [hRest]
      exact fun _ => nofun
  | cons event rest ih =>
      obtain ⟨next, hAct, hOthers⟩ := Option.bind_eq_some_iff.1 h
      exact fun segment hMem =>
        (mem_rest_or_titleFits hAct hMem).elim (ih hOthers segment) id

/-- If every size that a pass asks for is the one known to `images`, and the counter stands as there, the
pass comes to the layout of `images`. -/
theorem layout_run? {first : ImageCache} {segments : List Segment} {events : List Event}
    {pass : LayoutPass} (h : (start first segments).run? settings measurer events = some pass)
    (hRest : pass.rest = []) (hAnimations : first.animations = images.animations)
    (hAsked : ∀ now ∈ (start first segments).asked settings measurer events, now.SameSizes images)
    (hGeneration : pass.images.generation = images.generation) :
    (DocumentLayout.compute? (.standard settings images measurer) segments).map (·.value) =
      some (pass.layout settings measurer) := by
  have hMeasured := measure?_run? h hAnimations hAsked
  rw [hRest] at hMeasured
  obtain ⟨measured, hMeasure, hValue⟩ := Option.map_eq_some_iff.1 hMeasured.symm
  have hMeasure : DocumentLayout.measure? (.standard settings images measurer) {}
      (.withCapacity segments.length) segments = some measured := hMeasure
  rw [DocumentLayout.compute?, hMeasure, layout, hGeneration]
  obtain ⟨hHeights, hScope⟩ := Prod.ext_iff.1 hValue
  have hHeights : measured.value.1 = pass.heights := hHeights
  have hScope : measured.value.2 = pass.scope := hScope
  rw [← hHeights, ← hScope]
  rfl

end LayoutPass

/-- The images after some moves of their workers. -/
def ImageCache.moved (c : ImageCache) (moves : List (Nat × Worker.Move)) : ImageCache :=
  moves.foldl (fun c move => c.onDownloads fun b => b.onWorker move.1 move.2.act) c

/-- Moves of workers bring the images forward, if ended downloads are what counts. -/
theorem ImageCache.timedBy_available_moved (c : ImageCache) (moves : List (Nat × Worker.Move)) :
    TimedBy available c (c.moved moves) := by
  induction moves generalizing c with
  | nil => exact .refl _ c
  | cons move rest ih => exact (c.timedBy_available_move move.1 move.2).trans (ih _)

namespace Entry

variable {α : Type} [Scalar α] (measurer : Measurer α)

/-- Computes the layout anew while `events` happen. There is nothing unless all segments are measured
in the end. -/
def layOut? (e : Entry α) (events : List LayoutPass.Event) : Option (Entry α) :=
  ((LayoutPass.start e.images e.segments).run? e.settings measurer events).bind fun pass =>
    if pass.rest.isEmpty then
      some { e with images := pass.images, layout := some (pass.layout e.settings measurer) }
    else none

/-- If nothing happens but measuring, this is what `computeLayout?` does. -/
theorem layOut?_measuring {e : Entry α} (hCurrent : e.currentLayout? = none) :
    e.layOut? measurer (List.replicate e.segments.length .measure) =
      (e.computeLayout? measurer).map (·.value.1) := by
  have hRun : (LayoutPass.start e.images e.segments).run? e.settings measurer
      (List.replicate e.segments.length .measure) = _ :=
    (LayoutPass.start e.images e.segments).run?_measuring e.settings measurer
  rw [layOut?, hRun, computeLayout?, hCurrent]
  dsimp only [LayoutPass.start, DocumentLayout.compute?, env]
  cases DocumentLayout.measure? (.standard e.settings e.images measurer) {}
      (.withCapacity e.segments.length) e.segments with
  | none => rfl
  | some measured => rfl

variable {measurer} {e e' : Entry α}

/-- An interrupted layout is that of a pass which has measured every segment. -/
theorem eq_of_layOut? {events : List LayoutPass.Event} (h : e.layOut? measurer events = some e') :
    ∃ pass, (LayoutPass.start e.images e.segments).run? e.settings measurer events = some pass ∧
      pass.rest = [] ∧
      e' = { e with images := pass.images, layout := some (pass.layout e.settings measurer) } := by
  obtain ⟨pass, hRun, h⟩ := Option.bind_eq_some_iff.1 h
  split at h
  · rename_i hRest
    exact ⟨pass, hRun, List.isEmpty_iff.1 hRest, (Option.some.inj h).symm⟩
  · cases h

/-- Once all downloads have ended, there is a layout, and it is the one that would be computed now, also if
some of them have ended while it was computed. But no size that was asked for may be older than the count
that the layout has recorded, unless the counter has moved on since. -/
theorem layout_amid_downloads {events : List LayoutPass.Event} {moves : List (Nat × Worker.Move)}
    (hLayout : e.layOut? measurer events = some e')
    (hEnded : ∀ w ∈ (e'.images.moved moves).downloads.workers, w.worker.isFinished = true)
    (hAsked : (e'.images.moved moves).generation = e'.images.generation →
      ∀ images ∈ (LayoutPass.start e.images e.segments).asked e.settings measurer events,
        e'.images.generation ≤ images.available) :
    let last := { e' with images := e'.images.moved moves }
    ∃ laidOut computed, last.computeLayout? measurer = some laidOut ∧
      DocumentLayout.compute? (last.env measurer) last.segments = some computed ∧
      laidOut.value.2 = computed.value := by
  intro last
  obtain ⟨pass, hRun, hRest, rfl⟩ := eq_of_layOut? hLayout
  have hMoved := pass.images.timedBy_available_moved moves
  have hLast : last.images.available = last.images.generation :=
    Batches.available_eq_generation hEnded
  unfold computeLayout?
  cases hCurrent : last.currentLayout? with
  | none =>
      obtain ⟨computed, hCompute⟩ := Option.isSome_iff_exists.1 <|
        DocumentLayout.isSome_compute?_iff.2 <|
          LayoutPass.titleFits_of_run? last.images hRun hRest
      have hCompute : DocumentLayout.compute? (last.env measurer) last.segments = some computed :=
        hCompute
      rw [hCompute]
      exact ⟨_, computed, rfl, rfl, rfl⟩
  | some layout =>
      obtain ⟨hKept, hParams⟩ := Option.filter_eq_some_iff.1 hCurrent
      obtain rfl := Option.some.inj hKept
      have hGeneration : last.images.generation = pass.images.generation :=
        (eq_of_beq (Bool.and_eq_true_iff.1 hParams).2).symm
      have hAnimations := ((LayoutPass.timedBy_run? hRun).trans hMoved).animations
      have hSizes : ∀ now ∈ (LayoutPass.start e.images e.segments).asked e.settings measurer events,
          now.SameSizes last.images := by
        intro now hMem
        -- what has ended in the end had ended when the size was asked for
        have hTimed := (LayoutPass.timedBy_of_asked hRun hMem).trans hMoved
        have hRead : last.images.generation ≤ now.available :=
          hGeneration ▸ hAsked hGeneration now hMem
        exact hTimed.sizes (Nat.le_antisymm (hLast ▸ hRead) hTimed.clock_le)
      have hComputed :=
        LayoutPass.layout_run? hRun hRest hAnimations.symm hSizes hGeneration.symm
      obtain ⟨computed, hCompute, hValue⟩ := Option.map_eq_some_iff.1 hComputed
      exact ⟨_, computed, rfl, hCompute, hValue.symm⟩

/-- The entry with one image, while this is being downloaded. -/
def downloading : Entry ℚ :=
  { illustrated with images := illustrated.images.moved [(0, .turn none)] }

/-- The download ends after the text and before the image is measured, and is counted afterwards. -/
theorem layout_amid_one_download :
    let measurer := Measurer.monospace 10 20
    let events := [.measure, .move 0 (.turn (some (.image ⟨40, 10⟩))), .measure, .move 0 (.turn none),
      .measure]
    ∃ e' laidOut computed, downloading.layOut? measurer events = some e' ∧
      e'.currentLayout?.isSome = true ∧ e'.computeLayout? measurer = some laidOut ∧
      laidOut.value.2.heights.heights = #[20, 100, 20] ∧
      DocumentLayout.compute? (e'.env measurer) e'.segments = some computed ∧
      laidOut.value.2 = computed.value := by
  intro measurer events
  have hRun : (downloading.layOut? measurer events).map (fun e' =>
      (e'.currentLayout?.isSome, e'.images.generation, e'.images.downloads.workers.all
        (·.worker.isFinished), (e'.computeLayout? measurer).map (·.value.2.heights.heights))) =
        some (true, 1, true, some #[20, 100, 20]) := by
    decide +kernel
  obtain ⟨e', hLayout, hShown⟩ := Option.map_eq_some_iff.1 hRun
  simp only [Prod.mk.injEq, List.all_eq_true] at hShown
  obtain ⟨hCurrent, hGeneration, hEnded, hHeights⟩ := hShown
  have hAsked : ∀ images ∈ (LayoutPass.start downloading.images downloading.segments).asked
      downloading.settings measurer events, 1 ≤ images.available := by
    decide +kernel
  rw [← hGeneration] at hAsked
  obtain ⟨laidOut, computed, hLaidOut, hCompute, hEq⟩ :=
    @layout_amid_downloads _ _ measurer downloading e' events [] hLayout hEnded fun _ => hAsked
  have hLaidOut : e'.computeLayout? measurer = some laidOut := hLaidOut
  rw [hLaidOut] at hHeights
  exact ⟨e', laidOut, computed, hLayout, hCurrent, hLaidOut, Option.some.inj hHeights, hCompute, hEq⟩

/-- A download that ends after its image has been measured, and is counted before the counter is read, is
lost: the count that is recorded is newer than the size that was used, and the layout keeps the height of
an image of unknown size, although all downloads have ended. -/
theorem download_lost_amid_layout :
    let measurer := Measurer.monospace 10 20
    let events := [.measure, .measure, .move 0 (.turn (some (.image ⟨40, 10⟩))), .move 0 (.turn none),
      .measure]
    downloading.currentLayout?.isNone = true ∧
      ((LayoutPass.start downloading.images downloading.segments).asked downloading.settings measurer
        events).map ImageCache.available = [0] ∧
      ∃ e', downloading.layOut? measurer events = some e' ∧
        (e'.layout.map (·.params.generation)) = some 1 ∧
        (∀ w ∈ e'.images.downloads.workers, w.worker.isFinished = true) ∧
        (e'.computeLayout? measurer).map (·.value.2.heights.heights) = some #[20, 400, 20] ∧
        (DocumentLayout.compute? (e'.env measurer) e'.segments).map (·.value.heights.heights) =
          some #[20, 100, 20] := by
  intro measurer events
  have hRun : (downloading.layOut? measurer events).map (fun e' =>
      (e'.layout.map (·.params.generation), e'.images.downloads.workers.all (·.worker.isFinished),
        (e'.computeLayout? measurer).map (·.value.2.heights.heights),
        (DocumentLayout.compute? (e'.env measurer) e'.segments).map (·.value.heights.heights))) =
        some (some 1, true, some #[20, 400, 20], some #[20, 100, 20]) := by
    decide +kernel
  obtain ⟨e', hLayout, hShown⟩ := Option.map_eq_some_iff.1 hRun
  simp only [Prod.mk.injEq, List.all_eq_true] at hShown
  exact ⟨by decide +kernel, by decide +kernel, e', hLayout, hShown⟩

end Entry

end Changelog
