import Changelog.Entry.Slot
import Changelog.Proofs.Entry.Frames
import Changelog.Proofs.Image.Textures

/-! Entries that come and go. Whatever is asked of the active entry, every entry that leaves its place has
been closed, and each texture that it held is counted. A closed entry never draws again, and it has nothing
to give up unless images are brought in anew: what its workers still store, no name leads to. -/

namespace Changelog

namespace EntrySlot

/-- What is asked of an entry, and what happens to its images meanwhile. -/
inductive Request (α : Type) where
  | layOut (measurer : Measurer α)
  | render (canvas : Canvas α) (origin : Point α) (viewport : Option Viewport) (elapsed : Elapsed)
  | setColumnWidth (width : α)
  | onImages (event : ImageCache.Event)
  | close

/-- Whether a request brings in images. -/
def Request.bringsImages {α : Type} : Request α → Bool
  | onImages event => event.bringsImages
  | _ => false

/-- What is asked of a slot and of the entry in it. -/
inductive Event (α : Type) where
  | replace (entry : Entry α)
  | close
  | request (request : Request α)

/-- The entry that an event puts into the slot, if it does. -/
def Event.placed {α : Type} : Event α → List (Entry α)
  | replace entry => [entry]
  | close | request _ => []

/-- What has left the slot, and the active entry as it was at that moment. -/
structure Leaving (α : Type) where
  active : Option (Entry α)
  departure : Departure α

/-- A slot, and what has left it so far. -/
structure History (α : Type) where
  slot : EntrySlot α := {}
  leavings : List (Leaving α) := []

variable {α : Type}

/-- What has left is the active entry, closed, and the count is that of the textures that it held; from
an empty slot nothing leaves. -/
def Leaving.Accounted (leaving : Leaving α) : Prop :=
  match leaving.active with
  | none => leaving.departure.entry = none ∧ leaving.departure.released = 0
  | some e => leaving.departure.entry = some e.close.1 ∧ e.close.1.isOpen = false ∧
      e.images.HoldsTextures leaving.departure.released

/-- The entry that leaves a slot has been closed, and each texture it held is counted. -/
theorem accounted_departure {s : EntrySlot α} (hSound : ∀ e ∈ s.active, e.images.Sound) :
    Leaving.Accounted { active := s.active, departure := s.departure } := by
  obtain ⟨active⟩ := s
  cases active with
  | none => exact ⟨rfl, rfl⟩
  | some e => exact ⟨rfl, rfl, (hSound e rfl).holdsTextures⟩

theorem records_departure (s : EntrySlot α) :
    s.departure.entry.toList.map Entry.record = s.active.toList.map Entry.record := by
  obtain ⟨active⟩ := s
  cases active with
  | none | some => rfl

/-- What every event keeps, if the entries in `placed` are those that were put into the slot so far. -/
structure History.Keeps (h : History α) (placed : List (Entry α)) : Prop where
  accounted : ∀ leaving ∈ h.leavings, leaving.Accounted
  sound : ∀ e ∈ h.slot.active, e.images.Sound
  records : ((h.leavings.flatMap fun leaving => leaving.departure.entry.toList) ++
    h.slot.active.toList).map Entry.record = placed.map Entry.record

variable {h : History α} {placed : List (Entry α)}

/-- At first there is nothing to account for. -/
theorem keeps_nothing : History.Keeps ({} : History α) [] where
  accounted _ hMem := absurd hMem List.not_mem_nil
  sound e hMem := absurd hMem (Option.not_mem_none e)
  records := rfl

/-- The active entry leaves. -/
theorem History.Keeps.leave (hKeeps : h.Keeps placed) (active : Option (Entry α))
    (hSound : ∀ e ∈ active, e.images.Sound) :
    History.Keeps
      { slot := { active }
        leavings := h.leavings ++ [{ active := h.slot.active, departure := h.slot.departure }] }
      (placed ++ active.toList) where
  accounted := by
    refine List.forall_mem_append.2 ⟨hKeeps.accounted, ?_⟩
    exact List.forall_mem_singleton.2 (accounted_departure hKeeps.sound)
  sound := hSound
  records := by
    rw [List.flatMap_append, List.flatMap_singleton, List.map_append, List.map_append,
      records_departure, ← List.map_append, hKeeps.records, List.map_append]

variable [Scalar α]

/-- What a request leaves of an entry; nothing if there is no layout or no drawing, or as long as the
request has to wait for a worker. -/
def serve? (e : Entry α) : Request α → Option (Entry α)
  | .layOut measurer => (e.computeLayout? measurer).map (·.value.1)
  | .render canvas origin viewport elapsed =>
    (e.render? canvas origin viewport elapsed).map Entry.Rendered.entry
  | .setColumnWidth width => some (e.setColumnWidth width)
  | .onImages event => (e.images.act? event).map fun images => { e with images }
  | .close => some e.close.1

def serveAll? (e : Entry α) (requests : List (Request α)) : Option (Entry α) :=
  requests.foldlM serve? e

namespace History

/-- What an event leaves. If there is no active entry, nothing can be asked of it. -/
def act? (h : History α) : Event α → Option (History α)
  | .replace entry =>
    let (slot, departure) := h.slot.replace entry
    some { slot, leavings := h.leavings ++ [{ active := h.slot.active, departure }] }
  | .close =>
    let (slot, departure) := h.slot.close
    some { slot, leavings := h.leavings ++ [{ active := h.slot.active, departure }] }
  | .request request =>
    match h.slot.active with
    | some entry => (serve? entry request).map fun entry => { h with slot := { active := some entry } }
    | none => some h

def run? (h : History α) (events : List (Event α)) : Option (History α) :=
  events.foldlM act? h

end History

variable {e e' : Entry α} {request : Request α} {requests : List (Request α)} {h' : History α}
  {event : Event α} {events : List (Event α)}

/-- All that a request can do: it changes the settings and the layout, or the images, or it closes. -/
theorem cases_of_serve? (hServe : serve? e request = some e') :
    (∃ settings layout, e' = { e with settings, layout }) ∨
      (∃ event images, request = .onImages event ∧ e.images.act? event = some images ∧
        e' = { e with images }) ∨
      e' = e.close.1 := by
  cases request with
  | layOut measurer =>
      obtain ⟨laidOut, hLayout, rfl⟩ := Option.map_eq_some_iff.1 hServe
      obtain ⟨kept, hKept⟩ := Entry.kept_of_computeLayout? hLayout
      exact .inl ⟨e.settings, kept, hKept⟩
  | render canvas origin viewport elapsed =>
      obtain ⟨rendered, hRender, rfl⟩ := Option.map_eq_some_iff.1 hServe
      obtain ⟨kept, hKept⟩ := Entry.kept_of_render? hRender
      exact .inl ⟨e.settings, kept, hKept⟩
  | setColumnWidth width =>
      obtain rfl := Option.some.inj hServe
      exact .inl ⟨_, e.layout, rfl⟩
  | onImages event =>
      obtain ⟨images, hAct, rfl⟩ := Option.map_eq_some_iff.1 hServe
      exact .inr (.inl ⟨event, images, rfl, hAct, rfl⟩)
  | close =>
      obtain rfl := Option.some.inj hServe
      exact .inr (.inr rfl)

/-- No request changes what an entry says of itself. -/
theorem record_of_serve? (hServe : serve? e request = some e') : e'.record = e.record := by
  rcases cases_of_serve? hServe with ⟨_, _, rfl⟩ | ⟨_, _, -, -, rfl⟩ | rfl
  · rfl
  · rfl
  · rfl

/-- Nor does one leave textures behind that a count would miss. -/
theorem sound_of_serve? (hSound : e.images.Sound) (hServe : serve? e request = some e') :
    e'.images.Sound := by
  rcases cases_of_serve? hServe with ⟨_, _, rfl⟩ | ⟨_, _, -, hAct, rfl⟩ | rfl
  · exact hSound
  · exact hSound.act? hAct
  · exact e.images.sound_dispose

/-- No request opens an entry again. -/
theorem closed_of_serve? (hClosed : e.isOpen = false) (hServe : serve? e request = some e') :
    e'.isOpen = false := by
  rcases cases_of_serve? hServe with ⟨_, _, rfl⟩ | ⟨_, _, -, -, rfl⟩ | rfl
  · exact hClosed
  · exact hClosed
  · rfl

/-- Once an entry has nothing to give up, requests that bring in no images leave it so. A worker that goes
on works on a set that was given up. -/
theorem bare_of_serve? (hBare : e.images.Bare) (hBrings : request.bringsImages = false)
    (hServe : serve? e request = some e') : e'.images.Bare := by
  rcases cases_of_serve? hServe with ⟨_, _, rfl⟩ | ⟨_, _, rfl, hAct, rfl⟩ | rfl
  · exact hBare
  · exact hBare.act? hBrings hAct
  · exact e.images.bare_dispose

/-- What every request keeps, any number of them keep. -/
theorem serveAll?_keeps (P : Entry α → Prop) (allowed : Request α → Prop)
    (hKeeps : ∀ (e e' : Entry α) request, allowed request → P e → serve? e request = some e' → P e')
    (hAllowed : ∀ request ∈ requests, allowed request) (hP : P e)
    (hServe : serveAll? e requests = some e') : P e' := by
  induction requests generalizing e with
  | nil =>
      obtain rfl := Option.some.inj hServe
      exact hP
  | cons request rest ih =>
      obtain ⟨hFirst, hRest⟩ := List.forall_mem_cons.1 hAllowed
      obtain ⟨next, hNext, hOthers⟩ := Option.bind_eq_some_iff.1 hServe
      exact ih hRest (hKeeps e next request hFirst hP hNext) hOthers

/-- Each event is accounted for, if the entries that are put into the slot are sound. -/
theorem History.Keeps.act? (hKeeps : h.Keeps placed) (hPlaced : ∀ e ∈ event.placed, e.images.Sound)
    (hAct : h.act? event = some h') : h'.Keeps (placed ++ event.placed) := by
  cases event with
  | replace entry =>
      obtain rfl := Option.some.inj hAct
      exact hKeeps.leave (some entry) fun e he =>
        hPlaced e (List.mem_singleton.2 (Option.some.inj he).symm)
  | close =>
      obtain rfl := Option.some.inj hAct
      exact hKeeps.leave none fun e he => absurd he (Option.not_mem_none e)
  | request request =>
      rw [Event.placed, List.append_nil]
      unfold History.act? at hAct
      dsimp only at hAct
      cases hActive : h.slot.active with
      | none =>
          rw [hActive] at hAct
          obtain rfl := Option.some.inj hAct
          exact hKeeps
      | some e =>
          rw [hActive] at hAct
          obtain ⟨e', hServe, rfl⟩ := Option.map_eq_some_iff.1 hAct
          refine ⟨hKeeps.accounted, ?_, ?_⟩
          · rintro _ ⟨⟩
            exact sound_of_serve? (hKeeps.sound e hActive) hServe
          · rw [← hKeeps.records, hActive, List.map_append, List.map_append]
            simp [record_of_serve? hServe]

theorem History.Keeps.run? (hKeeps : h.Keeps placed)
    (hPlaced : ∀ e ∈ events.flatMap Event.placed, e.images.Sound)
    (hRun : h.run? events = some h') : h'.Keeps (placed ++ events.flatMap Event.placed) := by
  induction events generalizing h placed with
  | nil =>
      obtain rfl := Option.some.inj hRun
      rwa [List.flatMap_nil, List.append_nil]
  | cons event rest ih =>
      obtain ⟨next, hAct, hRest⟩ := Option.bind_eq_some_iff.1 hRun
      rw [List.flatMap_cons, List.forall_mem_append] at hPlaced
      rw [List.flatMap_cons, ← List.append_assoc]
      exact ih (hKeeps.act? hPlaced.1 hAct) hPlaced.2 hRest

/-- Whatever is asked of a slot and of its active entry, and whatever is downloaded meanwhile: every entry
that leaves has been closed, and the count returned is the number of textures that its cache held at that
moment; the entries that were put into the slot are, in order, those that have left it and the one that is
active, if there is one; and if this one is closed now, the same count is returned. From its first closing
on, however it came about, an entry draws nothing and its output is empty, and to close it again gives up
nothing as long as no images are brought in. -/
theorem closed_and_counted_once (events : List (Event α))
    (hSound : ∀ entry ∈ events.flatMap Event.placed, entry.images.Sound) {history : History α}
    (hRun : ({} : History α).run? events = some history) :
    (∀ leaving ∈ history.leavings, leaving.Accounted) ∧
    ((history.leavings.flatMap fun leaving => leaving.departure.entry.toList) ++
      history.slot.active.toList).map Entry.record =
        (events.flatMap Event.placed).map Entry.record ∧
    (∀ e ∈ history.slot.active, e.images.HoldsTextures e.close.2) ∧
    ∀ (e e' : Entry α) (requests : List (Request α)), serveAll? e.close.1 requests = some e' →
      e'.isOpen = false ∧
      (∀ canvas origin viewport elapsed, e'.render? canvas origin viewport elapsed =
        some { entry := e', canvas, output := { height := Scalar.zero, links := {} }, notices := [] }) ∧
      ((∀ request ∈ requests, request.bringsImages = false) → e'.close.2 = 0) := by
  have hKeeps : History.Keeps history (events.flatMap Event.placed) :=
    History.Keeps.run? keeps_nothing hSound hRun
  refine ⟨hKeeps.accounted, hKeeps.records, fun e hActive => (hKeeps.sound e hActive).holdsTextures,
    fun e e' requests hServe => ?_⟩
  have hClosed : e'.isOpen = false :=
    serveAll?_keeps (fun e => e.isOpen = false) (fun _ => True)
      (fun _ _ _ _ => closed_of_serve?) (fun _ _ => trivial) rfl hServe
  refine ⟨hClosed, fun _ _ _ _ => Entry.render?_of_closed hClosed, fun hBrings => ?_⟩
  have hBare : e'.images.Bare :=
    serveAll?_keeps (fun e => e.images.Bare) (fun request => request.bringsImages = false)
      (fun _ _ _ hAllowed hBare => bare_of_serve? hBare hAllowed) hBrings e.images.bare_dispose hServe
  exact hBare.released

/-- Images of every kind: a local one, an animation of two pictures, and one that is to be downloaded. -/
def stock : List ImageCache.Event :=
  let texture (name : Char) : Texture := ⟨[name], ⟨8, 4⟩⟩
  [.insertPicture ['p'] (texture 'p'), .insertFrames ['f'] ⟨[texture 'f', texture 'g']⟩,
    .begin [⟨['a'], ['x']⟩]]

/-- An entry with these images. -/
def stocked : Entry ℚ :=
  Entry.ofImages { description := "see[img]a[/img]".toList } { columnWidth := 400 }
    (((ImageCache.opened {} {}).run? stock).getD {})

/-- The entry of the example is sound, as its images were brought in one by one. -/
theorem sound_stocked : stocked.images.Sound := by
  have hRun : (ImageCache.opened {} {}).run? stock = some stocked.images := by decide +kernel
  exact (ImageCache.sound_opened NameMap.distinct_empty NameMap.distinct_empty).run? hRun

/-- The first entry leaves with four textures, one of them downloaded meanwhile. The second one is closed
while it is active, so it leaves with none, although it is laid out again and its worker goes on. -/
theorem counted_once_of_two_entries :
    let fetch : Request ℚ := .onImages (.move 0 (.turn none))
    let deliver : Request ℚ := .onImages (.move 0 (.turn (some (.image ⟨8, 4⟩))))
    let layOut : Request ℚ := .layOut (.monospace 10 20)
    let events : List (Event ℚ) :=
      [.replace stocked, .request fetch, .request deliver, .replace stocked, .request fetch,
        .request .close, .request deliver, .request layOut, .close, .close]
    ∃ history, ({} : History ℚ).run? events = some history ∧
      (history.leavings.map fun leaving => leaving.departure.released) = [0, 4, 0, 0] ∧
      (∀ leaving ∈ history.leavings, leaving.Accounted) ∧
      ∃ e', serveAll? stocked.close.1 [deliver, layOut] = some e' ∧ e'.isOpen = false ∧
        e'.close.2 = 0 := by
  intro fetch deliver layOut events
  have hRun : (({} : History ℚ).run? events).map (fun history =>
      history.leavings.map fun leaving => leaving.departure.released) = some [0, 4, 0, 0] := by
    decide +kernel
  obtain ⟨history, hRun, hReleased⟩ := Option.map_eq_some_iff.1 hRun
  have hSound : ∀ entry ∈ events.flatMap Event.placed, entry.images.Sound := by
    simp [events, Event.placed, sound_stocked]
  obtain ⟨hAccounted, -, -, hDead⟩ := closed_and_counted_once events hSound hRun
  obtain ⟨e', hServe⟩ : ∃ e', serveAll? stocked.close.1 [deliver, layOut] = some e' :=
    Option.isSome_iff_exists.1 (by decide +kernel)
  obtain ⟨hClosed, -, hNothing⟩ := hDead stocked e' _ hServe
  have hBrings : ∀ request ∈ [deliver, layOut], request.bringsImages = false := by
    simp [deliver, layOut, Request.bringsImages, ImageCache.Event.bringsImages]
  exact ⟨history, hRun, hReleased, hAccounted, e', hServe, hClosed, hNothing hBrings⟩

end EntrySlot

end Changelog
