import Changelog.Proofs.Download.Turn

/-! A batch of downloads from its registration to its end. Downloads begin and end in the order of the
images, so two numbers tell how far a batch has come: how many have begun and how many are over. -/

namespace Changelog.Worker

variable {outcome : Nat → Option Body} {ended started : Nat}

/-- The slot of number `k` when `ended` downloads are over and `started` have begun. -/
def slotAt (outcome : Nat → Option Body) (ended started k : Nat) (image : RemoteImage) : Slot :=
  if k < ended then .ended image (outcome k)
  else if k < started then { url := image.url, status := .inProgress }
  else { url := image.url }

theorem slotAt_of_lt {k : Nat} (h : k < ended) (image : RemoteImage) :
    slotAt outcome ended started k image = .ended image (outcome k) :=
  if_pos h

theorem slotAt_of_le_of_lt {k : Nat} (hEnded : ended ≤ k) (hStarted : k < started)
    (image : RemoteImage) :
    slotAt outcome ended started k image = { url := image.url, status := .inProgress } := by
  rw [slotAt, if_neg (Nat.not_lt_of_le hEnded), if_pos hStarted]

theorem slotAt_of_le {k : Nat} (hEnded : ended ≤ k) (hStarted : started ≤ k) (image : RemoteImage) :
    slotAt outcome ended started k image = { url := image.url } := by
  rw [slotAt, if_neg (Nat.not_lt_of_le hEnded), if_neg (Nat.not_lt_of_le hStarted)]

/-- For one slot it only matters on which side of the two numbers it stands. -/
theorem slotAt_congr (outcome : Nat → Option Body) {ended' started' k : Nat} (hEnded : k < ended ↔ k < ended')
    (hStarted : k < started ↔ k < started') (image : RemoteImage) :
    slotAt outcome ended started k image = slotAt outcome ended' started' k image := by
  simp only [slotAt, hEnded, hStarted]

/-- At most one download is under way, and each one that is over has been counted, but for the last
while the worker is about to count it. -/
def Phase (images : List RemoteImage) (ended started generation : Nat) : WorkerPhase → Prop
  | .ready => started = ended ∧ generation = ended
  | .fetching job => started = ended + 1 ∧ generation = ended ∧
      ∃ image, images[ended]? = some image ∧ job = ⟨image.name, ended⟩
  | .delivered => started = ended ∧ ended = generation + 1

/-- Of a batch, `started` downloads have begun and `ended` of them are over. -/
structure Progress (outcome : Nat → Option Body) (images : List RemoteImage) (ended started : Nat)
    (s : State) : Prop where
  started_le : started ≤ images.length
  slots_eq (k : Nat) : s.1.slots[k]? = images[k]?.map (slotAt outcome ended started k)
  requests_eq : s.2.requests = (images.take started).map RemoteImage.url
  queue_eq : s.2.queue = (images.zipIdx.drop started).map (fun own => ⟨own.1.name, own.2⟩) ∨
    s.1.disposed = true ∧ s.2.queue = []
  phase : Phase images ended started s.1.generation s.2.phase

/-- A batch that has just been registered has made no progress. -/
theorem progress_batch (outcome : Nat → Option Body) (images : List RemoteImage) :
    Progress outcome images 0 0 (batch images) where
  started_le := Nat.zero_le _
  slots_eq k := by
    rw [batch, RemoteSet.slots_register, List.nil_append, List.getElem?_map]
    rfl
  requests_eq := rfl
  queue_eq := .inl (RemoteSet.jobs_register {} images)
  phase := ⟨rfl, RemoteSet.generation_register {} images⟩

/-- One slot is put in the place of another, and all others stay as they are. -/
theorem getElem?_set_slotAt {slots : List Slot} {images : List RemoteImage}
    {ended' started' i : Nat} {image : RemoteImage}
    (h : ∀ k, slots[k]? = images[k]?.map (slotAt outcome ended started k))
    (hImage : images[i]? = some image)
    (hOthers : ∀ k ≠ i, (k < ended ↔ k < ended') ∧ (k < started ↔ k < started')) (k : Nat) :
    (slots.set i (slotAt outcome ended' started' i image))[k]? =
      images[k]?.map (slotAt outcome ended' started' k) := by
  by_cases hk : i = k
  · subst hk
    have hSlot := h i
    rw [hImage, Option.map_some] at hSlot
    rw [List.getElem?_set_self (List.getElem?_eq_some_iff.1 hSlot).1, hImage, Option.map_some]
  · rw [List.getElem?_set_ne hk, h k]
    obtain ⟨hEnded, hStarted⟩ := hOthers k (Ne.symm hk)
    rw [funext (slotAt_congr outcome hEnded hStarted)]

/-- The jobs that wait are those of the images from the first that has not begun, in their order. -/
theorem next_job {images : List RemoteImage} {job : Job} {rest : List Job}
    (h : job :: rest = (images.zipIdx.drop started).map fun own => ⟨own.1.name, own.2⟩) :
    ∃ image, images[started]? = some image ∧ job = ⟨image.name, started⟩ ∧
      rest = (images.zipIdx.drop (started + 1)).map fun own => ⟨own.1.name, own.2⟩ := by
  cases hDrop : images.zipIdx.drop started with
  | nil => rw [hDrop] at h; cases h
  | cons own tail =>
      rw [hDrop, List.map_cons] at h
      obtain ⟨rfl, rfl⟩ := List.cons.inj h
      have hOwn : images.zipIdx[started]? = some own := by rw [← List.head?_drop, hDrop, List.head?_cons]
      rw [List.getElem?_zipIdx] at hOwn
      obtain ⟨image, hImage, rfl⟩ := Option.map_eq_some_iff.1 hOwn
      refine ⟨image, hImage, by rw [Nat.zero_add], ?_⟩
      rw [← List.tail_drop, hDrop, List.tail_cons]

/-- A turn starts at most one download, and none once the images have been given up. -/
theorem Progress.turn {images : List RemoteImage} {s : State}
    (h : Progress outcome images ended started s) :
    ∃ ended' started', Progress outcome images ended' started' (turn outcome s) ∧
      (s.1.disposed = true → started' = started) := by
  obtain ⟨set, queue, phase, requests⟩ := s
  obtain ⟨hLe, hSlots, hRequests, hQueue, hPhase⟩ := h
  dsimp only at hSlots hRequests hQueue hPhase ⊢
  cases phase with
  | ready =>
      obtain ⟨rfl, hGeneration⟩ := hPhase
      cases queue with
      | nil => exact ⟨started, started, ⟨hLe, hSlots, hRequests, hQueue, rfl, hGeneration⟩, fun _ => rfl⟩
      | cons job rest =>
          cases hDisposed : set.disposed with
          | true =>
              rw [turn_of_disposed hDisposed]
              exact ⟨started, started, ⟨hLe, hSlots, hRequests, .inr ⟨hDisposed, rfl⟩, rfl, hGeneration⟩,
                fun _ => rfl⟩
          | false =>
              -- The queue holds the jobs of all images that have not been started, so its first job is
              -- that of image number `started`.
              have hJobs := hQueue.resolve_right fun h => by rw [hDisposed] at h; cases h.1
              obtain ⟨image, hImage, rfl, rfl⟩ := next_job hJobs
              have hLt := (List.getElem?_eq_some_iff.1 hImage).1
              have hSlot : set.slots[started]? = some { url := image.url } := by
                rw [hSlots, hImage, Option.map_some, slotAt_of_le (Nat.le_refl _) (Nat.le_refl _)]
              have hOthers (k : Nat) (hk : k ≠ started) :
                  (k < started ↔ k < started) ∧ (k < started ↔ k < started + 1) :=
                ⟨Iff.rfl, by omega⟩
              have hSlots' := getElem?_set_slotAt hSlots hImage hOthers
              rw [slotAt_of_le_of_lt (Nat.le_refl _) (Nat.lt_succ_self _)] at hSlots'
              rw [turn_of_pending hDisposed hSlot]
              refine ⟨started, started + 1,
                ⟨hLt, hSlots', ?_, .inl rfl, rfl, hGeneration, image, hImage, rfl⟩, nofun⟩
              rw [List.take_add_one, hImage, List.map_append, ← hRequests]
              rfl
  | fetching job =>
      obtain ⟨rfl, hGeneration, image, hImage, rfl⟩ := hPhase
      have hSlot : set.slots[ended]? = some { url := image.url, status := .inProgress } := by
        rw [hSlots, hImage, Option.map_some,
          slotAt_of_le_of_lt (Nat.le_refl _) (Nat.lt_succ_self _)]
      have hOthers (k : Nat) (hk : k ≠ ended) :
          (k < ended ↔ k < ended + 1) ∧ (k < ended + 1 ↔ k < ended + 1) :=
        ⟨by omega, Iff.rfl⟩
      have hSlots' := getElem?_set_slotAt hSlots hImage hOthers
      rw [slotAt_of_lt (Nat.lt_succ_self _)] at hSlots'
      rw [turn_of_fetching hSlot rfl]
      exact ⟨ended + 1, ended + 1,
        ⟨hLe, hSlots', hRequests, hQueue, rfl, congrArg (· + 1) hGeneration.symm⟩, fun _ => rfl⟩
  | delivered =>
      obtain ⟨rfl, rfl⟩ := hPhase
      exact ⟨_, _, ⟨hLe, hSlots, hRequests, hQueue, rfl, rfl⟩, fun _ => rfl⟩

/-- Giving the images up changes no slot, and it takes no job from a worker. -/
theorem Progress.clear {images : List RemoteImage} {s : State}
    (h : Progress outcome images ended started s) :
    Progress outcome images ended started (s.1.clear, s.2) :=
  { h with queue_eq := h.queue_eq.imp_right fun hEmpty => ⟨rfl, hEmpty.2⟩ }

/-- Whatever happens to a batch, it stands somewhere between its registration and its end. Once it is given
up, no download begins any more. -/
theorem Progress.run {images : List RemoteImage} {s : State}
    (h : Progress outcome images ended started s) (events : List Event) :
    ∃ ended' started', Progress outcome images ended' started' (run outcome s events) ∧
      (s.1.disposed = true → started' = started) := by
  induction events generalizing ended started s with
  | nil => exact ⟨ended, started, h, fun _ => rfl⟩
  | cons event rest ih =>
      cases event with
      | turn =>
          obtain ⟨ended', started', hTurn, hSame⟩ := h.turn
          obtain ⟨ended'', started'', hRest, hSame'⟩ := ih hTurn
          refine ⟨ended'', started'', hRest, fun hDisposed => ?_⟩
          rw [hSame' (turn_keeps s |>.1.trans hDisposed), hSame hDisposed]
      | clear =>
          obtain ⟨ended', started', hRest, hSame⟩ := ih h.clear
          exact ⟨ended', started', hRest, fun _ => hSame rfl⟩

/-- The first `m` images have been downloaded, one request for each of them, and no other image has been
touched. A failure concerns its own image only. -/
structure Downloaded (outcome : Nat → Option Body) (images : List RemoteImage) (m : Nat) (s : State) :
    Prop where
  requests_eq : s.2.requests = (images.take m).map RemoteImage.url
  generation_eq : s.1.generation = m
  length_slots : s.1.slots.length = images.length
  slot {k : Nat} {image : RemoteImage} : images[k]? = some image →
    ∃ slot, s.1.slots[k]? = some slot ∧ slot.url = image.url ∧
      (slot.status.isTerminal = true ↔ k < m) ∧
      (k < m → (slot.status = .success ↔ (image.decoded (outcome k)).isSome = true)) ∧
      (m ≤ k → slot.status = .pending)

/-- A name leads to what the last image of this name brought. -/
def LastOfName (outcome : Nat → Option Body) (images : List RemoteImage) (set : RemoteSet) : Prop :=
  ∀ before image after, images = before ++ image :: after →
    (∀ other ∈ after, other.name ≠ image.name) →
      set.status? image.name =
          some (if (image.decoded (outcome before.length)).isSome then .success else .failed) ∧
        set.texture? image.name = image.decoded (outcome before.length)

variable {images : List RemoteImage} {s : State}

/-- There is a slot for every image, also under a name that occurs twice. -/
theorem Progress.length_slots (h : Progress outcome images ended started s) :
    s.1.slots.length = images.length := by
  have hNone (k : Nat) : s.1.slots.length ≤ k ↔ images.length ≤ k := by
    rw [← List.getElem?_eq_none_iff, h.slots_eq, Option.map_eq_none_iff, List.getElem?_eq_none_iff]
  exact Nat.le_antisymm ((hNone _).2 (Nat.le_refl _)) ((hNone _).1 (Nat.le_refl _))

theorem Progress.length_requests (h : Progress outcome images ended started s) :
    s.2.requests.length = started := by
  rw [h.requests_eq, List.length_map, List.length_take, Nat.min_eq_left h.started_le]

/-- A worker between two jobs has left no slot half done: what has begun is over and counted. -/
theorem Progress.downloaded (h : Progress outcome images ended started s)
    (hReady : s.2.phase = .ready) : Downloaded outcome images started s := by
  have hPhase := h.phase
  rw [hReady] at hPhase
  obtain ⟨rfl, hGeneration⟩ := hPhase
  refine ⟨h.requests_eq, hGeneration, h.length_slots, fun {k image} hImage => ?_⟩
  refine ⟨slotAt outcome started started k image, by rw [h.slots_eq, hImage, Option.map_some], ?_⟩
  by_cases hk : k < started
  · rw [slotAt_of_lt hk]
    exact ⟨rfl, iff_of_true (Slot.isTerminal_ended _ _) hk, fun _ => Slot.success_ended_iff,
      fun hLe => absurd hk (Nat.not_lt_of_le hLe)⟩
  · have hLe : started ≤ k := Nat.le_of_not_lt hk
    rw [slotAt_of_le hLe hLe]
    exact ⟨rfl, iff_of_false nofun hk, fun hLt => absurd hLt hk, fun _ => rfl⟩

/-- A worker without jobs has been through all images, unless it was stopped. -/
theorem Progress.started_eq_length (h : Progress outcome images ended started s)
    (hWanted : s.1.disposed = false) (hQueue : s.2.queue = []) : started = images.length := by
  have hJobs := h.queue_eq.resolve_right fun hEmpty => by rw [hWanted] at hEmpty; cases hEmpty.1
  rw [hQueue, eq_comm, List.map_eq_nil_iff, List.drop_eq_nil_iff, List.length_zipIdx] at hJobs
  exact Nat.le_antisymm h.started_le hJobs

/-- At the end of a batch a name leads to the slot that was registered last under it. -/
theorem Progress.lastOfName (h : Progress outcome images ended images.length s)
    (hReady : s.2.phase = .ready)
    (hNames : s.1.names = (({} : RemoteSet).register images).1.names) :
    LastOfName outcome images s.1 := by
  rintro before image after rfl hLast
  have hPhase := h.phase
  rw [hReady] at hPhase
  obtain ⟨rfl, -⟩ := hPhase
  have hGet : s.1.get? image.name = some (.ended image (outcome before.length)) := by
    rw [RemoteSet.get?, hNames, RemoteSet.get?_names_register _ _ _ hLast, Option.bind_some]
    show s.1.slots[0 + before.length]? = _
    rw [Nat.zero_add, h.slots_eq, List.getElem?_append_right (Nat.le_refl _), Nat.sub_self,
      List.getElem?_cons_zero, Option.map_some, slotAt_of_lt (by simp)]
  rw [RemoteSet.status?, RemoteSet.texture?, hGet]
  exact ⟨rfl, Slot.texture?_ended _ _⟩

/-- What the fetch for each image brings, if that depends on the address alone. -/
def fetched (fetch : Fetcher) (images : List RemoteImage) (k : Nat) : Option Body :=
  images[k]?.bind fun image => fetch image.url

/-- A job fetches from the address of its own slot. -/
theorem fetched_slot (fetch : Fetcher) {images : List RemoteImage} {job : Job}
    (h : job ∈ (batch images).2.queue) :
    fetched fetch images job.slot = fetch ((batch images).1.url job) := by
  rw [batch, RemoteSet.jobs_register] at h
  obtain ⟨own, hOwn, rfl⟩ := List.mem_map.1 h
  have hImage : images[own.2]? = some own.1 := List.mk_mem_zipIdx_iff_getElem?.1 hOwn
  simp [fetched, batch, RemoteSet.url, RemoteSet.slots_register, hImage]

/-- Without a worker of its own a batch leaves the same, if nothing happens meanwhile but that the images
are given up. -/
theorem downloaded_downloadAll (fetch : Fetcher) {meanwhile : Text → RemoteSet → RemoteSet}
    (hMeanwhile : ∀ url set, meanwhile url set = set ∨ meanwhile url set = set.clear)
    (images : List RemoteImage) :
    let (set, urls) := (batch images).1.downloadAll fetch meanwhile (batch images).2.queue
    ∃ m, Downloaded (fetched fetch images) images m (set, ⟨[], .ready, urls⟩) := by
  obtain ⟨events, hRun⟩ := exists_run_downloadAll hMeanwhile (batch images).1
    (batch images).2.queue [] fun job => fetched_slot fetch
  obtain ⟨ended, started, hProgress, -⟩ := (progress_batch _ images).run events
  exact ⟨started, (hRun ▸ hProgress).downloaded rfl⟩

/-- Three turns for each image are enough for a batch. It then has downloaded the first `m` images, in
order: all of them if the images were not given up, and else those whose fetch had started before. -/
theorem batch_downloads (outcome : Nat → Option Body) (images : List RemoteImage)
    (events : List Event) :
    let s := run outcome (batch images) events
    (3 * images.length ≤ events.count .turn → s.2.isFinished = true) ∧
      (s.2.isFinished = true →
        ∃ m ≤ images.length, Downloaded outcome images m s ∧
          (.clear ∉ events → m = images.length ∧ LastOfName outcome images s.1) ∧
          ∀ before after, events = before ++ .clear :: after →
            m = (run outcome (batch images) before).2.requests.length) := by
  intro s
  constructor
  · intro hTurns
    have hWork : s.2.work ≤ _ := work_run (batch images) events
    have hBatch : (batch images).2.work = 3 * images.length := by
      simp [batch, work, RemoteSet.jobs_register]
    exact (isFinished_iff _).2 (by omega)
  · intro hFinished
    obtain ⟨ended, started, hProgress, -⟩ := (progress_batch outcome images).run events
    rw [isFinished, Bool.and_eq_true, decide_eq_true_iff, List.isEmpty_iff] at hFinished
    obtain ⟨hReady, hQueue⟩ := hFinished
    refine ⟨started, hProgress.started_le, hProgress.downloaded hReady, fun hClear => ?_, ?_⟩
    · obtain ⟨hDisposed, hNames⟩ : s.1.disposed = _ ∧ s.1.names = _ :=
        run_keeps (batch images) hClear
      obtain rfl := hProgress.started_eq_length
        (hDisposed.trans (RemoteSet.disposed_register _ _)) hQueue
      exact ⟨rfl, hProgress.lastOfName hReady hNames⟩
    · rintro before after rfl
      -- From the moment the images are given up no turn starts a download.
      obtain ⟨ended', started', hBefore, -⟩ := (progress_batch outcome images).run before
      obtain ⟨_, _, hAfter, hSame⟩ := hBefore.clear.run after
      have hEnd : s = run outcome ((run outcome (batch images) before).1.clear,
          (run outcome (batch images) before).2) after := run_append _ _ _
      rw [← hEnd] at hAfter
      rw [← hProgress.length_requests, hAfter.length_requests, hSame rfl, hBefore.length_requests]

/-- The images are given up while the second one is fetched, which still comes to its end. -/
theorem batch_downloads_until_clear :
    let images : List RemoteImage := [⟨['a'], ['x']⟩, ⟨['b'], ['y']⟩, ⟨['a'], ['z']⟩]
    let outcome (k : Nat) : Option Body := if k = 0 then some (.image ⟨1, 2⟩) else none
    let s := run outcome (batch images)
      [.turn, .turn, .turn, .turn, .clear, .turn, .turn, .turn, .turn, .turn]
    s.2.isFinished = true ∧ Downloaded outcome images 2 s := by
  intro images outcome s
  obtain ⟨hTurns, hEnd⟩ := batch_downloads outcome images
    [.turn, .turn, .turn, .turn, .clear, .turn, .turn, .turn, .turn, .turn]
  have hFinished : s.2.isFinished = true := hTurns (by decide)
  obtain ⟨m, -, hDownloaded, -, hClear⟩ := hEnd hFinished
  have hm : m = 2 := hClear [.turn, .turn, .turn, .turn] _ rfl
  exact ⟨hFinished, hm ▸ hDownloaded⟩

end Changelog.Worker
