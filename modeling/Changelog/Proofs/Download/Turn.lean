import Changelog.Download.Worker
import Changelog.Proofs.Download.Registration

/-! The worker turn by turn. Between two turns the images may be given up. A turn looks whether they are
still wanted and starts a fetch, or takes what a fetch has brought, or counts the download; so the look
and the start of the fetch are one step, and a fetch lasts from one turn to the next. -/

namespace Changelog

/-- The texture that a download brings, if there is something behind the address and it is an image. -/
def RemoteImage.decoded (image : RemoteImage) : Option Body → Option Texture
  | some (.image size) => some ⟨image.name, size⟩
  | _ => none

namespace Slot

/-- The slot of an image that has been downloaded, or not been downloaded in the end. -/
def ended (image : RemoteImage) (body : Option Body) : Slot :=
  { url := image.url
    status := if (image.decoded body).isSome then .success else .failed
    stored := image.decoded body }

theorem isTerminal_ended (image : RemoteImage) (body : Option Body) :
    (ended image body).status.isTerminal = true := by
  unfold ended
  dsimp only
  split
  · rfl
  · rfl

/-- A download is a success just when what was fetched is an image. -/
theorem success_ended_iff {image : RemoteImage} {body : Option Body} :
    (ended image body).status = .success ↔ (image.decoded body).isSome = true := by
  unfold ended
  dsimp only
  split
  · rename_i hSome
    exact iff_of_true rfl hSome
  · rename_i hNone
    exact iff_of_false nofun hNone

/-- The texture that can be had afterwards is what the download brought, if it brought one. -/
theorem texture?_ended (image : RemoteImage) (body : Option Body) :
    (ended image body).texture? = image.decoded body := by
  unfold texture?
  split
  · rfl
  · rename_i hStatus
    rw [success_ended_iff, Option.not_isSome_iff_eq_none] at hStatus
    exact hStatus.symm

theorem url_advance (s : Slot) (expected status : DownloadStatus) :
    (s.advance expected status).1.url = s.url := by
  unfold advance swapStatus
  split
  · split
    · rfl
    · rfl
  · rfl

theorem url_complete (s : Slot) (texture : Texture) : (s.complete texture).1.url = s.url := by
  cases hStored : s.stored with
  | none =>
      by_cases hStatus : s.status = .inProgress
      · simp [complete, store, hStatus, hStored, url_advance]
      · simp [complete, hStatus]
  | some other =>
      by_cases hStatus : s.status = .inProgress
      · simp [complete, store, hStatus, hStored]
      · simp [complete, hStatus]

end Slot

namespace RemoteSet

/-- A pending slot is taken, and no other slot is touched. -/
theorem start_eq {set : RemoteSet} {job : Job} {url : Text}
    (h : set.slots[job.slot]? = some { url }) :
    set.start job =
      ({ set with slots := set.slots.set job.slot { url, status := .inProgress } }, true) := by
  rw [start, onSlot, h]
  rfl

/-- What a fetch brings goes to the slot of its own job. -/
theorem deliver_eq {set : RemoteSet} {job : Job} {image : RemoteImage} (body : Option Body)
    (h : set.slots[job.slot]? = some { url := image.url, status := .inProgress })
    (hName : job.name = image.name) :
    set.deliver job body =
      { set with slots := set.slots.set job.slot (Slot.ended image body) } := by
  rw [deliver, onSlot, h]
  cases body with
  | none => rfl
  | some body =>
      cases body with
      | image size => rw [hName]; rfl
      | other => rfl

/-- Addresses are fixed at registration; no operation on a slot changes them. -/
theorem url_onSlot (set : RemoteSet) (number : Nat) {operation : Slot → Slot × Bool}
    (h : ∀ slot, (operation slot).1.url = slot.url) (job : Job) :
    (set.onSlot number operation).1.url job = set.url job := by
  unfold onSlot
  split
  · rename_i slot hSlot
    by_cases hNumber : number = job.slot
    · have hLt := (List.getElem?_eq_some_iff.1 hSlot).1
      simp [url, ← hNumber, hLt, h, (List.getElem?_eq_some_iff.1 hSlot).2]
    · simp [url, hNumber]
  · rfl

theorem url_start (set : RemoteSet) (job other : Job) : (set.start job).1.url other = set.url other :=
  set.url_onSlot job.slot (fun slot => Slot.url_advance slot _ _) other

theorem url_deliver (set : RemoteSet) (job : Job) (body : Option Body) (other : Job) :
    (set.deliver job body).url other = set.url other := by
  refine set.url_onSlot job.slot (fun slot => ?_) other
  split
  · exact Slot.url_complete slot _
  · exact Slot.url_advance slot _ _

/-- Operations on slots concern neither the names nor whether the images are wanted. -/
theorem onSlot_keeps (set : RemoteSet) (number : Nat) (operation : Slot → Slot × Bool) :
    (set.onSlot number operation).1.disposed = set.disposed ∧
      (set.onSlot number operation).1.names = set.names := by
  unfold onSlot
  split
  · exact ⟨rfl, rfl⟩
  · exact ⟨rfl, rfl⟩

end RemoteSet

namespace Worker

/-- What comes next: the worker goes on, or the images are given up. -/
inductive Event where
  | turn
  | clear
deriving DecidableEq, Repr

variable (outcome : Nat → Option Body)

/-- A turn of the worker. The fetch for slot `k` brings `outcome k`. -/
def turn (s : State) : State :=
  match s.2.phase with
  | .ready => look s.1 s.2
  | .fetching job => deliver (fun _ => outcome job.slot) s.1 s.2
  | .delivered => count s.1 s.2

def Event.act (s : State) : Event → State
  | .turn => Worker.turn outcome s
  | .clear => (s.1.clear, s.2)

def run (s : State) (events : List Event) : State :=
  events.foldl (Event.act outcome) s

/-- A new set with the images, and the worker for them. -/
def batch (images : List RemoteImage) : State :=
  ((({} : RemoteSet).register images).1, { queue := (({} : RemoteSet).register images).2 })

variable {outcome} {set : RemoteSet} {job : Job} {queue : List Job} {requests : List Text}

/-- Once the images are given up, a worker that looks drops all its jobs. -/
theorem turn_of_disposed (h : set.disposed = true) :
    turn outcome (set, ⟨job :: queue, .ready, requests⟩) = (set, ⟨[], .ready, requests⟩) := by
  simp only [turn, look, h, if_true]

/-- Otherwise it starts the fetch for its next job. -/
theorem turn_of_pending {url : Text} (h : set.disposed = false)
    (hSlot : set.slots[job.slot]? = some { url }) :
    turn outcome (set, ⟨job :: queue, .ready, requests⟩) =
      ({ set with slots := set.slots.set job.slot { url, status := .inProgress } },
        ⟨queue, .fetching job, requests ++ [url]⟩) := by
  have hLt := (List.getElem?_eq_some_iff.1 hSlot).1
  simp [turn, look, h, RemoteSet.start_eq hSlot, RemoteSet.url, hLt]

/-- Then it delivers what the fetch has brought. -/
theorem turn_of_fetching {image : RemoteImage}
    (hSlot : set.slots[job.slot]? = some { url := image.url, status := .inProgress })
    (hName : job.name = image.name) :
    turn outcome (set, ⟨queue, .fetching job, requests⟩) =
      ({ set with slots := set.slots.set job.slot (.ended image (outcome job.slot)) },
        ⟨queue, .delivered, requests⟩) := by
  simp only [turn, deliver, RemoteSet.deliver_eq _ hSlot hName]

theorem run_append (s : State) (before after : List Event) :
    run outcome s (before ++ after) = run outcome (run outcome s before) after :=
  List.foldl_append

/-- Turns that are left at most. -/
def work (w : Worker) : Nat :=
  3 * w.queue.length + match w.phase with
    | .ready => 0
    | .fetching _ => 2
    | .delivered => 1

/-- A worker is at its end when there is no turn left for it. -/
theorem isFinished_iff (w : Worker) : w.isFinished = true ↔ w.work = 0 := by
  unfold isFinished work
  cases w.phase with
  | ready =>
      rw [Bool.and_eq_true, decide_eq_true_iff, List.isEmpty_iff_length_eq_zero]
      simp only [true_and]
      omega
  | fetching job => simp
  | delivered => simp

/-- Each turn uses up one of those that are left. -/
theorem work_turn (s : State) : (turn outcome s).2.work ≤ s.2.work - 1 := by
  obtain ⟨set, queue, phase, requests⟩ := s
  cases phase with
  | ready =>
      cases queue with
      | nil => exact Nat.le_refl _
      | cons job rest =>
          unfold turn look
          dsimp only
          split
          · simp [work]
          · split
            · simp [work]; omega
            · simp [work]; omega
  | fetching job => simp [turn, deliver, work]
  | delivered => simp [turn, count, work]

/-- So many turns bring the worker to its end, whatever happens between them. -/
theorem work_run (s : State) (events : List Event) :
    (run outcome s events).2.work ≤ s.2.work - events.count .turn := by
  induction events generalizing s with
  | nil => exact Nat.le_refl _
  | cons event rest ih =>
      have hRest := ih (event.act outcome s)
      cases event with
      | turn =>
          have hTurn : (turn outcome s).2.work ≤ s.2.work - 1 := work_turn s
          rw [List.count_cons_self]
          exact Nat.le_trans hRest (by simp only [Event.act]; omega)
      | clear =>
          rw [List.count_cons_of_ne (by decide)]
          exact hRest

/-- A worker neither renames images nor gives them up. -/
theorem turn_keeps (s : State) :
    (turn outcome s).1.disposed = s.1.disposed ∧ (turn outcome s).1.names = s.1.names := by
  obtain ⟨set, queue, phase, requests⟩ := s
  cases phase with
  | ready =>
      cases queue with
      | nil => exact ⟨rfl, rfl⟩
      | cons job rest =>
          have hKeeps := set.onSlot_keeps job.slot fun slot => slot.advance .pending .inProgress
          unfold turn look
          dsimp only
          split
          · exact ⟨rfl, rfl⟩
          · split
            · rename_i hStart
              rw [← RemoteSet.start, hStart] at hKeeps
              exact hKeeps
            · rename_i hStart
              rw [← RemoteSet.start, hStart] at hKeeps
              exact hKeeps
  | fetching job => exact set.onSlot_keeps job.slot _
  | delivered => exact ⟨rfl, rfl⟩

/-- In a run without such an event they stay wanted, and their names lead where they led. -/
theorem run_keeps (s : State) {events : List Event} (h : .clear ∉ events) :
    (run outcome s events).1.disposed = s.1.disposed ∧
      (run outcome s events).1.names = s.1.names := by
  induction events generalizing s with
  | nil => exact ⟨rfl, rfl⟩
  | cons event rest ih =>
      rw [List.mem_cons, not_or] at h
      cases event with
      | turn =>
          have hRest := ih (turn outcome s) h.2
          exact ⟨hRest.1.trans (turn_keeps s).1, hRest.2.trans (turn_keeps s).2⟩
      | clear => exact absurd rfl h.1

section DownloadAll

variable {fetch : Fetcher} {meanwhile : Text → RemoteSet → RemoteSet}
  (hMeanwhile : ∀ url set, meanwhile url set = set ∨ meanwhile url set = set.clear)
include hMeanwhile

/-- What happens during a fetch is an event or none at all. -/
theorem exists_run_meanwhile (outcome : Nat → Option Body) (url : Text) (set : RemoteSet)
    (w : Worker) :
    ∃ events, run outcome (set, w) events = (meanwhile url set, w) := by
  rcases hMeanwhile url set with hSame | hClear
  · exact ⟨[], by rw [hSame]; rfl⟩
  · exact ⟨[.clear], by rw [hClear]; rfl⟩

/-- It changes no address. -/
theorem url_meanwhile (url : Text) (set : RemoteSet) (job : Job) :
    (meanwhile url set).url job = set.url job := by
  rcases hMeanwhile url set with hSame | hClear
  · rw [hSame]
  · rw [hClear]
    rfl

/-- Doing all jobs at once is a run of the worker, if nothing happens meanwhile but that the images are
given up. -/
theorem exists_run_downloadAll (set : RemoteSet) (jobs : List Job) (requests : List Text)
    (hOutcome : ∀ job ∈ jobs, outcome job.slot = fetch (set.url job)) :
    ∃ events, run outcome (set, ⟨jobs, .ready, requests⟩) events =
      ((set.downloadAll fetch meanwhile jobs).1,
        ⟨[], .ready, requests ++ (set.downloadAll fetch meanwhile jobs).2⟩) := by
  induction jobs generalizing set requests with
  | nil => exact ⟨[], by simp [run, RemoteSet.downloadAll]⟩
  | cons job rest ih =>
      obtain ⟨hJob, hRest⟩ := List.forall_mem_cons.1 hOutcome
      have hUrl := set.url_start job
      rw [RemoteSet.downloadAll]
      cases hDisposed : set.disposed with
      | true => exact ⟨[.turn], by simp [run, Event.act, turn_of_disposed hDisposed]⟩
      | false =>
          cases hStart : set.start job with
          | mk next started =>
              rw [hStart] at hUrl
              cases started with
              | false =>
                  obtain ⟨events, hEvents⟩ := ih next requests fun other hMem =>
                    (hRest other hMem).trans (congrArg fetch (hUrl other).symm)
                  refine ⟨.turn :: events, ?_⟩
                  have hTurn : turn outcome (set, ⟨job :: rest, .ready, requests⟩) =
                      (next, ⟨rest, .ready, requests⟩) := by
                    simp [turn, look, hDisposed, hStart]
                  rw [run, List.foldl_cons, Event.act, hTurn]
                  exact hEvents
              | true =>
                  -- The fetch lasts from the first turn to the second one, so what happens meanwhile
                  -- comes between these two, and the third turn counts the download.
                  obtain ⟨during, hDuring⟩ := exists_run_meanwhile hMeanwhile outcome
                    (next.url job) next ⟨rest, .fetching job, requests ++ [next.url job]⟩
                  obtain ⟨events, hEvents⟩ := ih
                    ((meanwhile (next.url job) next).deliver job (fetch (next.url job))).count
                    (requests ++ [next.url job]) fun other hMem => by
                      rw [hRest other hMem, ← hUrl other, ← url_meanwhile hMeanwhile (next.url job)]
                      exact congrArg fetch (RemoteSet.url_deliver _ _ _ _).symm
                  refine ⟨.turn :: (during ++ .turn :: .turn :: events), ?_⟩
                  have hTurn : turn outcome (set, ⟨job :: rest, .ready, requests⟩) =
                      (next, ⟨rest, .fetching job, requests ++ [next.url job]⟩) := by
                    simp [turn, look, hDisposed, hStart]
                  rw [run, List.foldl_cons, ← run, Event.act, hTurn, run_append, hDuring, run,
                    List.foldl_cons, List.foldl_cons, ← run]
                  show run outcome (((meanwhile (next.url job) next).deliver job
                    (outcome job.slot)).count, ⟨rest, .ready, requests ++ [next.url job]⟩) events = _
                  rw [hJob, ← hUrl job]
                  rw [List.append_assoc] at hEvents
                  exact hEvents

end DownloadAll

end Worker

end Changelog
