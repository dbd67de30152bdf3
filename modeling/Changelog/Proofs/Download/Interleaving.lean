import Changelog.Image.Cache
import Changelog.Proofs.Download.Turn

/-! One image cache and all the workers that it has started. What its owner asks of it and what the
workers do comes in any order; only that beginning a batch and waiting do not come to their end while the
awaited worker is still at work. -/

namespace Changelog

namespace Worker

/-- The worker takes up its next job without another look, unless the job was taken up before. -/
def takeUp (s : State) : State :=
  match s.2.queue with
  | job :: rest =>
    match s.1.start job with
    | (set, true) => (set, ⟨rest, .fetching job, s.2.requests ++ [set.url job]⟩)
    | (set, false) => (set, { s.2 with queue := rest })
  | [] => s

/-- While the images are wanted, the look makes no difference. -/
theorem look_eq_takeUp {s : State} (hReady : s.2.phase = .ready) (hWanted : s.1.disposed = false) :
    look s.1 s.2 = takeUp s := by
  obtain ⟨set, queue, phase, requests⟩ := s
  cases hReady
  cases queue with
  | nil => rfl
  | cons job rest =>
      unfold look takeUp
      dsimp only at hWanted ⊢
      exact if_neg (hWanted ▸ Bool.false_ne_true)

/-- What a worker does next. A look at the images and the start of the fetch are one turn, but the
images may also be given up between the two. When a worker has looked is not recorded: it may take up a
job at any time without another look, so it has all the runs that it has in truth, and more. -/
inductive Move where
  /-- A turn; if a fetch is under way, it ends and has brought `body`. -/
  | turn (body : Option Body)
  /-- A job is taken up, the images having been found wanted before. -/
  | takeUp
  /-- The fetch under way breaks down, and its worker with it. -/
  | breakDown
deriving DecidableEq, Repr

def Move.act : Move → State → State
  | .turn body, s => Worker.turn (fun _ => body) s
  | .takeUp, s => match s.2.phase with
    | .ready => Worker.takeUp s
    | _ => s
  | .breakDown, s => match s.2.phase with
    | .fetching _ => (s.1, { s.2 with queue := [], phase := .ready })
    | _ => s

/-- A worker at its end makes no move any more. -/
theorem Move.act_of_isFinished (m : Move) {s : State} (h : s.2.isFinished = true) : m.act s = s := by
  obtain ⟨set, queue, phase, requests⟩ := s
  rw [isFinished, Bool.and_eq_true, decide_eq_true_iff, List.isEmpty_iff] at h
  obtain ⟨rfl, rfl⟩ := h
  cases m with
  | turn | takeUp | breakDown => rfl

end Worker

namespace Batches

variable {b : Batches} {i : Nat} {w : BatchWorker} {act : Worker.State → Worker.State}

/-- A worker acts on the set that it was started for, be it the current one or an abandoned one. -/
theorem onWorker_eq (h : b.workers[i]? = some w) (act : Worker.State → Worker.State) :
    b.onWorker i act =
      { b.putSet w.set (act (b.set w.set, w.worker)).1 with
        workers := b.workers.set i { w with worker := (act (b.set w.set, w.worker)).2 } } := by
  unfold onWorker
  rw [h]

theorem onWorker_of_none (h : b.workers[i]? = none) (act : Worker.State → Worker.State) :
    b.onWorker i act = b := by
  unfold onWorker
  rw [h]

@[simp] theorem putSet_set (b : Batches) (number : Nat) : b.putSet number (b.set number) = b := by
  unfold putSet set
  split
  · rename_i hLt
    rw [List.getElem?_eq_getElem hLt, Option.getD_some, List.set_getElem_self]
  · rename_i hLt
    rw [List.getElem?_eq_none (Nat.le_of_not_lt hLt), Option.getD_none]

@[simp] theorem awaited_putSet (b : Batches) (number : Nat) (set : RemoteSet) :
    (b.putSet number set).awaited = b.awaited := by
  unfold putSet
  split
  · rfl
  · rfl

@[simp] theorem length_retired_putSet (b : Batches) (number : Nat) (set : RemoteSet) :
    (b.putSet number set).retired.length = b.retired.length := by
  unfold putSet
  split
  · exact List.length_set
  · rfl

theorem current_putSet (b : Batches) (number : Nat) (set : RemoteSet) :
    (b.putSet number set).current = if number < b.retired.length then b.current else set := by
  unfold putSet
  split
  · rfl
  · rfl

@[simp] theorem awaited_onWorker : (b.onWorker i act).awaited = b.awaited := by
  cases hWorker : b.workers[i]? with
  | none => rw [onWorker_of_none hWorker]
  | some w => rw [onWorker_eq hWorker]; exact awaited_putSet _ _ _

@[simp] theorem length_retired_onWorker :
    (b.onWorker i act).retired.length = b.retired.length := by
  cases hWorker : b.workers[i]? with
  | none => rw [onWorker_of_none hWorker]
  | some w => rw [onWorker_eq hWorker]; exact length_retired_putSet _ _ _

@[simp] theorem length_workers_onWorker :
    (b.onWorker i act).workers.length = b.workers.length := by
  cases hWorker : b.workers[i]? with
  | none => rw [onWorker_of_none hWorker]
  | some w => rw [onWorker_eq hWorker]; exact List.length_set

/-- Of the workers only the one that acts is changed, and it keeps its set. -/
theorem getElem?_workers_onWorker (j : Nat) :
    (b.onWorker i act).workers[j]? =
      if i = j then b.workers[j]?.map fun w =>
        { w with worker := (act (b.set w.set, w.worker)).2 }
      else b.workers[j]? := by
  cases hWorker : b.workers[i]? with
  | none =>
      rw [onWorker_of_none hWorker]
      split
      · rename_i hEq
        rw [← hEq, hWorker, Option.map_none]
      · rfl
  | some w =>
      rw [onWorker_eq hWorker]
      split
      · rename_i hEq
        rw [← hEq, hWorker, Option.map_some]
        exact List.getElem?_set_self (List.getElem?_eq_some_iff.1 hWorker).1
      · rename_i hNe
        exact List.getElem?_set_ne hNe

/-- A worker that does nothing changes nothing. -/
theorem onWorker_of_fixed (hWorker : b.workers[i]? = some w)
    (hAct : act (b.set w.set, w.worker) = (b.set w.set, w.worker)) : b.onWorker i act = b := by
  obtain ⟨hLt, rfl⟩ := List.getElem?_eq_some_iff.1 hWorker
  rw [onWorker_eq hWorker, hAct]
  dsimp only
  rw [putSet_set, List.set_getElem_self]

/-- A worker is waited for and has not come to its end. -/
theorem isRunning_iff :
    b.isRunning = true ↔
      ∃ i w, b.awaited = some i ∧ b.workers[i]? = some w ∧ w.worker.isFinished = false := by
  simp only [isRunning, Option.any_eq_true, Option.bind_eq_some_iff, Bool.not_eq_true']
  exact ⟨fun ⟨w, ⟨i, hAwaited, hWorker⟩, hAtWork⟩ => ⟨i, w, hAwaited, hWorker, hAtWork⟩,
    fun ⟨i, w, hAwaited, hWorker, hAtWork⟩ => ⟨w, ⟨i, hAwaited, hWorker⟩, hAtWork⟩⟩

/-- The awaited worker has ended and is waited for no more. -/
def reap (b : Batches) : Batches :=
  { b with awaited := none }

/-- Registers images, but no worker can be started for them. -/
def registerOnly (images : List RemoteImage) (b : Batches) : Batches :=
  { b with current := (b.current.register images).1, awaited := none }

end Batches

namespace ImageCache

/-- What is asked of a cache, and what its workers do meanwhile. -/
inductive Event where
  | insertPicture (name : Text) (texture : Texture)
  | insertFrames (name : Text) (frames : FrameSet)
  | lookup (name : Text)
  | begin (images : List RemoteImage)
  /-- A batch is begun, but its worker cannot be started. -/
  | beginInVain (images : List RemoteImage)
  | wait
  | dispose
  | move (worker : Nat) (move : Worker.Move)
deriving DecidableEq, Repr

/-- What an event leaves; nothing as long as it has to wait for the awaited worker. -/
def act? (c : ImageCache) : Event → Option ImageCache
  | .insertPicture name texture => some (c.insertPicture name texture)
  | .insertFrames name frames => some (c.insertFrames name frames)
  | .lookup _ => some c
  | .begin images =>
    if c.downloads.isRunning then none else some (c.onDownloads (Batches.spawn images))
  | .beginInVain images =>
    if c.downloads.isRunning then none else some (c.onDownloads (Batches.registerOnly images))
  | .wait => if c.downloads.isRunning then none else some (c.onDownloads Batches.reap)
  | .dispose => some c.dispose.1
  | .move i m => some (c.onDownloads fun b => b.onWorker i m.act)

def run? (c : ImageCache) (events : List Event) : Option ImageCache :=
  events.foldlM act? c

theorem run?_nil (c : ImageCache) : c.run? [] = some c := rfl

theorem run?_cons (c : ImageCache) (event : Event) (rest : List Event) :
    c.run? (event :: rest) = (c.act? event).bind fun c => c.run? rest := rfl

theorem run?_append (c : ImageCache) (before after : List Event) :
    c.run? (before ++ after) = (c.run? before).bind fun c => c.run? after :=
  List.foldlM_append

/-- A cache before its first download, as `load` leaves it. -/
def opened (pictures : NameMap Texture) (animations : NameMap FrameSet) : ImageCache :=
  { pictures, animations }

end ImageCache

namespace Worker

/-- The worker comes from one state to another by moves. -/
def Reaches (s t : State) : Prop :=
  ∃ moves : List Move, moves.foldl (fun s m => m.act s) s = t

theorem Reaches.refl (s : State) : Reaches s s :=
  ⟨[], rfl⟩

theorem Reaches.trans {s t u : State} (h : Reaches s t) (h' : Reaches t u) : Reaches s u := by
  obtain ⟨moves, rfl⟩ := h
  obtain ⟨moves', rfl⟩ := h'
  exact ⟨moves ++ moves', List.foldl_append⟩

/-- Looking for a job is a move, if there is one to make. -/
theorem reaches_look (s : State) : Reaches s (look s.1 s.2) := by
  obtain ⟨set, queue, phase, requests⟩ := s
  cases phase with
  | ready => exact ⟨[.turn none], rfl⟩
  | fetching job => exact .refl _
  | delivered => exact .refl _

/-- The end of a fetch takes two moves: the texture is stored, and the download is counted. -/
theorem reaches_endFetch (fetch : Fetcher) (s : State) : Reaches s (endFetch fetch s) := by
  obtain ⟨set, queue, phase, requests⟩ := s
  cases phase with
  | ready => exact .refl _
  | fetching job => exact ⟨[.turn (fetch (set.url job)), .turn none], rfl⟩
  | delivered => exact ⟨[.turn none], rfl⟩

theorem reaches_lookOn (fuel : Nat) (s : State) : Reaches s (lookOn fuel s) := by
  induction fuel generalizing s with
  | zero => exact .refl s
  | succ fuel ih =>
      rw [lookOn]
      split
      · exact (reaches_look s).trans (ih _)
      · exact .refl s

theorem reaches_pass (fetch : Fetcher) (s : State) : Reaches s (pass fetch s) :=
  (reaches_endFetch fetch s).trans (reaches_lookOn _ _)

/-- Passing on from fetch to fetch is made of moves as well. -/
theorem reaches_passOn (fetch : Fetcher) (fuel : Nat) (s : State) :
    Reaches s (passOn fetch fuel s) := by
  induction fuel generalizing s with
  | zero => exact .refl s
  | succ fuel ih => exact (reaches_pass fetch s).trans (ih _)

/-- And so is all that a worker does until its end, so nothing that a cache waits for goes beyond the
moves. -/
theorem reaches_toEnd (fetch : Fetcher) (s : State) : Reaches s (toEnd fetch s) :=
  reaches_passOn fetch _ s

/-- A look at a job leaves fewer of them. -/
theorem length_queue_look (set : RemoteSet) {w : Worker} (hReady : w.phase = .ready)
    (hQueue : w.queue ≠ []) : (look set w).2.queue.length < w.queue.length := by
  obtain ⟨queue, phase, requests⟩ := w
  cases hReady
  cases queue with
  | nil => exact absurd rfl hQueue
  | cons job rest =>
      unfold look
      dsimp only
      split
      · exact Nat.succ_pos _
      · split
        · exact Nat.lt_succ_self _
        · exact Nat.lt_succ_self _

/-- Looking on leads to the end, or into a fetch with fewer jobs left. -/
theorem isFinished_or_lookOn (fuel : Nat) {s : State} (hReady : s.2.phase = .ready)
    (hFuel : s.2.queue.length < fuel) :
    (lookOn fuel s).2.isFinished = true ∨ (lookOn fuel s).2.queue.length < s.2.queue.length := by
  induction fuel generalizing s with
  | zero => exact absurd hFuel (Nat.not_lt_zero _)
  | succ fuel ih =>
      rw [lookOn, if_pos hReady]
      by_cases hQueue : s.2.queue = []
      · have hEnd : s.2.isFinished = true := by simp [isFinished, hReady, hQueue]
        have hStay : look s.1 s.2 = s := by
          obtain ⟨set, queue, phase, requests⟩ := s
          cases hReady
          cases hQueue
          rfl
        -- there is nothing left to look for, however often it is done
        rw [hStay]
        cases fuel with
        | zero => exact .inl hEnd
        | succ fuel =>
            rcases ih hReady (by rw [hQueue]; exact Nat.succ_pos fuel) with hDone | hLess
            · exact .inl hDone
            · rw [hQueue] at hLess
              exact absurd hLess (Nat.not_lt_zero _)
      · have hLess := length_queue_look s.1 hReady hQueue
        by_cases hNext : (look s.1 s.2).2.phase = .ready
        · exact (ih hNext (by omega)).imp_right fun h => Nat.lt_trans h hLess
        · refine .inr ?_
          cases fuel with
          | zero => exact hLess
          | succ fuel => rw [lookOn, if_neg hNext]; exact hLess

/-- After a fetch the worker is between two jobs and has as many left as before. -/
theorem endFetch_keeps (fetch : Fetcher) (s : State) :
    (endFetch fetch s).2.phase = .ready ∧ (endFetch fetch s).2.queue = s.2.queue := by
  obtain ⟨set, queue, phase, requests⟩ := s
  cases phase with
  | ready | fetching | delivered => exact ⟨rfl, rfl⟩

/-- Passing on ends the worker or uses up a job. This is why waiting comes to an end. -/
theorem isFinished_or_pass (fetch : Fetcher) (s : State) :
    (pass fetch s).2.isFinished = true ∨ (pass fetch s).2.queue.length < s.2.queue.length := by
  obtain ⟨hReady, hQueue⟩ := endFetch_keeps fetch s
  have hNext := isFinished_or_lookOn _ hReady (Nat.lt_succ_self _)
  rw [hQueue] at hNext
  rwa [pass, toNextFetch, hQueue]

theorem isFinished_passOn (fetch : Fetcher) (fuel : Nat) {s : State}
    (h : s.2.isFinished = true ∨ s.2.queue.length < fuel) :
    (passOn fetch fuel s).2.isFinished = true := by
  induction fuel generalizing s with
  | zero => exact h.resolve_right (Nat.not_lt_zero _)
  | succ fuel ih =>
      refine ih ((isFinished_or_pass fetch s).imp_right fun hLess => ?_)
      rcases h with hDone | hFuel
      · rw [isFinished, Bool.and_eq_true, List.isEmpty_iff] at hDone
        rw [hDone.2] at hLess
        exact absurd hLess (Nat.not_lt_zero _)
      · omega

/-- The fuel is enough: a worker that goes on to its end is at its end. -/
theorem isFinished_toEnd (fetch : Fetcher) (s : State) : (toEnd fetch s).2.isFinished = true :=
  isFinished_passOn fetch _ (.inr (Nat.lt_succ_self _))

end Worker

namespace Batches

variable {b : Batches} {i : Nat}

/-- Two acts of one worker, one after the other, are one act. -/
theorem onWorker_comp (b : Batches) (i : Nat) (act next : Worker.State → Worker.State) :
    (b.onWorker i act).onWorker i next = b.onWorker i fun s => next (act s) := by
  cases hWorker : b.workers[i]? with
  | none => rw [onWorker_of_none hWorker, onWorker_of_none hWorker, onWorker_of_none hWorker]
  | some w =>
      have hNext : (b.onWorker i act).workers[i]? =
          some { w with worker := (act (b.set w.set, w.worker)).2 } := by
        rw [getElem?_workers_onWorker, if_pos rfl, hWorker, Option.map_some]
      rw [onWorker_eq hNext, onWorker_eq hWorker, onWorker_eq hWorker]
      by_cases hLt : w.set < b.retired.length
      · simp [putSet, set, hLt]
      · simp [putSet, set, hLt]

theorem onWorker_id (b : Batches) (i : Nat) : (b.onWorker i fun s => s) = b := by
  cases hWorker : b.workers[i]? with
  | none => exact onWorker_of_none hWorker _
  | some w => exact onWorker_of_fixed hWorker rfl

/-- A worker that is waited for with all that it still has to do is at its end. -/
theorem isRunning_onAwaited_toEnd (fetch : Fetcher) (b : Batches) :
    (b.onAwaited (Worker.toEnd fetch)).isRunning = false := by
  rw [Bool.eq_false_iff]
  intro hRunning
  obtain ⟨i, w, hAwaited, hWorker, hAtWork⟩ := isRunning_iff.1 hRunning
  unfold onAwaited at hAwaited hWorker
  cases hOld : b.awaited with
  | none => rw [hOld] at hAwaited; exact absurd (hOld.symm.trans hAwaited) nofun
  | some j =>
      rw [hOld] at hAwaited hWorker
      dsimp only at hAwaited hWorker
      rw [awaited_onWorker, hOld] at hAwaited
      obtain rfl := Option.some.inj hAwaited
      rw [getElem?_workers_onWorker, if_pos rfl] at hWorker
      obtain ⟨old, _, rfl⟩ := Option.map_eq_some_iff.1 hWorker
      rw [Worker.isFinished_toEnd] at hAtWork
      cases hAtWork

end Batches

namespace ImageCache

/-- Moves of one worker are never held up, and together they are one act of it. -/
theorem run?_moves (c : ImageCache) (i : Nat) (moves : List Worker.Move) :
    c.run? (moves.map (.move i)) =
      some (c.onDownloads fun b => b.onWorker i fun s => moves.foldl (fun s m => m.act s) s) := by
  induction moves generalizing c with
  | nil => simp only [List.map_nil, run?_nil, List.foldl_nil, onDownloads, Batches.onWorker_id]
  | cons m rest ih =>
      rw [List.map_cons, run?_cons, act?, Option.bind_some, ih]
      simp only [onDownloads, Batches.onWorker_comp, List.foldl_cons]

/-- What a worker can do by moves is a run of the cache. -/
theorem exists_run?_onWorker (c : ImageCache) (i : Nat) {act : Worker.State → Worker.State}
    (hAct : ∀ s, Worker.Reaches s (act s)) :
    ∃ events, c.run? events = some (c.onDownloads fun b => b.onWorker i act) := by
  cases hWorker : c.downloads.workers[i]? with
  | none => exact ⟨[], by rw [onDownloads, Batches.onWorker_of_none hWorker]; rfl⟩
  | some w =>
      obtain ⟨moves, hMoves⟩ := hAct (c.downloads.set w.set, w.worker)
      refine ⟨moves.map (.move i), ?_⟩
      rw [run?_moves, onDownloads, onDownloads, Batches.onWorker_eq hWorker,
        Batches.onWorker_eq hWorker, hMoves]

theorem exists_run?_onAwaited (c : ImageCache) {act : Worker.State → Worker.State}
    (hAct : ∀ s, Worker.Reaches s (act s)) :
    ∃ events, c.run? events = some (c.onDownloads fun b => b.onAwaited act) := by
  unfold Batches.onAwaited
  cases hAwaited : c.downloads.awaited with
  | none => exact ⟨[], by simp only [onDownloads, hAwaited]; rfl⟩
  | some i =>
      obtain ⟨events, hEvents⟩ := c.exists_run?_onWorker i hAct
      exact ⟨events, by simpa only [onDownloads, hAwaited] using hEvents⟩

/-- Letting a fetch end, and going on to the next one, is a run. -/
theorem exists_run?_release (fetch : Fetcher) (c : ImageCache) :
    ∃ events, c.run? events = some (c.onDownloads (Batches.release fetch)) :=
  c.exists_run?_onAwaited (Worker.reaches_pass fetch)

/-- Waiting, with all that the worker still has to do, is a run. -/
theorem exists_run?_wait (fetch : Fetcher) (c : ImageCache) :
    ∃ events, c.run? events = some (c.onDownloads (Batches.wait fetch)) := by
  obtain ⟨events, hEvents⟩ := c.exists_run?_onAwaited (Worker.reaches_toEnd fetch)
  refine ⟨events ++ [.wait], ?_⟩
  have hDone : (c.onDownloads fun b => b.onAwaited (Worker.toEnd fetch)).downloads.isRunning = false :=
    Batches.isRunning_onAwaited_toEnd fetch c.downloads
  rw [run?_append, hEvents, Option.bind_some, run?_cons, act?, if_neg (Bool.eq_false_iff.1 hDone)]
  rfl

/-- Beginning a batch, up to its first fetch, is a run. -/
theorem exists_run?_begin (fetch : Fetcher) (images : List RemoteImage) (c : ImageCache) :
    ∃ events, c.run? events = some (c.onDownloads (Batches.begin fetch images)) := by
  obtain ⟨waiting, hWaiting⟩ := c.exists_run?_wait fetch
  let waited := c.onDownloads (Batches.wait fetch)
  let begun := waited.onDownloads (Batches.spawn images)
  obtain ⟨first, hFirst⟩ := begun.exists_run?_onAwaited fun s => Worker.reaches_lookOn _ s
  refine ⟨waiting ++ .begin images :: first, ?_⟩
  rw [run?_append, hWaiting, Option.bind_some, run?_cons, act?]
  exact hFirst

end ImageCache

end Changelog
