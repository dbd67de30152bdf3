import Changelog.Proofs.Download.Interleaving

/-! The batches of one cache follow one another. Giving up the images does not end the worker that is at
work on them, but it stays the awaited one, and no batch begins before its end. So of all workers at most
the last one is at work, and it is the awaited one. -/

namespace Changelog

namespace Batches

/-- All workers but the awaited one are at their end, and that is the last one. -/
structure Orderly (b : Batches) : Prop where
  set_le {i : Nat} {w : BatchWorker} : b.workers[i]? = some w → w.set ≤ b.retired.length
  awaited_of_unfinished {i : Nat} {w : BatchWorker} : b.workers[i]? = some w →
    w.worker.isFinished = false → b.awaited = some i ∧ i + 1 = b.workers.length

theorem orderly_empty : Orderly {} :=
  ⟨nofun, nofun⟩

variable {b : Batches}

/-- When no worker is waited for, none is at work. -/
theorem Orderly.isFinished_of_not_running (h : b.Orderly) (hRunning : ¬b.isRunning = true) {i : Nat}
    {w : BatchWorker} (hWorker : b.workers[i]? = some w) : w.worker.isFinished = true := by
  cases hEnd : w.worker.isFinished with
  | true => rfl
  | false =>
      have hAwaited := (h.awaited_of_unfinished hWorker hEnd).1
      exact absurd (isRunning_iff.2 ⟨i, w, hAwaited, hWorker, hEnd⟩) hRunning

/-- An earlier worker than another one is at its end. -/
theorem Orderly.isFinished_of_lt (h : b.Orderly) {i j : Nat} {w : BatchWorker} (hLt : i < j)
    (hLength : j < b.workers.length) (hWorker : b.workers[i]? = some w) :
    w.worker.isFinished = true := by
  cases hEnd : w.worker.isFinished with
  | true => rfl
  | false =>
      have hLast := (h.awaited_of_unfinished hWorker hEnd).2
      omega

/-- Whoever is awaited then, all workers have ended, so that nobody has to be. -/
theorem Orderly.withAwaited (h : b.Orderly) (hRunning : ¬b.isRunning = true) (current : RemoteSet)
    (awaited : Option Nat) : Orderly { b with current, awaited } where
  set_le := h.set_le
  awaited_of_unfinished hWorker hAtWork := by
    rw [h.isFinished_of_not_running hRunning hWorker] at hAtWork
    cases hAtWork

/-- A new worker is started only when the others have ended, and it is the one to be awaited then. -/
theorem Orderly.spawn (h : b.Orderly) (hRunning : ¬b.isRunning = true) (images : List RemoteImage) :
    Orderly (b.spawn images) := by
  unfold Batches.spawn
  dsimp only
  split
  · exact h.withAwaited hRunning _ none
  · refine ⟨fun {i w} hWorker => ?_, fun {i w} hWorker hAtWork => ?_⟩
    · rcases List.mem_append.1 (List.mem_of_getElem? hWorker) with hOld | hNew
      · obtain ⟨j, hOld⟩ := List.mem_iff_getElem?.1 hOld
        exact h.set_le hOld
      · obtain rfl := List.mem_singleton.1 hNew
        exact Nat.le_refl _
    · by_cases hLt : i < b.workers.length
      · rw [List.getElem?_append_left hLt] at hWorker
        rw [h.isFinished_of_not_running hRunning hWorker] at hAtWork
        cases hAtWork
      · have hLe : i < b.workers.length + 1 := by
          simpa using (List.getElem?_eq_some_iff.1 hWorker).1
        obtain rfl : i = b.workers.length := by omega
        exact ⟨rfl, by simp⟩

/-- Giving up the images ends no worker and changes nobody who is awaited. -/
theorem Orderly.dispose (h : b.Orderly) : Orderly b.dispose where
  set_le hWorker := by
    have hOld := h.set_le hWorker
    simp only [Batches.dispose, List.length_append, List.length_singleton]
    omega
  awaited_of_unfinished hWorker hAtWork := h.awaited_of_unfinished hWorker hAtWork

/-- A worker can end by a move, but not begin again. -/
theorem Orderly.move (h : b.Orderly) (i : Nat) (m : Worker.Move) :
    Orderly (b.onWorker i m.act) := by
  have hOld {j : Nat} {w : BatchWorker} (hWorker : (b.onWorker i m.act).workers[j]? = some w) :
      ∃ old, b.workers[j]? = some old ∧ w.set = old.set ∧
        (old.worker.isFinished = true → w.worker.isFinished = true) := by
    rw [getElem?_workers_onWorker] at hWorker
    split at hWorker
    · obtain ⟨old, hOld, rfl⟩ := Option.map_eq_some_iff.1 hWorker
      refine ⟨old, hOld, rfl, fun hEnd => ?_⟩
      rw [m.act_of_isFinished (s := (b.set old.set, old.worker)) hEnd]
      exact hEnd
    · exact ⟨w, hWorker, rfl, id⟩
  refine ⟨fun {j w} hWorker => ?_, fun {j w} hWorker hAtWork => ?_⟩
  · obtain ⟨old, hOldWorker, hSet, -⟩ := hOld hWorker
    rw [hSet, length_retired_onWorker]
    exact h.set_le hOldWorker
  · obtain ⟨old, hOldWorker, -, hEnd⟩ := hOld hWorker
    rw [awaited_onWorker, length_workers_onWorker]
    refine h.awaited_of_unfinished hOldWorker (Bool.eq_false_iff.2 fun hFinished => ?_)
    rw [hEnd hFinished] at hAtWork
    cases hAtWork

end Batches

namespace ImageCache

variable {c c' : ImageCache} {event : Event} {i : Nat} {w : BatchWorker}

/-- Each event keeps the batches in order. Where a batch would begin too early, the event does not come to
its end. -/
theorem orderly_act? (h : c.downloads.Orderly) (hAct : c.act? event = some c') :
    c'.downloads.Orderly := by
  cases event with
  | insertPicture | insertFrames | lookup => cases hAct; exact h
  | begin images =>
      obtain ⟨hRunning, hSpawn⟩ := Option.ite_none_left_eq_some.1 hAct
      obtain rfl := Option.some.inj hSpawn
      exact h.spawn hRunning images
  | beginInVain images =>
      obtain ⟨hRunning, hRegister⟩ := Option.ite_none_left_eq_some.1 hAct
      obtain rfl := Option.some.inj hRegister
      exact h.withAwaited hRunning _ none
  | wait =>
      obtain ⟨hRunning, hReap⟩ := Option.ite_none_left_eq_some.1 hAct
      obtain rfl := Option.some.inj hReap
      exact h.withAwaited hRunning _ none
  | dispose => cases hAct; exact h.dispose
  | move i m => cases hAct; exact h.move i m

/-- A worker at its end stays as it is. -/
theorem getElem?_act?_of_isFinished (hWorker : c.downloads.workers[i]? = some w)
    (hEnd : w.worker.isFinished = true) (hAct : c.act? event = some c') :
    c'.downloads.workers[i]? = some w := by
  cases event with
  | insertPicture | insertFrames | lookup | dispose => cases hAct; exact hWorker
  | begin images =>
      obtain ⟨_, hSpawn⟩ := Option.ite_none_left_eq_some.1 hAct
      obtain rfl := Option.some.inj hSpawn
      unfold onDownloads Batches.spawn
      dsimp only
      split
      · exact hWorker
      · exact (List.getElem?_append_left (List.getElem?_eq_some_iff.1 hWorker).1).trans hWorker
  | beginInVain images =>
      obtain ⟨_, hRegister⟩ := Option.ite_none_left_eq_some.1 hAct
      obtain rfl := Option.some.inj hRegister
      exact hWorker
  | wait =>
      obtain ⟨_, hReap⟩ := Option.ite_none_left_eq_some.1 hAct
      obtain rfl := Option.some.inj hReap
      exact hWorker
  | move j m =>
      cases hAct
      show (c.downloads.onWorker j m.act).workers[i]? = some w
      rw [Batches.getElem?_workers_onWorker]
      split
      · rw [hWorker, Option.map_some,
          m.act_of_isFinished (s := (c.downloads.set w.set, w.worker)) hEnd]
      · exact hWorker

/-- All events together keep them in order. -/
theorem orderly_run? {events : List Event} (h : c.downloads.Orderly)
    (hRun : c.run? events = some c') : c'.downloads.Orderly := by
  induction events generalizing c with
  | nil => cases hRun; exact h
  | cons event rest ih =>
      obtain ⟨next, hAct, hRest⟩ := Option.bind_eq_some_iff.1 hRun
      exact ih (orderly_act? h hAct) hRest

/-- A worker at its end stays as it is, whatever is begun after it. -/
theorem getElem?_run?_of_isFinished {events : List Event}
    (hWorker : c.downloads.workers[i]? = some w) (hEnd : w.worker.isFinished = true)
    (hRun : c.run? events = some c') : c'.downloads.workers[i]? = some w := by
  induction events generalizing c with
  | nil => cases hRun; exact hWorker
  | cons event rest ih =>
      obtain ⟨next, hAct, hRest⟩ := Option.bind_eq_some_iff.1 hRun
      exact ih (getElem?_act?_of_isFinished hWorker hEnd hAct) hRest

/-- Whether a fetch of batch number `i` is under way. -/
def isFetching (c : ImageCache) (i : Nat) : Bool :=
  (c.downloads.workers[i]?).any fun w =>
    match w.worker.phase with
    | .fetching _ => true
    | .ready | .delivered => false

/-- The addresses that batch number `i` has started to fetch so far, in order. -/
def started (c : ImageCache) (i : Nat) : List Text :=
  ((c.downloads.workers[i]?).map fun w => w.worker.requests).getD []

/-- A fetch is under way only while its worker is not at its end. -/
theorem exists_worker_of_isFetching (h : c.isFetching i = true) :
    ∃ w, c.downloads.workers[i]? = some w ∧ w.worker.isFinished = false := by
  obtain ⟨w, hWorker, hFetching⟩ := (Option.any_eq_true _ _).1 h
  refine ⟨w, hWorker, ?_⟩
  unfold Worker.isFinished
  cases hPhase : w.worker.phase with
  | fetching job => rfl
  | ready | delivered => rw [hPhase] at hFetching; cases hFetching

theorem lt_length_of_started (h : c.started i ≠ []) : i < c.downloads.workers.length := by
  refine Nat.lt_of_not_le fun hLe => h ?_
  rw [started, List.getElem?_eq_none hLe]
  rfl

/-- However the events of a cache are interleaved, at most one fetch is under way at any moment. From
the moment a batch has started its first fetch, no fetch of an earlier batch is under way or started any
more. -/
theorem fetches_one_after_another (pictures : NameMap Texture) (animations : NameMap FrameSet)
    (before after : List Event) {mid final : ImageCache}
    (hMid : (opened pictures animations).run? before = some mid)
    (hFinal : mid.run? after = some final) :
    (∀ i j, mid.isFetching i = true → mid.isFetching j = true → i = j) ∧
      ∀ i j, i < j → mid.started j ≠ [] →
        final.isFetching i = false ∧ final.started i = mid.started i := by
  have hOrderly : mid.downloads.Orderly := orderly_run? Batches.orderly_empty hMid
  refine ⟨fun i j hi hj => ?_, fun i j hLt hStarted => ?_⟩
  · obtain ⟨_, hWorker, hAtWork⟩ := exists_worker_of_isFetching hi
    obtain ⟨_, hWorker', hAtWork'⟩ := exists_worker_of_isFetching hj
    have hLast := (hOrderly.awaited_of_unfinished hWorker hAtWork).2
    have hLast' := (hOrderly.awaited_of_unfinished hWorker' hAtWork').2
    omega
  · have hLength := lt_length_of_started hStarted
    have hWorker := List.getElem?_eq_getElem (Nat.lt_trans hLt hLength)
    have hEnd := hOrderly.isFinished_of_lt hLt hLength hWorker
    have hStays := getElem?_run?_of_isFinished hWorker hEnd hFinal
    refine ⟨Bool.eq_false_iff.2 fun hFetching => ?_, by rw [started, started, hStays, hWorker]⟩
    obtain ⟨_, hAgain, hAtWork⟩ := exists_worker_of_isFetching hFetching
    rw [hStays] at hAgain
    obtain rfl := Option.some.inj hAgain
    rw [hEnd] at hAtWork
    cases hAtWork

/-- The images are given up during the first fetch of a batch, and its worker still takes up the second
one. Meanwhile the next batch cannot begin; when it has begun, the first one is over. -/
theorem next_batch_after_disposed_one :
    let c := opened {} {}
    let during : List Event :=
      [.begin [⟨['a'], ['x']⟩, ⟨['b'], ['y']⟩], .move 0 (.turn none), .dispose,
        .move 0 (.turn (some (.image ⟨1, 1⟩))), .move 0 (.turn none), .move 0 .takeUp]
    let next : List Event :=
      [.move 0 (.turn none), .move 0 (.turn none), .begin [⟨['a'], ['z']⟩], .move 1 (.turn none)]
    c.run? (during ++ [.begin [⟨['a'], ['z']⟩]]) = none ∧
      ∃ mid final, c.run? (during ++ next) = some mid ∧ mid.run? [.move 0 .takeUp] = some final ∧
        mid.started 1 = [['z']] ∧ final.isFetching 0 = false ∧ final.started 0 = [['x'], ['y']] := by
  intro c during next
  let mid := (c.run? (during ++ next)).getD {}
  let final := (mid.run? [.move 0 .takeUp]).getD {}
  have hMid : c.run? (during ++ next) = some mid := by decide +kernel
  have hFinal : mid.run? [.move 0 .takeUp] = some final := by decide +kernel
  have hStarted : mid.started 1 = [['z']] := by decide +kernel
  obtain ⟨-, hEarlier⟩ := fetches_one_after_another {} {} (during ++ next) _ hMid hFinal
  obtain ⟨hFetching, hSame⟩ := hEarlier 0 1 Nat.zero_lt_one (by rw [hStarted]; nofun)
  refine ⟨by decide +kernel, mid, final, hMid, hFinal, hStarted, hFetching, hSame.trans ?_⟩
  decide +kernel

end ImageCache

end Changelog
