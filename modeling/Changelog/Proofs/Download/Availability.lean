import Changelog.Proofs.Download.Interleaving
import Changelog.Proofs.Layout.Sizes

/-! The counter and the sizes. A download that ends makes its texture available first and is counted
afterwards, so between the two the counter does not tell that there is a new size. Together with the
downloads that have ended and are still to be counted it does. -/

namespace Changelog

/-- A download that begins has no texture yet, and takes none away. -/
theorem Slot.texture?_advance_inProgress (s : Slot) :
    (s.advance .pending .inProgress).1.texture? = s.texture? := by
  by_cases hStatus : s.status = .pending
  · simp [advance, swapStatus, DownloadStatus.canAdvanceTo, hStatus, texture?]
  · simp [advance, swapStatus, DownloadStatus.canAdvanceTo, hStatus]

/-- Textures stay as they are unless an operation changes the one of its own slot. -/
theorem RemoteSet.texture?_onSlot (set : RemoteSet) (number : Nat) {operation : Slot → Slot × Bool}
    (h : ∀ slot, (operation slot).1.texture? = slot.texture?) (name : Text) :
    (set.onSlot number operation).1.texture? name = set.texture? name := by
  unfold onSlot
  split
  · rename_i slot hSlot
    obtain ⟨hLt, rfl⟩ := List.getElem?_eq_some_iff.1 hSlot
    unfold texture? get?
    cases set.names.get? name with
    | none => rfl
    | some other =>
        by_cases hNumber : number = other
        · simp [← hNumber, hLt, h]
        · simp [hNumber]
  · rfl

theorem RemoteSet.generation_onSlot (set : RemoteSet) (number : Nat)
    (operation : Slot → Slot × Bool) :
    (set.onSlot number operation).1.generation = set.generation := by
  unfold onSlot
  split
  · rfl
  · rfl

namespace Worker

/-- Whether the worker has ended a download that is not counted yet. -/
def isUncounted (w : Worker) : Bool :=
  w.phase = .delivered

/-- What an act of a worker can mean to those who read its set. -/
inductive Effect (s t : State) : Prop where
  /-- They see the same textures and the same counter. -/
  | quiet (hGeneration : t.1.generation = s.1.generation)
      (hTexture : ∀ name, t.1.texture? name = s.1.texture? name)
      (hPhase : t.2.isUncounted = s.2.isUncounted)
  /-- A download ends; the counter is as before. -/
  | ends (hGeneration : t.1.generation = s.1.generation)
      (hBefore : s.2.isUncounted = false) (hAfter : t.2.isUncounted = true)
  /-- A download that ended before is counted. -/
  | counts (hGeneration : t.1.generation = s.1.generation + 1)
      (hTexture : ∀ name, t.1.texture? name = s.1.texture? name)
      (hBefore : s.2.isUncounted = true) (hAfter : t.2.isUncounted = false)

/-- Starting a job is not seen by those who read textures and the counter. -/
theorem effect_of_start {set : RemoteSet} {job : Job} {w w' : Worker} {next : RemoteSet}
    {started : Bool} (hStart : set.start job = (next, started))
    (hPhase : w'.isUncounted = w.isUncounted) : Effect (set, w) (next, w') := by
  have hSame : (set.start job).1 = next := by rw [hStart]
  refine .quiet ?_ (fun name => ?_) hPhase
  · rw [← hSame]
    exact set.generation_onSlot _ _
  · rw [← hSame]
    exact set.texture?_onSlot _ Slot.texture?_advance_inProgress name

/-- A worker that takes up its next job is not seen either. -/
theorem effect_takeUp {s : State} (hReady : s.2.phase = .ready) : Effect s (takeUp s) := by
  obtain ⟨set, queue, phase, requests⟩ := s
  cases hReady
  cases queue with
  | nil => exact .quiet rfl (fun _ => rfl) rfl
  | cons job rest =>
      unfold takeUp
      dsimp only
      split
      · rename_i hStart
        exact effect_of_start hStart rfl
      · rename_i hStart
        exact effect_of_start hStart rfl

/-- Nor is one that looks for a job and finds none, or none that may still start. -/
theorem effect_look {s : State} (hReady : s.2.phase = .ready) : Effect s (look s.1 s.2) := by
  cases hDisposed : s.1.disposed with
  | false =>
      rw [look_eq_takeUp hReady hDisposed]
      exact effect_takeUp hReady
  | true =>
      obtain ⟨set, queue, phase, requests⟩ := s
      cases hReady
      cases queue with
      | nil => exact .quiet rfl (fun _ => rfl) rfl
      | cons job rest =>
          unfold look
          dsimp only at hDisposed ⊢
          rw [if_pos hDisposed]
          exact .quiet rfl (fun _ => rfl) rfl

/-- All that a move can do to those who read the set: a download is ended by one move and counted by
a later one. -/
theorem Move.effect (m : Move) (s : State) : Effect s (m.act s) := by
  obtain ⟨set, queue, phase, requests⟩ := s
  cases phase with
  | ready =>
      cases m with
      | turn => exact effect_look rfl
      | takeUp => exact effect_takeUp rfl
      | breakDown => exact .quiet rfl (fun _ => rfl) rfl
  | fetching job =>
      cases m with
      | turn => exact .ends (set.generation_onSlot _ _) rfl rfl
      | takeUp | breakDown => exact .quiet rfl (fun _ => rfl) rfl
  | delivered =>
      cases m with
      | turn => exact .counts rfl (fun _ => rfl) rfl rfl
      | takeUp | breakDown => exact .quiet rfl (fun _ => rfl) rfl

/-- A move after which an ended download is counted at once. -/
def Move.actCounted (m : Move) (s : State) : State :=
  let s := m.act s
  count s.1 s.2

/-- If downloads are counted as they end, a new size always comes with a new count. -/
theorem Move.generation_actCounted (m : Move) (s : State) :
    s.1.generation ≤ (m.actCounted s).1.generation ∧
      ((m.actCounted s).1.generation = s.1.generation →
        ∀ name, (m.actCounted s).1.texture? name = s.1.texture? name) := by
  have hCount : (m.actCounted s).1 =
      if (m.act s).2.isUncounted then (m.act s).1.count else (m.act s).1 := by
    unfold actCounted
    obtain ⟨set, queue, phase, requests⟩ := m.act s
    cases phase with
    | ready | fetching | delivered => rfl
  rw [hCount]
  cases m.effect s with
  | quiet hGeneration hTexture =>
      split
      · simp [RemoteSet.count, hGeneration]
      · exact ⟨Nat.le_of_eq hGeneration.symm, fun _ => hTexture⟩
  | ends hGeneration _ hAfter => simp [hAfter, RemoteSet.count, hGeneration]
  | counts hGeneration _ _ hAfter => simp [hAfter, hGeneration]

end Worker

namespace Batches

variable {b : Batches} {i : Nat} {w : BatchWorker}

/-- Only the workers on the current set change it. -/
theorem current_onWorker (hWorker : b.workers[i]? = some w) (act : Worker.State → Worker.State) :
    (b.onWorker i act).current =
      if w.set < b.retired.length then b.current else (act (b.current, w.worker)).1 := by
  rw [onWorker_eq hWorker]
  show (b.putSet _ _).current = _
  rw [current_putSet]
  split
  · rfl
  · rename_i hLt
    rw [set, List.getElem?_eq_none (Nat.le_of_not_lt hLt), Option.getD_none]

/-- Whether a worker has ended a download of the current set that is not counted yet. -/
def owes (b : Batches) (w : BatchWorker) : Bool :=
  b.retired.length ≤ w.set && w.worker.isUncounted

/-- The downloads of the current set that have ended: those counted and those still to be counted. -/
def available (b : Batches) : Nat :=
  b.current.generation + b.workers.countP b.owes

/-- Of the workers only the one that acts can come to owe a count, or no longer owe it. -/
theorem countP_owes_onWorker (hWorker : b.workers[i]? = some w)
    (act : Worker.State → Worker.State) :
    (b.onWorker i act).workers.countP (b.onWorker i act).owes + (if b.owes w then 1 else 0) =
      b.workers.countP b.owes +
        (if b.owes { w with worker := (act (b.set w.set, w.worker)).2 } then 1 else 0) := by
  have hOwes : (b.onWorker i act).owes = b.owes := by
    funext other
    rw [owes, owes, length_retired_onWorker]
  obtain ⟨hLt, rfl⟩ := List.getElem?_eq_some_iff.1 hWorker
  have hOne := List.boole_getElem_le_countP (p := b.owes) hLt
  rw [hOwes, onWorker_eq hWorker, List.countP_set hLt]
  omega

/-- What a worker on an abandoned set does counts for nothing. -/
theorem available_onWorker_of_retired (hWorker : b.workers[i]? = some w)
    (hRetired : w.set < b.retired.length) (act : Worker.State → Worker.State) :
    (b.onWorker i act).available = b.available := by
  have hOwed := countP_owes_onWorker hWorker act
  have hNever (worker : Worker) : b.owes ⟨w.set, worker⟩ = false := by
    rw [owes, decide_eq_false (Nat.not_le_of_lt hRetired), Bool.false_and]
  rw [hNever, hNever] at hOwed
  rw [available, available, current_onWorker hWorker, if_pos hRetired]
  exact congrArg _ hOwed

/-- The balance of one act on the current set: what its worker owes passes into the counter, and nothing is
lost on the way. -/
theorem available_onWorker (hWorker : b.workers[i]? = some w) (hSet : b.retired.length ≤ w.set)
    (act : Worker.State → Worker.State) :
    (b.onWorker i act).available + b.current.generation +
        (if w.worker.isUncounted then 1 else 0) =
      b.available + (act (b.current, w.worker)).1.generation +
        (if (act (b.current, w.worker)).2.isUncounted then 1 else 0) := by
  have hOwed := countP_owes_onWorker hWorker act
  have hOwes (worker : Worker) : b.owes ⟨w.set, worker⟩ = worker.isUncounted := by
    rw [owes, decide_eq_true hSet, Bool.true_and]
  rw [hOwes, hOwes, set, List.getElem?_eq_none hSet, Option.getD_none] at hOwed
  rw [available, available, current_onWorker hWorker, if_neg (Nat.not_lt_of_le hSet)]
  omega

/-- A move never takes back an ended download, and no texture changes but by the end of a download. -/
theorem available_move (b : Batches) (i : Nat) (m : Worker.Move) :
    b.available ≤ (b.onWorker i m.act).available ∧
      ((b.onWorker i m.act).available = b.available →
        ∀ name, (b.onWorker i m.act).current.texture? name = b.current.texture? name) := by
  cases hWorker : b.workers[i]? with
  | none =>
      rw [onWorker_of_none hWorker]
      exact ⟨Nat.le_refl _, fun _ _ => rfl⟩
  | some w =>
      have hCurrent := current_onWorker hWorker m.act
      split at hCurrent
      · rename_i hRetired
        rw [available_onWorker_of_retired hWorker hRetired, hCurrent]
        exact ⟨Nat.le_refl _, fun _ _ => rfl⟩
      · rename_i hSet
        have hAvailable := available_onWorker hWorker (Nat.le_of_not_lt hSet) m.act
        rw [hCurrent]
        cases m.effect (b.current, w.worker) with
        | quiet hGeneration hTexture hPhase =>
            dsimp only at hGeneration hPhase
            rw [hGeneration, hPhase] at hAvailable
            exact ⟨by omega, fun _ => hTexture⟩
        | ends hGeneration hBefore hAfter =>
            dsimp only at hGeneration hBefore
            simp only [hGeneration, hBefore, hAfter, Bool.false_eq_true, if_false, if_true] at hAvailable
            exact ⟨by omega, fun hSame => by omega⟩
        | counts hGeneration hTexture hBefore hAfter =>
            dsimp only at hGeneration hBefore
            simp only [hGeneration, hBefore, hAfter, Bool.false_eq_true, if_false, if_true] at hAvailable
            exact ⟨by omega, fun _ => hTexture⟩

/-- If downloads are counted as they end, no texture changes but with the counter. -/
theorem generation_moveCounted (b : Batches) (i : Nat) (m : Worker.Move) :
    b.current.generation ≤ (b.onWorker i m.actCounted).current.generation ∧
      ((b.onWorker i m.actCounted).current.generation = b.current.generation →
        ∀ name, (b.onWorker i m.actCounted).current.texture? name = b.current.texture? name) := by
  cases hWorker : b.workers[i]? with
  | none =>
      rw [onWorker_of_none hWorker]
      exact ⟨Nat.le_refl _, fun _ _ => rfl⟩
  | some w =>
      rw [current_onWorker hWorker]
      split
      · exact ⟨Nat.le_refl _, fun _ _ => rfl⟩
      · exact m.generation_actCounted (b.current, w.worker)

/-- Once all workers have come to their end, every ended download is counted. -/
theorem available_eq_generation (h : ∀ w ∈ b.workers, w.worker.isFinished = true) :
    b.available = b.current.generation := by
  have hNone : b.workers.countP b.owes = 0 := by
    rw [List.countP_eq_zero]
    intro w hMem
    have hReady : w.worker.phase = .ready := by
      simpa [Worker.isFinished] using (Bool.and_eq_true_iff.1 (h w hMem)).1
    simp [owes, Worker.isUncounted, hReady]
  rw [available, hNone, Nat.add_zero]

end Batches

namespace ImageCache

def available (c : ImageCache) : Nat :=
  c.downloads.available

/-- From images to later ones the animations stay, a clock does not go back, and while it stands still
no size changes. -/
structure TimedBy (clock : ImageCache → Nat) (c c' : ImageCache) : Prop where
  animations : c'.animations = c.animations
  clock_le : clock c ≤ clock c'
  sizes : clock c' = clock c → c.SameSizes c'

namespace TimedBy

variable {clock : ImageCache → Nat} {c c' c'' : ImageCache}

theorem refl (clock : ImageCache → Nat) (c : ImageCache) : TimedBy clock c c :=
  ⟨rfl, Nat.le_refl _, fun _ => .refl c⟩

theorem trans (h : TimedBy clock c c') (h' : TimedBy clock c' c'') : TimedBy clock c c'' where
  animations := h'.animations.trans h.animations
  clock_le := Nat.le_trans h.clock_le h'.clock_le
  sizes hClock := by
    have hFirst : clock c' = clock c := Nat.le_antisymm (hClock ▸ h'.clock_le) h.clock_le
    exact (h.sizes hFirst).trans (h'.sizes (hClock.trans hFirst.symm))

end TimedBy

/-- Measured by the ended downloads, no size changes without the clock. -/
theorem timedBy_available_move (c : ImageCache) (i : Nat) (m : Worker.Move) :
    TimedBy available c (c.onDownloads fun b => b.onWorker i m.act) :=
  have hMove := c.downloads.available_move i m
  ⟨rfl, hMove.1, fun hClock => .onDownloads (hMove.2 hClock)⟩

/-- If downloads are counted as they end, the counter is such a clock by itself. -/
theorem timedBy_generation_moveCounted (c : ImageCache) (i : Nat) (m : Worker.Move) :
    TimedBy generation c (c.onDownloads fun b => b.onWorker i m.actCounted) :=
  have hMove := c.downloads.generation_moveCounted i m
  ⟨rfl, hMove.1, fun hClock => .onDownloads (hMove.2 hClock)⟩

end ImageCache

end Changelog
