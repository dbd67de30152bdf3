import Changelog.Download.Slot
import Mathlib.Data.List.Destutter

/-! A slot that any number of callers share. A call is made of single accesses to the slot: the status is
read or exchanged, the texture is stored or read. Each access happens at once, and the accesses of
different calls come in any order. What is lost or delayed between processors is not described here. -/

namespace Changelog

/-- There are two steps: from pending to in progress, and from there to an end. -/
theorem DownloadStatus.canAdvanceTo_iff {a b : DownloadStatus} :
    a.canAdvanceTo b = true ↔
      (a = .pending ∧ b = .inProgress) ∨ (a = .inProgress ∧ b.isTerminal = true) := by
  cases a <;> cases b <;> decide

namespace Slot

/-- What a caller asks of a slot. -/
inductive Request where
  | start
  | complete (texture : Texture)
  | fail
  | read
deriving DecidableEq, Repr

/-- A call by the access that comes next, or by its answer. -/
inductive Call where
  | asking (request : Request)
  /-- The download was in progress; next the texture is stored. -/
  | storing (texture : Texture)
  /-- The texture has been stored; next the status becomes success. -/
  | ending
  /-- The download was a success; next the texture is read. -/
  | reading
  | answered (done : Bool)
  /-- The status that a reader saw, and what it obtained. -/
  | obtained (seen : DownloadStatus) (texture : Option Texture)
deriving DecidableEq, Repr

/-- The next access of a call. A call that has its answer makes none. -/
def access (s : Slot) : Call → Slot × Call
  | .asking .start => (s.advance .pending .inProgress).map id .answered
  | .asking (.complete texture) =>
    (s, if s.status = .inProgress then .storing texture else .answered false)
  | .asking .fail => s.fail.map id .answered
  | .asking .read => (s, if s.status = .success then .reading else .obtained s.status none)
  | .storing texture =>
    (s.store texture).map id fun stored => if stored then .ending else .answered false
  | .ending => (s.advance .inProgress .success).map id .answered
  | .reading => (s, .obtained .success s.stored)
  | .answered done => (s, .answered done)
  | .obtained seen texture => (s, .obtained seen texture)

/-- A request that is answered without any access of others in between. -/
def answer (s : Slot) : Request → Slot × Call
  | .start => (s.advance .pending .inProgress).map id .answered
  | .complete texture => (s.complete texture).map id .answered
  | .fail => s.fail.map id .answered
  | .read => (s, .obtained s.status s.texture?)

/-- The accesses of a call, made one right after the other, are the whole operation. -/
theorem access_three_times (s : Slot) (request : Request) :
    let first := s.access (.asking request)
    let second := first.1.access first.2
    second.1.access second.2 = s.answer request := by
  cases request with
  | start => rfl
  | complete texture =>
      by_cases hStatus : s.status = .inProgress
      · cases hStored : s.stored with
        | none => simp [access, answer, complete, store, hStatus, hStored]
        | some other => simp [access, answer, complete, store, hStatus, hStored]
      · simp [access, answer, complete, hStatus]
  | fail => rfl
  | read =>
      by_cases hStatus : s.status = .success
      · simp [access, answer, texture?, hStatus]
      · simp [access, answer, texture?, hStatus]

/-- A status stays or takes a step forward, and a texture that is stored stays. -/
structure Onward (s s' : Slot) : Prop where
  status_eq_or : s'.status = s.status ∨ s.status.canAdvanceTo s'.status = true
  stored_eq {texture : Texture} : s.stored = some texture → s'.stored = some texture

theorem Onward.refl (s : Slot) : Onward s s :=
  ⟨.inl rfl, id⟩

/-- An exchange that is not a step forward does not take place. -/
theorem onward_advance (s : Slot) (expected status : DownloadStatus) :
    Onward s (s.advance expected status).1 := by
  unfold advance swapStatus
  split
  · rename_i hCan
    split
    · rename_i hStatus
      exact ⟨.inr (hStatus ▸ hCan), id⟩
    · exact .refl s
  · exact .refl s

@[simp] theorem stored_advance (s : Slot) (expected status : DownloadStatus) :
    (s.advance expected status).1.stored = s.stored := by
  unfold advance swapStatus
  split
  · split
    · rfl
    · rfl
  · rfl

theorem status_advance (s : Slot) (expected status : DownloadStatus) :
    (s.advance expected status).1.status = s.status ∨
      (s.advance expected status).1.status = status := by
  unfold advance swapStatus
  split
  · split
    · exact .inr rfl
    · exact .inl rfl
  · exact .inl rfl

@[simp] theorem status_store (s : Slot) (texture : Texture) : (s.store texture).1.status = s.status := by
  unfold store
  split
  · rfl
  · rfl

/-- A texture is stored at most once. -/
theorem onward_store (s : Slot) (texture : Texture) : Onward s (s.store texture).1 := by
  refine ⟨.inl (status_store s texture), fun {other} hStored => ?_⟩
  rw [store, hStored]
  exact hStored

/-- After a store there is a texture, its own or an earlier one. -/
theorem isSome_stored_store (s : Slot) (texture : Texture) :
    (s.store texture).1.stored.isSome = true := by
  unfold store
  split
  · rfl
  · rename_i hStored
    simp [hStored]

/-- No access takes anything back, of whichever call it is. -/
theorem onward_access (s : Slot) (call : Call) : Onward s (s.access call).1 := by
  cases call with
  | asking request =>
      cases request with
      | start => exact onward_advance s .pending .inProgress
      | complete texture => exact .refl s
      | fail => exact onward_advance s .inProgress .failed
      | read => exact .refl s
  | storing texture => exact onward_store s texture
  | ending => exact onward_advance s .inProgress .success
  | reading | answered | obtained => exact .refl s

/-- What a call has seen of a slot is still so. -/
def Call.Agrees (s : Slot) : Call → Prop
  | .asking _ | .storing _ | .answered _ => True
  | .ending => s.stored.isSome = true
  | .reading => s.status = .success
  | .obtained seen texture =>
    (seen = .success → s.status = .success ∧ texture = s.stored) ∧ (seen ≠ .success → texture = none)

/-- A success has its texture. -/
def Backed (s : Slot) : Prop :=
  s.status = .success → s.stored.isSome = true

/-- Nothing comes after an end. -/
theorem Onward.status_eq {s s' : Slot} (h : Onward s s') (hEnd : s.status.isTerminal = true) :
    s'.status = s.status := by
  rcases h.status_eq_or with hEq | hCan
  · exact hEq
  · cases hStatus : s.status with
    | pending | inProgress => rw [hStatus] at hEnd; cases hEnd
    | success | failed => rw [hStatus] at hCan; cases hCan

/-- What is stored is not lost. -/
theorem Onward.isSome_stored {s s' : Slot} (h : Onward s s') (hStored : s.stored.isSome = true) :
    s'.stored.isSome = true := by
  obtain ⟨texture, hTexture⟩ := Option.isSome_iff_exists.1 hStored
  rw [h.stored_eq hTexture, Option.isSome_some]

/-- No access of another call changes what a call has seen. -/
theorem Onward.agrees {s s' : Slot} (h : Onward s s') (hBacked : s.Backed) {call : Call}
    (hCall : call.Agrees s) : call.Agrees s' := by
  cases call with
  | asking | storing | answered => trivial
  | ending => exact h.isSome_stored hCall
  | reading => exact (h.status_eq (by rw [hCall]; rfl)).trans hCall
  | obtained seen texture =>
      -- A texture that was seen is still there because it was there: a slot without one could be given
      -- any texture by the access.
      refine ⟨fun hSeen => ?_, hCall.2⟩
      obtain ⟨hStatus, rfl⟩ := hCall.1 hSeen
      obtain ⟨texture, hTexture⟩ := Option.isSome_iff_exists.1 (hBacked hStatus)
      refine ⟨(h.status_eq (by rw [hStatus]; rfl)).trans hStatus, ?_⟩
      rw [hTexture, h.stored_eq hTexture]

/-- No access brings about a success without a texture. A call ends a download only after its own store. -/
theorem backed_access {s : Slot} (hBacked : s.Backed) {call : Call} (hCall : call.Agrees s) :
    (s.access call).1.Backed := by
  have hKeep (expected status : DownloadStatus) (hNot : status ≠ .success) :
      (s.advance expected status).1.Backed := by
    intro hSuccess
    rcases status_advance s expected status with hEq | hEq
    · rw [stored_advance]
      exact hBacked (hEq.symm.trans hSuccess)
    · exact absurd (hEq.symm.trans hSuccess) hNot
  cases call with
  | asking request =>
      cases request with
      | start => exact hKeep .pending .inProgress (by decide)
      | complete texture => exact hBacked
      | fail => exact hKeep .inProgress .failed (by decide)
      | read => exact hBacked
  | storing texture => exact fun _ => isSome_stored_store s texture
  | ending =>
      intro _
      have hStored : (s.access .ending).1.stored = s.stored := stored_advance s .inProgress .success
      rw [hStored]
      exact hCall
  | reading | answered | obtained => exact hBacked

/-- A call agrees with the slot after each of its own accesses. -/
theorem agrees_access {s : Slot} {call : Call} (hCall : call.Agrees s) :
    (s.access call).2.Agrees (s.access call).1 := by
  cases call with
  | asking request =>
      cases request with
      | start | fail => trivial
      | complete texture =>
          unfold access
          dsimp only
          split
          · trivial
          · trivial
      | read =>
          unfold access
          dsimp only
          split
          · rename_i hStatus
            exact hStatus
          · rename_i hStatus
            exact ⟨fun hSeen => absurd hSeen hStatus, fun _ => rfl⟩
  | storing texture =>
      unfold access
      dsimp only [Prod.map]
      split
      · exact isSome_stored_store s texture
      · trivial
  | ending => trivial
  | reading => exact ⟨fun _ => ⟨hCall, rfl⟩, fun hSeen => absurd rfl hSeen⟩
  | answered => trivial
  | obtained => exact hCall

/-- A slot and the calls on it. A caller that makes several calls counts as several callers. -/
structure Shared where
  slot : Slot
  calls : List Call
deriving DecidableEq, Repr

namespace Shared

/-- A new slot, before the first access of any call. -/
def pending (url : Text) (requests : List Request) : Shared :=
  { slot := { url }, calls := requests.map .asking }

/-- The next access of the call of a number. -/
def act (s : Shared) (i : Nat) : Shared :=
  match s.calls[i]? with
  | some call => { slot := (s.slot.access call).1, calls := s.calls.set i (s.slot.access call).2 }
  | none => s

/-- A schedule gives the number of the call for each access. -/
def run (s : Shared) (schedule : List Nat) : Shared :=
  schedule.foldl act s

/-- The status at first and after each access. -/
def statuses (s : Shared) : List Nat → List DownloadStatus
  | [] => [s.slot.status]
  | i :: rest => s.slot.status :: (s.act i).statuses rest

theorem onward_act (s : Shared) (i : Nat) : s.slot.Onward (s.act i).slot := by
  unfold act
  split
  · exact onward_access s.slot _
  · exact .refl s.slot

structure Safe (s : Shared) : Prop where
  backed : s.slot.Backed
  agrees : ∀ call ∈ s.calls, call.Agrees s.slot

theorem safe_pending (url : Text) (requests : List Request) : (pending url requests).Safe := by
  refine ⟨nofun, fun call hMem => ?_⟩
  obtain ⟨request, _, rfl⟩ := List.mem_map.1 hMem
  trivial

/-- One more access, of any call, keeps the slot safe. Its own call agrees by what it has just done, the
others since nothing was taken back. -/
theorem Safe.act {s : Shared} (h : s.Safe) (i : Nat) : (s.act i).Safe := by
  have hOnward := onward_act s i
  unfold Shared.act at hOnward ⊢
  split
  · rename_i call hCall
    rw [hCall] at hOnward
    have hOwn := h.agrees call (List.mem_of_getElem? hCall)
    refine ⟨backed_access h.backed hOwn, fun other hMem => ?_⟩
    rcases List.mem_or_eq_of_mem_set hMem with hOther | rfl
    · exact hOnward.agrees h.backed (h.agrees other hOther)
    · exact agrees_access hOwn
  · exact h

/-- So does any schedule. -/
theorem Safe.run {s : Shared} (h : s.Safe) (schedule : List Nat) : (s.run schedule).Safe := by
  induction schedule generalizing s with
  | nil => exact h
  | cons i rest ih => exact ih (h.act i)

/-- After an end every schedule leaves the status as it is. -/
theorem status_run {s : Shared} (hEnd : s.slot.status.isTerminal = true) (schedule : List Nat) :
    (s.run schedule).slot.status = s.slot.status := by
  induction schedule generalizing s with
  | nil => rfl
  | cons i rest ih =>
      have hEq := (onward_act s i).status_eq hEnd
      exact (ih (hEq ▸ hEnd)).trans hEq

/-- The statuses to come, the one that is there included, if `last` is the final one. -/
def course (last : DownloadStatus) : DownloadStatus → List DownloadStatus
  | .pending => [.pending, .inProgress, last]
  | .inProgress => [.inProgress, last]
  | .success => [.success]
  | .failed => [.failed]

/-- At its end a status has no course before it. -/
theorem course_of_isTerminal (last : DownloadStatus) {status : DownloadStatus}
    (h : status.isTerminal = true) : course last status = [status] := by
  cases status with
  | pending | inProgress => cases h
  | success | failed => rfl

theorem statuses_eq_cons (s : Shared) (schedule : List Nat) :
    ∃ rest, s.statuses schedule = s.slot.status :: rest := by
  cases schedule with
  | nil => exact ⟨[], rfl⟩
  | cons i rest => exact ⟨_, rfl⟩

/-- Without repetitions, the statuses are a beginning of the course to some end. -/
theorem destutter_statuses (s : Shared) (schedule : List Nat) :
    ∃ last, last.isTerminal = true ∧
      (s.statuses schedule).destutter (· ≠ ·) <+: course last s.slot.status := by
  induction schedule generalizing s with
  | nil =>
      refine ⟨.success, rfl, ?_⟩
      rw [statuses, List.destutter_singleton]
      cases s.slot.status with
      | pending | inProgress | success | failed => exact ⟨_, rfl⟩
  | cons i rest ih =>
      obtain ⟨last, hLast, hPrefix⟩ := ih (s.act i)
      obtain ⟨tail, hTail⟩ := (s.act i).statuses_eq_cons rest
      rw [hTail, List.destutter_cons'] at hPrefix
      rw [statuses, hTail, List.destutter_cons_cons]
      rcases (onward_act s i).status_eq_or with hEq | hCan
      · rw [if_neg (not_not.2 hEq.symm), ← hEq]
        exact ⟨last, hLast, hPrefix⟩
      · -- Only the second step is open, and the final status it leads to is the last one.
        rcases DownloadStatus.canAdvanceTo_iff.1 hCan with ⟨hFrom, hTo⟩ | ⟨hFrom, hTo⟩
        · rw [hFrom, hTo, if_pos (by decide)]
          rw [hTo] at hPrefix
          exact ⟨last, hLast, List.cons_prefix_cons.2 ⟨rfl, hPrefix⟩⟩
        · rw [hFrom, if_pos (by rintro hEq; rw [← hEq] at hTo; cases hTo)]
          rw [course_of_isTerminal last hTo] at hPrefix
          exact ⟨_, hTo, List.cons_prefix_cons.2 ⟨rfl, hPrefix⟩⟩

/-- In whatever order the accesses of the calls come, the status goes from pending over in progress to one
final status and stays there; a success has its texture, all readers that see the success obtain this one
texture, and nobody ever obtains a texture of a slot that ends as a failure. -/
theorem safe_of_any_schedule (url : Text) (requests : List Request) (schedule : List Nat) :
    let start := pending url requests
    let final := start.run schedule
    (∃ last, last.isTerminal = true ∧
        (start.statuses schedule).destutter (· ≠ ·) <+: [.pending, .inProgress, last]) ∧
      (final.slot.status.isTerminal = true →
        ∀ more, (final.run more).slot.status = final.slot.status) ∧
      (final.slot.status = .success → final.slot.stored.isSome = true) ∧
      (∀ texture, .obtained .success texture ∈ final.calls →
        texture.isSome = true ∧ texture = final.slot.stored) ∧
      (final.slot.status = .failed → final.slot.texture? = none ∧ .reading ∉ final.calls ∧
        ∀ seen texture, .obtained seen (some texture) ∉ final.calls) := by
  intro start final
  have hSafe : final.Safe := (safe_pending url requests).run schedule
  refine ⟨destutter_statuses start schedule, status_run, hSafe.backed, fun texture hMem => ?_,
    fun hFailed => ⟨?_, fun hMem => ?_, fun seen texture hMem => ?_⟩⟩
  · obtain ⟨hStatus, rfl⟩ := (hSafe.agrees _ hMem).1 rfl
    exact ⟨hSafe.backed hStatus, rfl⟩
  · rw [texture?, hFailed]
    rfl
  · have hSuccess : final.slot.status = .success := hSafe.agrees _ hMem
    rw [hFailed] at hSuccess
    cases hSuccess
  · have hSeen := hSafe.agrees _ hMem
    by_cases hSuccess : seen = .success
    · have hStatus := (hSeen.1 hSuccess).1
      rw [hFailed] at hStatus
      cases hStatus
    · cases hSeen.2 hSuccess

/-- The download fails after its texture has been stored, and before it becomes a success. -/
theorem no_texture_of_stored_failure :
    let texture : Texture := ⟨['a'], ⟨1, 1⟩⟩
    let final := (pending [] [.start, .complete texture, .fail, .read]).run [0, 1, 1, 2, 1, 3]
    final.slot.stored = some texture ∧ final.slot.status = .failed ∧
      ∀ seen other, .obtained seen (some other) ∉ final.calls := by
  intro texture final
  have hStored : final.slot.stored = some texture := by decide
  have hFailed : final.slot.status = .failed := by decide
  obtain ⟨-, -, -, -, hNothing⟩ := safe_of_any_schedule []
    [.start, .complete texture, .fail, .read] [0, 1, 1, 2, 1, 3]
  exact ⟨hStored, hFailed, (hNothing hFailed).2.2⟩

end Shared

end Slot

end Changelog
