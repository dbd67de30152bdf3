import Changelog.Notice

/-! What is reported once. After any notices the log knows their keys and those it knew before, and of all
the notices with one key only the first is emitted, if the key was not known before. -/

namespace Changelog.OnceLog

variable {log : OnceLog} {notice : Notice} {notices : List Notice} {key : Text}

theorem hasReported_iff : log.hasReported key = true ↔ key ∈ log.reported :=
  List.contains_iff_mem

/-- A notice with a known key is dropped, and the log stays as it is. -/
theorem report_of_known (h : notice.key ∈ log.reported) : log.report notice = (log, none) :=
  if_pos (hasReported_iff.2 h)

/-- One with a new key is emitted, and its key is known from then on. -/
theorem report_of_new (h : notice.key ∉ log.reported) :
    log.report notice = (⟨notice.key :: log.reported⟩, some notice) :=
  if_neg fun hKnown => h (hasReported_iff.1 hKnown)

theorem reported_report :
    key ∈ (log.report notice).1.reported ↔ key ∈ log.reported ∨ key = notice.key := by
  by_cases h : notice.key ∈ log.reported
  · rw [report_of_known h]
    exact ⟨.inl, fun hKey => hKey.elim id fun hSame => hSame ▸ h⟩
  · rw [report_of_new h]
    exact List.mem_cons.trans or_comm

/-- No key is forgotten, and no key becomes known but those of the notices. -/
theorem reported_reportAll :
    key ∈ (log.reportAll notices).1.reported ↔
      key ∈ log.reported ∨ key ∈ notices.map Notice.key := by
  induction notices generalizing log with
  | nil => exact (or_iff_left List.not_mem_nil).symm
  | cons first rest ih =>
      rw [List.map_cons, List.mem_cons, ← or_assoc, ← reported_report]
      exact ih

/-- Notices with known keys leave no trace. -/
theorem reportAll_of_known (h : ∀ notice ∈ notices, notice.key ∈ log.reported) :
    log.reportAll notices = (log, []) := by
  induction notices with
  | nil => rfl
  | cons first rest ih =>
      obtain ⟨hFirst, hRest⟩ := List.forall_mem_cons.1 h
      rw [reportAll, report_of_known hFirst]
      dsimp only
      rw [ih hRest]
      rfl

/-- A notice is emitted if and only if its key was not known before and no notice so far has had it. -/
theorem report_reportAll (notices : List Notice) (notice : Notice) :
    ((log.reportAll notices).1.report notice).2 =
      if notice.key ∈ log.reported ∨ notice.key ∈ notices.map Notice.key then none
      else some notice := by
  split
  · rename_i hKnown
    rw [report_of_known (reported_reportAll.2 hKnown)]
  · rename_i hNew
    rw [report_of_new fun hKnown => hNew (reported_reportAll.1 hKnown)]

/-- Of the notices with a new key the first one is emitted and no other, of those with a known key none. -/
theorem filter_emitted (notices : List Notice) (key : Text) :
    ((log.reportAll notices).2.filter fun notice => notice.key = key) =
      if key ∈ log.reported then [] else (notices.filter fun notice => notice.key = key).take 1 := by
  induction notices generalizing log with
  | nil => split <;> rfl
  | cons first rest ih =>
      have hRest := @ih (log.report first).1
      simp only [reported_report] at hRest
      rw [reportAll]
      dsimp only
      rw [List.filter_append, hRest]
      by_cases hFirst : first.key ∈ log.reported
      · rw [report_of_known hFirst]
        by_cases hKey : first.key = key
        · subst hKey
          simp [hFirst]
        · simp [hKey, Ne.symm hKey]
      · rw [report_of_new hFirst]
        by_cases hKey : first.key = key
        · subst hKey
          simp [hFirst]
        · simp [hKey, Ne.symm hKey]

end Changelog.OnceLog
