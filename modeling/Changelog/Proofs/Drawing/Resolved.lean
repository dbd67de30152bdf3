import Changelog.Proofs.Drawing.Occurrences

/-! The decorations of a drawn text. They follow one another and cut no character, whatever is shown of the
occurrences that they stand for; and occurrences that follow one another can be cut out of the text. -/

namespace Changelog

namespace DecoratedText

variable {text : Text} {drawn : DecoratedText} {found : List Occurrence} {last : Nat}

/-- The decorations lie in the text from left to right, and no two of them have a byte in common. -/
structure InOrder (d : DecoratedText) : Prop where
  ordered : d.decorations.Pairwise fun a b => a.span.stop ≤ b.span.start
  hasSpan : ∀ a ∈ d.decorations, Text.HasSpan d.text a.span

theorem inOrder_plain (text : Text) : (plain text).InOrder :=
  ⟨List.Pairwise.nil, fun _ hMem => absurd hMem List.not_mem_nil⟩

/-- Text without decorations may follow. -/
theorem InOrder.append_text (h : drawn.InOrder) (more : Text) :
    InOrder { drawn with text := drawn.text ++ more } :=
  ⟨h.ordered, fun a ha =>
    have hSpan := h.hasSpan a ha
    ⟨hSpan.start_le, hSpan.start.append more, hSpan.stop.append more⟩⟩

theorem InOrder.append_decoration (h : drawn.InOrder) (shown : Text) (kind : DecorationKind) :
    InOrder
      { text := drawn.text ++ shown
        decorations := drawn.decorations ++
          [⟨⟨Text.byteSize drawn.text, Text.byteSize drawn.text + Text.byteSize shown⟩, kind⟩] } := by
  refine ⟨?_, fun a ha => ?_⟩
  · refine List.pairwise_append.2 ⟨h.ordered, List.pairwise_singleton .., fun a ha b hb => ?_⟩
    obtain rfl := List.mem_singleton.1 hb
    exact (h.hasSpan a ha).stop.le
  · rcases List.mem_append.1 ha with ha | ha
    · exact (h.append_text shown).hasSpan a ha
    · obtain rfl := List.mem_singleton.1 ha
      exact Text.StandsAt.hasSpan ⟨drawn.text, [], by simp, rfl⟩

/-- Replacing occurrences from left to right only appends, so the decorations stay in order. -/
theorem InOrder.replaceFrom (h : drawn.InOrder) (text : Text) (last : Nat)
    (found : List Occurrence) : (replaceFrom text drawn last found).InOrder := by
  induction found generalizing drawn last with
  | nil => exact h.append_text _
  | cons next rest ih =>
      have hBefore := h.append_text (Text.slice last next.start text)
      rw [DecoratedText.replaceFrom]
      rcases next.shown with ⟨shown, kind⟩
      cases kind with
      | none =>
          have hShown := hBefore.append_text shown
          rw [← List.append_nil drawn.decorations] at hShown
          exact ih hShown next.stop
      | some kind => exact ih (hBefore.append_decoration shown kind) next.stop

/-- Whatever annotations a text is resolved with, its decorations lie in order in what is drawn. -/
theorem inOrder_resolve (text : Text) (underlines hyperlinks : List Text) :
    (resolve text underlines hyperlinks).value.InOrder :=
  (inOrder_plain []).replaceFrom text 0 _

/-- The spans that are cut out of a text from offset `last` on to replace occurrences: what stands
before each, the occurrence itself, and the rest. -/
def cutsFrom (text : Text) (last : Nat) : List Occurrence → List Span
  | [] => [⟨last, Text.byteSize text⟩]
  | next :: rest => ⟨last, next.start⟩ :: ⟨next.start, next.stop⟩ :: cutsFrom text next.stop rest

/-- Occurrences that follow one another are cut out at their own boundaries. -/
theorem hasSpan_cutsFrom (hLast : Text.Boundary text last)
    (hIn : ∀ o ∈ found, o.StandsIn text) (hAfter : ∀ o ∈ found, last ≤ o.start)
    (hOrder : found.Pairwise fun a b => a.stop ≤ b.start) :
    ∀ cut ∈ cutsFrom text last found, Text.HasSpan text cut := by
  induction found generalizing last with
  | nil =>
      intro cut hCut
      obtain rfl := List.mem_singleton.1 hCut
      exact ⟨hLast.le, hLast, text, [], (List.append_nil text).symm, rfl⟩
  | cons next rest ih =>
      obtain ⟨hFirst, hOrder⟩ := List.pairwise_cons.1 hOrder
      have hNext := (hIn next (List.mem_cons_self ..)).hasSpan
      have hRest := ih hNext.stop (fun o ho => hIn o (List.mem_cons_of_mem _ ho)) hFirst hOrder
      intro cut hCut
      rcases List.mem_cons.1 hCut with rfl | hCut
      · exact ⟨hAfter next (List.mem_cons_self ..), hLast, hNext.start⟩
      · rcases List.mem_cons.1 hCut with rfl | hCut
        · exact hNext
        · exact hRest cut hCut

/-- With literals that are not empty, everything that resolving cuts out of the text is there. With empty
ones it need not be: one may be found where another literal begins and be cut out behind it. -/
theorem hasSpan_cuts {literals : List (Text × AnnotationKind)} (hNe : ∀ l ∈ literals, l.1 ≠ []) :
    ∀ cut ∈ cutsFrom text 0 (inOrder (locateAll text [] literals).value), Text.HasSpan text cut := by
  have hLocated := located_locateAll hNe (located_nil text)
  refine hasSpan_cutsFrom ⟨[], text, rfl, rfl⟩ (fun o ho => ?_) (fun _ _ => Nat.zero_le _)
    hLocated.pairwise_inOrder
  exact hLocated.standsIn o ((inOrder_perm _).mem_iff.1 ho)

example :
    cutsFrom ['a', 'b'] 0
        (inOrder (locateAll ['a', 'b'] [] [(['a', 'b'], .link), ([], .underline)]).value) =
      [⟨0, 0⟩, ⟨0, 2⟩, ⟨2, 0⟩, ⟨0, 0⟩, ⟨0, 2⟩] := by
  cbv

end DecoratedText

end Changelog
