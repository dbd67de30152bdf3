import Changelog.Markup.Segment
import Changelog.Proofs.Markup.Alternation
import Mathlib.Data.List.Chain

/-! Writing a description from its parts, and reading it back. A tag may hold any text but its own
closing marker, plain text any text but the opening markers: stray brackets, markers of other tags
and parts of markers at the seams do not disturb the reading. -/

namespace Changelog

/-- A part of a description. -/
inductive Item where
  /-- A tag of a usual kind around an inner text. -/
  | tagged (kind : TagKind) (inner : Text)
  /-- Text outside of tags, with its annotations as written. -/
  | plain (text : Text)
deriving DecidableEq, Repr

namespace Item

/-- A part as it is written. -/
def markup : Item → Text
  | tagged kind inner => kind.opener ++ inner ++ kind.closer
  | plain text => text

/-- What the segment of a part holds. -/
def content : Item → Content
  | tagged kind inner => .tagged kind inner
  | plain text => .ofPlain text

def isPlain : Item → Bool
  | tagged .. => false
  | plain _ => true

/-- The inner text of a tag does not hold the closing marker of its kind. Plain text is not empty and
not a newline alone, and holds none of the opening markers. -/
def WellFormed : Item → Prop
  | tagged kind inner => ¬kind.closer <:+: inner
  | plain text => text ≠ [] ∧ text ≠ ['\n'] ∧ ∀ kind : TagKind, ¬kind.opener <:+: text

/-- Parts that can be read back: each is well formed, no two plain ones are neighbours, and plain text
at the end does not end with a newline. -/
structure Document (items : List Item) : Prop where
  wellFormed : ∀ item ∈ items, item.WellFormed
  separate : items.IsChain fun a b => ¬(a.isPlain = true ∧ b.isPlain = true)
  lastLine : ∀ text, items.getLast? = some (plain text) → text.getLast? ≠ some '\n'

/-- The description that the parts make up. -/
def print (items : List Item) : Text :=
  items.flatMap markup

/-- One segment for each part, at the bytes that the part takes from offset `start` on. -/
def segments (start : Nat) : List Item → List Segment
  | [] => []
  | item :: rest =>
    let stop := start + Text.byteSize item.markup
    ⟨item.content, ⟨start, stop⟩⟩ :: segments stop rest

/-- The piece that a part is split into. -/
def piece : Item → Piece
  | tagged kind inner => ⟨some (TagDefinition.builtin kind), (tagged kind inner).markup⟩
  | plain text => Piece.plain text

theorem Document.tail {item : Item} {rest : List Item} (h : Document (item :: rest)) :
    Document rest := by
  refine ⟨fun e he => h.wellFormed e (List.mem_cons_of_mem _ he), h.separate.tail, ?_⟩
  intro text hLast
  refine h.lastLine text ?_
  cases rest with
  | nil => simp at hLast
  | cons next rest => simpa [List.getLast?_cons_cons] using hLast

@[simp] theorem print_nil : print [] = [] := rfl

/-- The usual closing markers have one opening bracket each, at the front. -/
theorem bracketed_closer (kind : TagKind) : Text.Bracketed kind.closer := by
  cases kind <;> exact ⟨_, rfl, by decide⟩

/-- At the front of a text stands at most one of the usual opening markers. -/
theorem opener_unique {kind other : TagKind} {text : Text}
    (h : other.opener <+: kind.opener ++ text) : other = kind := by
  have hPrefix := List.prefix_or_prefix_of_prefix h (List.prefix_append kind.opener text)
  revert hPrefix
  cases kind <;> cases other <;> decide

end Item

end Changelog
