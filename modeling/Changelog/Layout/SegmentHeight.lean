import Changelog.Drawing.Decorated
import Changelog.Drawing.Wrap
import Changelog.Layout.Container

/-!
The height that a segment takes. Instructions take none, but change the style in which the segments
after them are measured. There is no height where the word that it is added up in overflows.
-/

namespace Changelog

namespace TextScope

/-- The style after an instruction. One that cannot be read gives a notice and changes nothing. -/
def instruct (scope : TextScope) (kind : TagKind) (body : Text) : Noted TextScope :=
  match kind with
  | .font =>
    match FontSize.parse? body with
    | some font => pure { scope with font }
    | none => do
      Noted.tell
        { severity := .error
          key := ['f', 'o', 'n', 't', ':'] ++ Text.trim body
          message := (StyleError.unknownFont body).message }
      return scope
  | .anchor =>
    match Anchor.parse? body with
    | some anchor => pure { scope with anchor }
    | none => do
      Noted.tell
        { severity := .error
          key := ['a', 'n', 'c', 'h', 'o', 'r', ':'] ++ Text.trim body
          message := (StyleError.unknownAnchor body).message }
      return scope
  | .title | .image | .gif => pure scope

end TextScope

namespace LayoutEnv

variable {α : Type} [Scalar α]

/-- Height of a wrapped text, rounded up. -/
def textHeight (env : LayoutEnv α) (text : Text) (font : FontSize) : UInt32 :=
  saturate32 (Scalar.ceil (env.measurer.textHeight text env.columnWidth font))

/-- Height of a title with the space below it. There is none if a 32-bit word does not hold the
sum. -/
def titleHeight? (env : LayoutEnv α) (text : Text) : Option UInt32 :=
  (inWord? UInt32.size
    ((env.textHeight text .small).toNat + env.settings.titlePadding.toNat)).map UInt32.ofNat

/-- Height of a tag, and the style after it. -/
def tagHeight? (env : LayoutEnv α) (scope : TextScope) (kind : TagKind) (body : Text) :
    Option (Noted (UInt32 × TextScope)) :=
  match kind with
  | .font | .anchor => some do
    let scope ← scope.instruct kind body
    return (0, scope)
  | .title => (env.titleHeight? body).map fun height => pure (height, scope)
  | .image | .gif => some do
    let height ← Container.occupiedHeight kind env body
    return (height, scope)

/-- Height of a segment, and the style after it. -/
def segmentHeight? (env : LayoutEnv α) (scope : TextScope) (segment : Segment) :
    Option (Noted (UInt32 × TextScope)) :=
  match segment.tag? with
  | some kind => env.tagHeight? scope kind segment.text
  | none => some do
    let drawn ← DecoratedText.ofSegment segment
    return (env.textHeight drawn.text scope.font, scope)

end LayoutEnv

end Changelog
