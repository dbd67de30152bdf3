import Changelog.Text.Blank
import Changelog.Text.Quoted

/-!
The text style that font and anchor instructions set.
-/

namespace Changelog

/-- Sizes of text. -/
inductive FontSize where
  | tiny
  /-- Body text; titles always have this size. -/
  | small
  | medium
deriving DecidableEq, Repr

/-- Placement of a line in the column. -/
inductive HorizontalAlign where
  | left
  | center
  | right
deriving DecidableEq, Repr

/-- Placement of text. Blocks of text are as high as their content, so only the horizontal part
shows. -/
inductive Anchor where
  | upperLeft
  | upperCenter
  | upperRight
  | middleLeft
  | middleCenter
  | middleRight
  | lowerLeft
  | lowerCenter
  | lowerRight
deriving DecidableEq, Repr

namespace FontSize

def all : List FontSize := [tiny, small, medium]

/-- The name of a size inside a font instruction. -/
def name : FontSize → Text
  | tiny => ['T', 'i', 'n', 'y']
  | small => ['S', 'm', 'a', 'l', 'l']
  | medium => ['M', 'e', 'd', 'i', 'u', 'm']

/-- The size with this name, in any case, with white space around it. -/
def parse? (text : Text) : Option FontSize :=
  all.find? fun font => Text.sameLetters font.name (Text.trim text)

end FontSize

namespace Anchor

def all : List Anchor :=
  [upperLeft, upperCenter, upperRight, middleLeft, middleCenter, middleRight, lowerLeft,
    lowerCenter, lowerRight]

def horizontal : Anchor → HorizontalAlign
  | upperLeft | middleLeft | lowerLeft => .left
  | upperCenter | middleCenter | lowerCenter => .center
  | upperRight | middleRight | lowerRight => .right

/-- The name of a placement inside an anchor instruction. -/
def name : Anchor → Text
  | upperLeft => ['U', 'p', 'p', 'e', 'r', 'L', 'e', 'f', 't']
  | upperCenter => ['U', 'p', 'p', 'e', 'r', 'C', 'e', 'n', 't', 'e', 'r']
  | upperRight => ['U', 'p', 'p', 'e', 'r', 'R', 'i', 'g', 'h', 't']
  | middleLeft => ['M', 'i', 'd', 'd', 'l', 'e', 'L', 'e', 'f', 't']
  | middleCenter => ['M', 'i', 'd', 'd', 'l', 'e', 'C', 'e', 'n', 't', 'e', 'r']
  | middleRight => ['M', 'i', 'd', 'd', 'l', 'e', 'R', 'i', 'g', 'h', 't']
  | lowerLeft => ['L', 'o', 'w', 'e', 'r', 'L', 'e', 'f', 't']
  | lowerCenter => ['L', 'o', 'w', 'e', 'r', 'C', 'e', 'n', 't', 'e', 'r']
  | lowerRight => ['L', 'o', 'w', 'e', 'r', 'R', 'i', 'g', 'h', 't']

/-- The placement with this name, in any case, with white space around it. -/
def parse? (text : Text) : Option Anchor :=
  all.find? fun anchor => Text.sameLetters anchor.name (Text.trim text)

end Anchor

/-- The style in force at some point of a document. -/
structure TextScope where
  font : FontSize := .small
  anchor : Anchor := .upperLeft
deriving DecidableEq, Repr

/-- A name that no font or no placement has. -/
inductive StyleError where
  | unknownFont (text : Text)
  | unknownAnchor (text : Text)
deriving DecidableEq, Repr

def StyleError.message : StyleError → String
  | unknownFont text => "unknown font " ++ String.ofList (Text.quoted text)
  | unknownAnchor text => "unknown text anchor " ++ String.ofList (Text.quoted text)

end Changelog
