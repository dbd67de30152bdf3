import Changelog.Text.Basic

/-!
The kinds of tags and their markers.
-/

namespace Changelog

/-- What a tag stands for. -/
inductive TagKind where
  /-- Sets the size of the text that follows. -/
  | font
  /-- Sets the placement of the text that follows. -/
  | anchor
  /-- A bold heading with a rule beneath. -/
  | title
  /-- A local or downloaded image. -/
  | image
  /-- An animation. -/
  | gif
deriving DecidableEq, Repr

namespace TagKind

/-- The order in which the kinds are registered. -/
def all : List TagKind := [font, anchor, title, image, gif]

/-- The name in messages and report keys. -/
def name : TagKind → Text
  | font => ['F', 'o', 'n', 't']
  | anchor => ['A', 'n', 'c', 'h', 'o', 'r']
  | title => ['T', 'i', 't', 'l', 'e']
  | image => ['I', 'm', 'a', 'g', 'e']
  | gif => ['G', 'i', 'f']

/-- The marker that opens a tag. Image and animation tags leave the bracket open for their
attributes. -/
def opener : TagKind → Text
  | font => ['<', 'f', 'o', 'n', 't', '>']
  | anchor => ['<', 'a', 'n', 'c', 'h', 'o', 'r', '>']
  | title => ['<', 't', 'i', 't', 'l', 'e', '>']
  | image => ['<', 'i', 'm', 'g']
  | gif => ['<', 'g', 'i', 'f']

/-- The marker that closes a tag. -/
def closer : TagKind → Text
  | font => ['<', '/', 'f', 'o', 'n', 't', '>']
  | anchor => ['<', '/', 'a', 'n', 'c', 'h', 'o', 'r', '>']
  | title => ['<', '/', 't', 'i', 't', 'l', 'e', '>']
  | image => ['<', '/', 'i', 'm', 'g', '>']
  | gif => ['<', '/', 'g', 'i', 'f', '>']

/-- Whether the tag only changes the style of what follows and takes no room. -/
def isInstruction : TagKind → Bool
  | font | anchor => true
  | title | image | gif => false

end TagKind

end Changelog
