import Changelog.Text.Basic

/-!
What is found at a path, and the text in it. A text is read as UTF-8 and not mended.
-/

namespace Changelog

/-- What is found at a path. -/
inductive FileContent where
  | missing
  /-- There is something that cannot be read as a file. -/
  | unreadable (reason : String)
  | bytes (content : ByteArray)

/-- The text of a file, or why there is none. -/
def FileContent.text : FileContent → Except String Text
  | missing => .error "No such file or directory"
  | unreadable reason => .error reason
  | bytes content =>
    match String.fromUTF8? content with
    | some text => .ok text.toList
    | none => .error "stream did not contain valid UTF-8"

end Changelog
