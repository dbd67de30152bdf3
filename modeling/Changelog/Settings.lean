import Changelog.Color
import Changelog.Scalar

/-!
What can be set about reading and drawing documents.
-/

namespace Changelog

/-- The name that the program gives itself towards others. -/
def programName : Text := ['r', 'i', 'c', 'h', 'l', 'o', 'g']

/-- The log file inside the directory for state, or inside the working directory. -/
def defaultLogPath (stateDirectory : Option Text) : Text :=
  let file := programName ++ ['.', 'l', 'o', 'g']
  match stateDirectory with
  | some directory => directory ++ '/' :: programName ++ '/' :: file
  | none => file

/-- Settings after all sources have been merged. -/
structure Settings (α : Type) where
  /-- Width of the column that text is wrapped to, and of images without a width of their own. -/
  columnWidth : α
  /-- Height kept free for an image whose tag cannot be read. -/
  previewImageHeight : UInt32 := 200
  /-- Height kept free below a title. -/
  titlePadding : UInt32 := 4
  defaultGifFps : UInt32 := 30
  linkColor : Color := ⟨0x99, 0xD9, 0xEA, 255⟩
  linkHoverColor : Color := ⟨0x4D, 0xB3, 0xE6, 255⟩
  /-- Extensions of image files, without dot. -/
  imageExtensions : List Text := [['p', 'n', 'g'], ['j', 'p', 'g'], ['j', 'p', 'e', 'g']]
  /-- Seconds that a download may take. -/
  downloadTimeout : Nat := 30
  /-- Bytes that a download may have. -/
  maxDownloadBytes : Nat := 16 * 1024 * 1024
  userAgent : Text := programName
  logFilePath : Text := defaultLogPath none

namespace Settings

variable {α : Type} [Scalar α]

/-- The settings without any source. -/
def standard (stateDirectory : Option Text) : Settings α :=
  { columnWidth := Scalar.ofNat 700
    logFilePath := defaultLogPath stateDirectory }

/-- Whether files of this extension, in any case, count as images. -/
def acceptsExtension (s : Settings α) (extension : Text) : Bool :=
  s.imageExtensions.any fun allowed => Text.sameLetters allowed extension

end Settings

end Changelog
