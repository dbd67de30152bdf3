import Changelog.Configuration.File
import Changelog.Settings
import Changelog.Text.Blank

/-!
Settings from all sources. A later source overrides an earlier one: the standard settings, the
configuration file, the environment, the command line. A column width counts only if it is a finite
positive number; any other leaves the width of the sources before.
-/

namespace Changelog

/-- Whether a column may have this width. -/
def isColumnWidth (width : Float32) : Bool :=
  width.isFinite && 0 < width

namespace Settings

/-- Sets the width of the column, if it is one. -/
def withWidth (s : Settings Float32) (width : Option Float32) : Settings Float32 :=
  match width.filter isColumnWidth with
  | some columnWidth => { s with columnWidth }
  | none => s

/-- The colour that a text stands for, or else the fallback. -/
def colorOr (fallback : Color) (text : Option Text) : Color :=
  (text.bind Color.parse?).getD fallback

/-- An extension as it is compared with: small letters, without dots in front. -/
def cleanExtension (extension : Text) : Text :=
  Text.asciiLower (extension.dropWhile (· == '.'))

/-- Overrides settings with those of a configuration file. -/
def withFile (s : Settings Float32) (file : ConfigFile) : Settings Float32 :=
  { s.withWidth file.columnWidth with
    previewImageHeight := (file.previewImageHeight.map UInt32.ofNat).getD s.previewImageHeight
    titlePadding := (file.titlePadding.map UInt32.ofNat).getD s.titlePadding
    defaultGifFps := ((file.defaultGifFps.filter (0 < ·)).map UInt32.ofNat).getD s.defaultGifFps
    linkColor := colorOr s.linkColor file.linkColor
    linkHoverColor := colorOr s.linkHoverColor file.linkHoverColor
    imageExtensions := (file.imageExtensions.map (List.map cleanExtension)).getD s.imageExtensions
    downloadTimeout := file.downloadTimeout.getD s.downloadTimeout
    maxDownloadBytes := file.maxDownloadBytes.getD s.maxDownloadBytes
    userAgent := file.userAgent.getD s.userAgent
    logFilePath := file.logFilePath.getD s.logFilePath }

/-- The standard settings, overridden with those of a configuration file if there is one. -/
def merge (stateDirectory : Option Text) : Option ConfigFile → Settings Float32
  | some file => (standard stateDirectory).withFile file
  | none => standard stateDirectory

/-- The number that a variable of the environment holds, with white space around it. -/
def variableWidth? (text : Text) : Option Float32 :=
  (Number.Numeral.read? (Text.trim text)).map Number.Numeral.toSingle

/-- Overrides the width of the column with the one from the environment. -/
def withVariable (s : Settings Float32) (text : Option Text) : Settings Float32 :=
  s.withWidth (text.bind variableWidth?)

/-- Settings from a configuration file, the width in the environment, and the one of the command
line. -/
def resolve (stateDirectory : Option Text) (file : Option ConfigFile) (environment : Option Text)
    (argument : Option Float32) : Settings Float32 :=
  ((merge stateDirectory file).withVariable environment).withWidth argument

end Settings

end Changelog
