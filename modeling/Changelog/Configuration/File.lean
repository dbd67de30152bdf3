import Changelog.Format.Toml.Document
import Changelog.Scalar

/-!
Configuration files. Every key may be left out; an unknown key, or a value of the wrong form, makes
the file unusable.
-/

namespace Changelog

/-- What a configuration file says. -/
structure ConfigFile where
  columnWidth : Option Float32 := none
  previewImageHeight : Option Nat := none
  titlePadding : Option Nat := none
  defaultGifFps : Option Nat := none
  linkColor : Option Text := none
  linkHoverColor : Option Text := none
  imageExtensions : Option (List Text) := none
  downloadTimeout : Option Nat := none
  maxDownloadBytes : Option Nat := none
  userAgent : Option Text := none
  logFilePath : Option Text := none

/-- Why a configuration file cannot be used. -/
inductive ConfigError where
  | unreadable (path : Text) (reason : String)
  | malformed (path : Text) (reason : String)
deriving DecidableEq, Repr

def ConfigError.message : ConfigError → String
  | unreadable path reason => "cannot read config " ++ String.ofList path ++ ": " ++ reason
  | malformed path reason => "bad config " ++ String.ofList path ++ ": " ++ reason

namespace ConfigFile

/-- The keys of a configuration file. -/
def keys : List Text :=
  ["column_width".toList, "preview_image_height".toList, "title_padding".toList,
    "default_gif_fps".toList, "link_color".toList, "link_hover_color".toList,
    "image_extensions".toList, "download_timeout_secs".toList, "max_download_bytes".toList,
    "user_agent".toList, "log_file_path".toList]

/-- A number as a single-precision number. -/
def single? : Data → Option Float32
  | .integer n => some (Scalar.ofInt n)
  | .float x => some x.toFloat32
  | _ => none

/-- A number below `2 ^ 32`. -/
def word32? : Data → Option Nat :=
  Data.nat? (UInt32.size - 1)

/-- A number below `2 ^ 64`. -/
def word64? : Data → Option Nat :=
  Data.nat? (UInt64.size - 1)

/-- The value of a key; one that is left out is no failure, one of the wrong form is. -/
def field? {β : Type} (fields : List (Text × Data)) (key : String) (read : Data → Option β) :
    Option (Option β) :=
  match fields.lookup key.toList with
  | some d => (read d).map some
  | none => some none

/-- Reads the values of all keys. -/
def ofFields? (fields : List (Text × Data)) : Option ConfigFile := do
  return {
    columnWidth := ← field? fields "column_width" single?
    previewImageHeight := ← field? fields "preview_image_height" word32?
    titlePadding := ← field? fields "title_padding" word32?
    defaultGifFps := ← field? fields "default_gif_fps" word32?
    linkColor := ← field? fields "link_color" Data.text?
    linkHoverColor := ← field? fields "link_hover_color" Data.text?
    imageExtensions := ← field? fields "image_extensions" (Data.listOf? Data.text?)
    downloadTimeout := ← field? fields "download_timeout_secs" word64?
    maxDownloadBytes := ← field? fields "max_download_bytes" word64?
    userAgent := ← field? fields "user_agent" Data.text?
    logFilePath := ← field? fields "log_file_path" Data.text? }

/-- Reads the text of a configuration file. -/
def parse (path text : Text) : Except ConfigError ConfigFile :=
  match Toml.read? text with
  | some (.table fields) =>
    if fields.all fun field => keys.contains field.1 then
      match ofFields? fields with
      | some file => .ok file
      | none => .error (.malformed path "a value has the wrong form")
    else .error (.malformed path "unknown key")
  | _ => .error (.malformed path "invalid TOML document")

end ConfigFile

end Changelog
