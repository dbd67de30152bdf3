import Changelog.Download.RemoteSet
import Changelog.Format.Json.Document
import Changelog.Format.Toml.Document
import Changelog.Text.Blank

/-!
The record of a changelog entry: its description, when it is due, and the images and icons that
belong to it.
-/

namespace Changelog

/-- The occasion on which an entry is shown. -/
inductive Trigger where
  | startup
  | gameInit
  | newGame
  | loadedGame
deriving DecidableEq, Repr

namespace Trigger

def all : List Trigger := [startup, gameInit, newGame, loadedGame]

def name : Trigger → String
  | startup => "Startup"
  | gameInit => "GameInit"
  | newGame => "NewGame"
  | loadedGame => "LoadedGame"

def ofName? (name : Text) : Option Trigger :=
  all.find? fun trigger => trigger.name.toList = name

end Trigger

/-- An icon beside the title, with the name shown for it and the address that it opens. -/
structure HyperlinkedIcon where
  name : Text
  icon : Text
  url : Text
deriving DecidableEq, Repr

/-- The record of an entry. -/
structure EntryRecord where
  currentVersion : Text := []
  updateOn : Trigger := .gameInit
  /-- Markup; square brackets stand for angle brackets. -/
  description : Text := []
  /-- What the host does when the entry is shown. -/
  actionOnUpdate : Option Text := none
  leftIconBar : List HyperlinkedIcon := []
  rightIconBar : List HyperlinkedIcon := []
  images : List RemoteImage := []
  /-- An entry under test stays due. -/
  testing : Bool := false
  /-- Whether the entry is still to be shown. -/
  update : Bool := false
deriving DecidableEq, Repr

namespace EntryRecord

/-- The description with angle brackets in place of square ones. -/
def enhancedDescription (r : EntryRecord) : Text :=
  r.description.map fun c => if c = '[' then '<' else if c = ']' then '>' else c

/-- Whether the entry is to be shown on this occasion. -/
def isDueFor (r : EntryRecord) (trigger : Trigger) : Bool :=
  r.updateOn = trigger && r.update && !Text.isAllBlank r.description

/-- The entry has been shown. -/
def notifyUpdated (r : EntryRecord) : EntryRecord :=
  if r.testing then r else { r with update := false }

/-- A name by itself, or as the only key of a table that holds a unit. -/
def readTrigger? (format : DataFormat) (d : Data) : Option Trigger :=
  match d with
  | .text name => Trigger.ofName? name
  | .table [(name, d)] => if d.isUnit format then Trigger.ofName? name else none
  | _ => none

def readIcon? (format : DataFormat) (d : Data) : Option HyperlinkedIcon := do
  let fields ← d.fields? format ["name".toList, "icon".toList, "url".toList]
  match ← fields.mapM fun field => field.bind Data.text? with
  | [name, icon, url] => return { name, icon, url }
  | _ => none

def readImage? (format : DataFormat) (d : Data) : Option RemoteImage := do
  let fields ← d.fields? format ["name".toList, "url".toList]
  match ← fields.mapM fun field => field.bind Data.text? with
  | [name, url] => return { name, url }
  | _ => none

/-- A text, or nothing. -/
def readOptionalText? : Data → Option (Option Text)
  | .null => some none
  | d => d.text?.map some

/-- A field that may be left out. -/
def fieldOr {β : Type} (fallback : β) (read : Data → Option β) (field : Option Data) : Option β :=
  match field with
  | some d => read d
  | none => some fallback

/-- The names of the fields. -/
def fieldNames : List Text :=
  ["currentVersion".toList, "updateOn".toList, "description".toList, "actionOnUpdate".toList,
    "leftIconBar".toList, "rightIconBar".toList, "images".toList, "testing".toList,
    "update".toList]

/-- Reads a record. Every field may be left out, and unknown fields are ignored; a field of the
wrong form makes the record unreadable. -/
def ofData? (format : DataFormat) (d : Data) : Option EntryRecord := do
  match ← d.fields? format fieldNames with
  | [version, updateOn, description, action, left, right, images, testing, update] =>
    return {
      currentVersion := ← fieldOr [] Data.text? version
      updateOn := ← fieldOr .gameInit (readTrigger? format) updateOn
      description := ← fieldOr [] Data.text? description
      actionOnUpdate := ← fieldOr none readOptionalText? action
      leftIconBar := ← fieldOr [] (Data.listOf? (readIcon? format)) left
      rightIconBar := ← fieldOr [] (Data.listOf? (readIcon? format)) right
      images := ← fieldOr [] (Data.listOf? (readImage? format)) images
      testing := ← fieldOr false Data.bool? testing
      update := ← fieldOr false Data.bool? update }
  | _ => none

/-- Reads the record that a TOML document holds. -/
def ofToml? (t : Text) : Option EntryRecord :=
  (Toml.read? t).bind (ofData? .toml)

/-- Reads the record that a JSON document holds. -/
def ofJson? (t : Text) : Option EntryRecord :=
  (Json.read? t).bind (ofData? .json)

def iconToJson (icon : HyperlinkedIcon) : Json :=
  .object [("name", .string icon.name), ("icon", .string icon.icon), ("url", .string icon.url)]

def imageToJson (image : RemoteImage) : Json :=
  .object [("name", .string image.name), ("url", .string image.url)]

def toJson (r : EntryRecord) : Json :=
  .object [
    ("currentVersion", .string r.currentVersion),
    ("updateOn", .ofString r.updateOn.name),
    ("description", .string r.description),
    ("actionOnUpdate", (r.actionOnUpdate.map Json.string).getD .null),
    ("leftIconBar", .list (r.leftIconBar.map iconToJson)),
    ("rightIconBar", .list (r.rightIconBar.map iconToJson)),
    ("images", .list (r.images.map imageToJson)),
    ("testing", .bool r.testing),
    ("update", .bool r.update)]

end EntryRecord

end Changelog
