import Changelog.CommandLine.Help
import Changelog.CommandLine.Listing
import Changelog.Configuration.Merge
import Changelog.Configuration.Source
import Changelog.Log.Target

/-!
The program as a whole. It meets the outside only through a `Host`, so it runs on real files as well
as on described ones. Nothing is printed unless everything succeeds.
-/

namespace Changelog

/-- The place where the program runs. -/
structure Host (m : Type → Type) where
  read : (path : Text) → m FileContent
  /-- The entries of a directory; where there is none, nothing is found. -/
  list : (path : Text) → m Listing
  /-- Makes a file ready to be logged to. -/
  openLog : (path : Text) → m (Except LogError Unit)
  /-- The path of the configuration file from the environment. -/
  configVariable : Option Text := none
  /-- The width of the column from the environment. -/
  widthVariable : Option Text := none
  /-- The directory for configurations. -/
  configDirectory : Option Text := none
  /-- The directory for state. -/
  stateDirectory : Option Text := none

/-- Why a run fails. -/
inductive RunError where
  | configuration (error : ConfigError)
  | logging (error : LogError)
  | io (reason : String)
  /-- A height that its machine word does not hold. -/
  | overflow
deriving DecidableEq, Repr

def RunError.message : RunError → String
  | configuration error => "configuration error: " ++ error.message
  | logging error => "logging error: " ++ error.message
  | io reason => "I/O error: " ++ reason
  | overflow => "a height overflows"

/-- The exit code of a run that fails. A log that cannot be opened and an overflow have a code of
their own. -/
def RunError.exitCode : RunError → UInt32
  | logging (.unopened _) | overflow => 101
  | _ => 1

/-- The end of a run: the exit code, what is printed, the failure if there is one, and what is to be
logged. -/
structure Outcome where
  exitCode : UInt32
  output : String := ""
  failure : Option String := none
  notices : List Notice := []
deriving Repr

namespace Host

variable {m : Type → Type} [Monad m]

/-- The configuration file that applies. -/
def configFile (h : Host m) (explicit : Option Text) :
    m (Except ConfigError (Option ConfigFile)) := do
  let places : ConfigPlaces :=
    { explicit
      environment := h.configVariable
      usual := h.configDirectory.map ConfigFile.usualPath }
  match places.chosen with
  | some path => return ConfigFile.load path (← h.read path)
  | none => return .ok none

/-- The entries of a directory that may have been given. -/
def listGiven (h : Host m) : Option Text → m (Option Listing)
  | some path => return some (← h.list path)
  | none => return none

/-- Prints the listing of a description. -/
def printListing (h : Host m) (o : Options) : m (Except RunError (Noted String)) := do
  match ← h.configFile o.config with
  | .error e => return .error (.configuration e)
  | .ok file =>
    let settings := Settings.resolve h.stateDirectory file h.widthVariable o.width
    match ← h.openLog settings.logFilePath with
    | .error e => return .error (.logging e)
    | .ok () =>
      match (← h.read o.file).text with
      | .error reason => return .error (.io reason)
      | .ok text =>
        let sources : ImageSources :=
          { images := ← h.listGiven o.images, animations := ← h.listGiven o.gifs }
        let images := ImageCache.load settings sources
        match Listed.ofText? settings images o.brackets text with
        | none => return .error .overflow
        | some listed => return .ok { listed with value := listed.value.print o }

/-- Runs the program. -/
def run (h : Host m) (arguments : List Text) : m Outcome := do
  match Request.ofArguments arguments with
  | .error _ => return { exitCode := 2, failure := some ("Usage: " ++ Help.usage) }
  | .ok (.help long) => return { exitCode := 0, output := if long then Help.full else Help.brief }
  | .ok .version => return { exitCode := 0, output := Help.versionLine }
  | .ok (.list options) =>
    match ← h.printListing options with
    | .error e => return { exitCode := e.exitCode, failure := some e.message }
    | .ok printed =>
      return { exitCode := 0, output := printed.value, notices := printed.notices }

end Host

end Changelog
