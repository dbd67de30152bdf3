import Changelog.Files.Path
import Changelog.Text.Quoted

/-!
Where the log goes. A path is cut into the directory that holds the log and the name of its file;
the directory is created if need be.
-/

namespace Changelog

/-- Why nothing can be logged. -/
inductive LogError where
  | directoryCreation (path : Text) (reason : String)
  /-- The path does not end in a name. -/
  | invalidPath (path : Text)
  /-- The file cannot be written to. -/
  | unopened (path : Text)
  /-- Another log is in use already. -/
  | alreadyLogging
deriving DecidableEq, Repr

def LogError.message : LogError → String
  | directoryCreation path reason =>
    "cannot create log directory " ++ String.ofList (Text.quoted path) ++ ": " ++ reason
  | invalidPath path =>
    "log path " ++ String.ofList (Text.quoted path) ++ " does not name a file"
  | unopened path => "cannot open log file " ++ String.ofList (Text.quoted path)
  | alreadyLogging => "a global tracing subscriber is already installed"

/-- The directory of the log, read and as it was written, and the name of its file. -/
structure LogTarget where
  directory : Path
  written : Text
  file : Text
deriving DecidableEq, Repr

/-- Cuts the last name off a path. -/
def LogTarget.ofPath (text : Text) : Except LogError LogTarget :=
  let path := Path.ofText text
  match path.steps.getLast? with
  | some (.name file) =>
    .ok ⟨{ path with steps := path.steps.dropLast }, Path.written text, file⟩
  | _ => .error (.invalidPath text)

end Changelog
