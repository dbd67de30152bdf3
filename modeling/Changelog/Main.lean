import Changelog.CommandLine.Run
import Changelog.Image.Header

/-!
The command line program: it gives a run the files and variables that it asks for, and prints what
comes out.
-/

namespace Changelog.Main

/-- What is found at a path. -/
def readFile (path : Text) : IO FileContent := do
  match ← (IO.FS.readBinFile (String.ofList path)).toBaseIO with
  | .ok bytes => return .bytes bytes
  | .error e =>
    match ← (do (← IO.FS.realPath (String.ofList path)).pathExists : IO Bool).toBaseIO with
    | .ok true => return .unreadable (toString e)
    | _ => return .missing

mutual

/-- A file with the size of its image, or a directory. -/
partial def readTree (entry : IO.FS.DirEntry) : IO FileTree := do
  if ← entry.path.isDir then return .directory (← listEntries (← entry.path.readDir).toList)
  else
    match ← (IO.FS.readBinFile entry.path).toBaseIO with
    | .ok bytes => return .file bytes (ImageHeader.read? bytes.toList)
    | .error _ => return .file .empty none

/-- The entries of a directory; those that cannot be read are left out. -/
partial def listEntries : List IO.FS.DirEntry → IO Listing
  | [] => return .nil
  | entry :: rest => do
    let more ← listEntries rest
    match ← (readTree entry).toBaseIO with
    | .ok tree => return .cons entry.fileName.toList tree more
    | .error _ => return more

end

/-- The directory at a path; without entries if there is none. -/
def listDirectory (path : Text) : IO Listing := do
  match ← (do (← IO.FS.realPath (String.ofList path)).readDir : IO _).toBaseIO with
  | .ok entries => listEntries entries.toList
  | .error _ => return .nil

/-- Creates the directory of a log and opens its file at the end. -/
def openLog (log : IO.Ref (Option IO.FS.Handle)) (path : Text) : IO (Except LogError Unit) := do
  match LogTarget.ofPath path with
  | .error e => return .error e
  | .ok target =>
    match ← (IO.FS.createDirAll (String.ofList target.directory.toText)).toBaseIO with
    | .error e => return .error (.directoryCreation target.written (toString e))
    | .ok () =>
      match ← (IO.FS.Handle.mk (String.ofList path) .append).toBaseIO with
      | .error _ => return .error (.unopened path)
      | .ok handle =>
        log.set (some handle)
        return .ok ()

/-- The directory in a variable of the environment, or else the one below the home directory. -/
def baseDirectory (name below : String) : IO (Option Text) := do
  match ← IO.getEnv name with
  | some path => if path.startsWith "/" then return some path.toList
  | none => pure ()
  return (← IO.getEnv "HOME").map fun home => (home ++ below).toList

/-- The machine that the program runs on. -/
def machine (log : IO.Ref (Option IO.FS.Handle)) : IO (Host IO) := do
  return {
    read := readFile
    list := listDirectory
    openLog := openLog log
    configVariable := (← IO.getEnv "RICHLOG_CONFIG").map String.toList
    widthVariable := (← IO.getEnv "RICHLOG_COLUMN_WIDTH").map String.toList
    configDirectory := ← baseDirectory "XDG_CONFIG_HOME" "/.config"
    stateDirectory := ← baseDirectory "XDG_STATE_HOME" "/.local/state" }

/-- Writes notices to the log, one of each key. -/
def writeLog (handle : IO.FS.Handle) (notices : List Notice) : IO Unit := do
  for notice in ((({} : OnceLog).reportAll notices).2) do
    handle.putStrLn notice.line

end Changelog.Main

def main (arguments : List String) : IO UInt32 := do
  let log ← IO.mkRef none
  let outcome ← (← Changelog.Main.machine log).run (arguments.map String.toList)
  if let some handle ← log.get then Changelog.Main.writeLog handle outcome.notices
  IO.print outcome.output
  if let some failure := outcome.failure then IO.eprintln failure
  return outcome.exitCode
