import Changelog.Configuration.File
import Changelog.Files.Content
import Changelog.Settings

/-!
Where the configuration comes from. Of all places that may name a configuration file only the first
one is looked at, even if there is no file in it.
-/

namespace Changelog

/-- The paths that may lead to the configuration file, the most specific one first. -/
structure ConfigPlaces where
  /-- From the command line. -/
  explicit : Option Text := none
  /-- From the environment. -/
  environment : Option Text := none
  /-- The usual place. -/
  usual : Option Text := none
deriving DecidableEq, Repr

/-- The path that is looked at. -/
def ConfigPlaces.chosen (p : ConfigPlaces) : Option Text :=
  (p.explicit.or p.environment).or p.usual

namespace ConfigFile

/-- The usual place of the configuration file inside the directory for configurations. -/
def usualPath (configDirectory : Text) : Text :=
  configDirectory ++ '/' :: programName ++ "/config.toml".toList

/-- Reads a configuration file from what was found at its path. A missing file is no error. -/
def load (path : Text) : FileContent → Except ConfigError (Option ConfigFile)
  | .missing => .ok none
  | found =>
    match found.text with
    | .ok text => (parse path text).map some
    | .error reason => .error (.unreadable path reason)

end ConfigFile

end Changelog
