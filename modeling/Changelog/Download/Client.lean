import Changelog.Settings
import Changelog.Text.Quoted

/-!
How images are requested from the network.
-/

namespace Changelog

/-- What every request says and allows. -/
structure DownloadClient where
  userAgent : Text
  maxBytes : Nat
deriving DecidableEq, Repr

namespace DownloadClient

def ofSettings {α : Type} (s : Settings α) : DownloadClient :=
  { userAgent := s.userAgent, maxBytes := s.maxDownloadBytes }

/-- The client as the log shows it. -/
def description (c : DownloadClient) : String :=
  "HttpFetcher \x7b user_agent: " ++ String.ofList (Text.quoted c.userAgent) ++ ", max_bytes: " ++
    toString c.maxBytes ++ ", .. \x7d"

end DownloadClient

end Changelog
