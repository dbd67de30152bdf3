import Changelog.Text.Quoted

/-!
Notices about faulty markup and missing resources. The same document is measured and drawn again
and again, so every notice has a key and only the first one of each key is written to the log.
-/

namespace Changelog

/-- How serious a notice is. -/
inductive Severity where
  | warning
  | error
deriving DecidableEq, Repr

/-- A message under the key that stands for its occasion. -/
structure Notice where
  severity : Severity
  key : Text
  message : String
deriving DecidableEq, Repr

def Severity.name : Severity → String
  | warning => "WARN"
  | error => "ERROR"

/-- A notice as it is logged. -/
def Notice.line (n : Notice) : String :=
  n.severity.name ++ " " ++ n.message ++ " key=" ++ String.ofList (Text.quoted n.key)

/-- The keys reported so far. -/
structure OnceLog where
  reported : List Text := []
deriving DecidableEq, Repr

namespace OnceLog

def hasReported (log : OnceLog) (key : Text) : Bool :=
  log.reported.contains key

/-- Adds the key of a notice; the notice is emitted if its key is new. -/
def report (log : OnceLog) (notice : Notice) : OnceLog × Option Notice :=
  if log.hasReported notice.key then (log, none)
  else (⟨notice.key :: log.reported⟩, some notice)

/-- Reports the notices in order and collects those that are emitted. -/
def reportAll (log : OnceLog) : List Notice → OnceLog × List Notice
  | [] => (log, [])
  | notice :: rest =>
    let (log, emitted) := log.report notice
    let (log, more) := log.reportAll rest
    (log, emitted.toList ++ more)

end OnceLog

/-- A value with the notices that computing it gave rise to. -/
structure Noted (α : Type) where
  value : α
  notices : List Notice := []
deriving Repr

namespace Noted

instance : Monad Noted where
  pure a := { value := a }
  bind x f := { value := (f x.value).value, notices := x.notices ++ (f x.value).notices }

/-- A value and one notice. -/
def tell (notice : Notice) : Noted Unit :=
  { value := (), notices := [notice] }

end Noted

end Changelog
