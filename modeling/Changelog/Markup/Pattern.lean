import Changelog.Color
import Changelog.Markup.Registry

/-!
The pattern that a registry stands for, as text: an alternative for each tag, then one for plain
text up to the next opening marker. For display its characters are coloured by their role.
-/

namespace Changelog

/-- A marker with a backslash before every slash. -/
def escapeSlashes (marker : Text) : Text :=
  marker.flatMap fun c => if c = '/' then ['\\', '/'] else [c]

/-- The alternative of a tag. -/
def TagDefinition.pattern (d : TagDefinition) : Text :=
  match d.closer with
  | some closer => '(' :: d.opener ++ ['.', '*', '?'] ++ escapeSlashes closer ++ [')']
  | none => '(' :: escapeSlashes d.opener ++ [')']

/-- The alternatives in order of priority, the one for plain text last. -/
def Registry.pattern (r : Registry) : Text :=
  (r.tags.flatMap fun d => d.pattern ++ ['|']) ++ ['(', '.', '+', '?', '(', '?', '='] ++
    (r.openers.flatMap fun opener => escapeSlashes opener ++ ['|']) ++ ['$', ')', ')']

namespace Pattern

/-- The role of a character in a pattern. -/
inductive Role where
  | quantifier
  | grouping
  | literal
deriving DecidableEq, Repr

def Role.color : Role → Color
  | quantifier => .ofUnit 0.843 0.275 0.785
  | grouping => .ofUnit 0.177 0.71 0.451
  | literal => .ofUnit 0.9 0.59 0.275

/-- The role of a character that follows `previous`. -/
def role (previous : Option Char) (c : Char) : Role :=
  if c = '*' ∨ c = '?' ∨ c = '+' then .quantifier
  else if (c = '.' ∨ c = '(' ∨ c = ')') ∧ previous ≠ some '\\' then .grouping
  else .literal

/-- Neighbouring characters of one role. -/
structure Run where
  role : Role
  text : Text
deriving DecidableEq, Repr

/-- Puts a character before the runs that follow it. -/
def consRun (role : Role) (c : Char) : List Run → List Run
  | [] => [⟨role, [c]⟩]
  | run :: rest =>
    if run.role = role then ⟨role, c :: run.text⟩ :: rest else ⟨role, [c]⟩ :: run :: rest

/-- The runs of a text that follows `previous`. -/
def runsFrom (previous : Option Char) : Text → List Run
  | [] => []
  | c :: rest => consRun (role previous c) c (runsFrom (some c) rest)

/-- Splits a pattern into runs, as long as possible. -/
def runs (pattern : Text) : List Run :=
  runsFrom none pattern

/-- The escape sequence that sets the colour of the text that follows. -/
def foreground (c : Color) : Text :=
  ['\x1b', '[', '3', '8', ';', '2', ';'] ++ Nat.toDigits 10 c.red.toNat ++ [';'] ++
    Nat.toDigits 10 c.green.toNat ++ [';'] ++ Nat.toDigits 10 c.blue.toNat ++ ['m']

/-- The escape sequence that sets the usual colour again. -/
def resetSequence : Text := ['\x1b', '[', '0', 'm']

/-- The runs with their colours, for a terminal. -/
def toTerminal (runs : List Run) : Text :=
  (runs.flatMap fun run => foreground run.role.color ++ run.text) ++
    if runs = [] then [] else resetSequence

end Pattern

end Changelog
