import Changelog.Number.Decimal
import Changelog.Settings

/-!
The options of the command line. One table says how each option is spelled and whether it takes a
value; arguments are read from left to right by it, up to the first fault or the first request for
help.
-/

namespace Changelog

/-- The forms of the listing. -/
inductive ListingFormat where
  | text
  | json
deriving DecidableEq, Repr

namespace ListingFormat

def all : List ListingFormat := [text, json]

def name : ListingFormat → Text
  | text => "text".toList
  | json => "json".toList

end ListingFormat

/-- The options. -/
inductive CliOption where
  | width
  | config
  | images
  | gifs
  | brackets
  | showPattern
  | format
  | noColor
  | help
  | version
deriving DecidableEq, Repr

namespace CliOption

/-- The order in which help lists the options. -/
def all : List CliOption :=
  [width, config, images, gifs, brackets, showPattern, format, noColor, help, version]

/-- The long spelling, without the dashes. -/
def long : CliOption → Text
  | width => "width".toList
  | config => "config".toList
  | images => "images".toList
  | gifs => "gifs".toList
  | brackets => "brackets".toList
  | showPattern => "show-pattern".toList
  | format => "format".toList
  | noColor => "no-color".toList
  | help => "help".toList
  | version => "version".toList

/-- The short spelling, a letter. -/
def short? : CliOption → Option Char
  | width => some 'w'
  | help => some 'h'
  | version => some 'V'
  | _ => none

def takesValue : CliOption → Bool
  | width | config | images | gifs | format => true
  | brackets | showPattern | noColor | help | version => false

end CliOption

/-- What the command line asks for. -/
structure Options where
  /-- The path of the description. -/
  file : Text
  width : Option Float32 := none
  config : Option Text := none
  images : Option Text := none
  gifs : Option Text := none
  /-- Whether square brackets stand for angle brackets. -/
  brackets : Bool := false
  showPattern : Bool := false
  format : ListingFormat := .text
  noColor : Bool := false

/-- What the program is to do. -/
inductive Request where
  | list (options : Options)
  /-- To print help, at length if it was asked for by its long name. -/
  | help (long : Bool)
  | version

/-- Why arguments cannot be understood. -/
inductive UsageError where
  | unknownOption (argument : Text)
  | missingValue (option : CliOption)
  | unwantedValue (option : CliOption)
  | invalidValue (option : CliOption) (value : Text)
  | repeated (option : CliOption)
  | unwantedArgument (argument : Text)
  | emptyFile
  | missingFile
deriving DecidableEq, Repr

/-- The form of an argument. -/
inductive Argument where
  /-- Two dashes alone: no options follow. -/
  | separator
  /-- An option by its long or its short spelling, with the value in the same argument. -/
  | option (option : CliOption) (long : Bool) (value : Option Text)
  /-- The spelling of an option that does not exist. -/
  | unknown
  | word
deriving DecidableEq, Repr

namespace Argument

/-- A long option. Its value stands behind an equals sign. -/
def ofLong (body : Text) : Argument :=
  let (name, value) :=
    match Text.splitOnce? (· == '=') body with
    | some (name, value) => (name, some value)
    | none => (body, none)
  match CliOption.all.find? fun o => o.long = name with
  | some found => .option found true value
  | none => .unknown

/-- A short option. Its value follows the letter, with or without an equals sign. What follows the
letter of an option without value is not looked at, because such an option ends the reading. -/
def ofShort (letter : Char) (attached : Text) : Argument :=
  match CliOption.all.find? fun o => o.short? = some letter with
  | some found =>
    .option found false
      (if found.takesValue ∧ attached ≠ [] then
        some ((Text.after? ['='] attached).getD attached)
      else none)
  | none => .unknown

/-- The form of an argument. A dash alone is a word. -/
def ofText : Text → Argument
  | ['-', '-'] => separator
  | '-' :: '-' :: body => ofLong body
  | '-' :: letter :: attached => ofShort letter attached
  | _ => word

end Argument

/-- What has been read so far. -/
structure Draft where
  file : Option Text := none
  given : List (CliOption × Text) := []
deriving DecidableEq, Repr

namespace Draft

def value? (d : Draft) (option : CliOption) : Option Text :=
  d.given.lookup option

def isGiven (d : Draft) (option : CliOption) : Bool :=
  (d.value? option).isSome

/-- Whether a value can be used with an option. -/
def isValid (option : CliOption) (value : Text) : Bool :=
  match option with
  | .width => (Number.Numeral.read? value).isSome
  | .format => ListingFormat.all.any fun format => format.name = value
  | _ => value ≠ []

/-- Takes up an option that has a value. -/
def put (d : Draft) (option : CliOption) (value : Text) : Except UsageError Draft :=
  if !isValid option value then .error (.invalidValue option value)
  else if d.isGiven option then .error (.repeated option)
  else .ok { d with given := (option, value) :: d.given }

/-- Takes up an option that has no value. -/
def mark (d : Draft) (option : CliOption) : Except UsageError Draft :=
  if d.isGiven option then .error (.repeated option)
  else .ok { d with given := (option, []) :: d.given }

/-- Takes up an argument that is no option. -/
def putFile (d : Draft) (argument : Text) : Except UsageError Draft :=
  match d.file with
  | some _ => .error (.unwantedArgument argument)
  | none => if argument = [] then .error .emptyFile else .ok { d with file := some argument }

/-- The options that were read; the file must be among them. -/
def finish (d : Draft) : Except UsageError Options :=
  match d.file with
  | none => .error .missingFile
  | some file =>
    .ok
      { file
        width := ((d.value? .width).bind Number.Numeral.read?).map Number.Numeral.toSingle
        config := d.value? .config
        images := d.value? .images
        gifs := d.value? .gifs
        brackets := d.isGiven .brackets
        showPattern := d.isGiven .showPattern
        format :=
          ((d.value? .format).bind fun value =>
            ListingFormat.all.find? fun format => format.name = value).getD .text
        noColor := d.isGiven .noColor }

/-- The arguments behind two dashes are no options. -/
def readWords (d : Draft) : List Text → Except UsageError Request
  | [] => d.finish.map Request.list
  | argument :: rest => (d.putFile argument).bind fun d => d.readWords rest

/-- The value in an argument of its own: any word. -/
def nextValue? : List Text → Option (Text × List Text)
  | [] => none
  | value :: rest => if Argument.ofText value = .word then some (value, rest) else none

theorem length_lt_of_nextValue? {arguments rest : List Text} {value : Text}
    (h : nextValue? arguments = some (value, rest)) : rest.length < arguments.length := by
  cases arguments with
  | nil => simp [nextValue?] at h
  | cons first more =>
    unfold nextValue? at h
    split at h <;> simp_all

/-- Reads the arguments from left to right. -/
def read (d : Draft) (arguments : List Text) : Except UsageError Request :=
  match arguments with
  | [] => d.finish.map Request.list
  | argument :: rest =>
    match Argument.ofText argument with
    | .separator => d.readWords rest
    | .unknown => .error (.unknownOption argument)
    | .word => (d.putFile argument).bind fun d => d.read rest
    | .option option long value =>
      match option.takesValue, value with
      | true, some value => (d.put option value).bind fun d => d.read rest
      | true, none =>
        match _h : nextValue? rest with
        | some (value, rest) => (d.put option value).bind fun d => d.read rest
        | none => .error (.missingValue option)
      | false, some _ => .error (.unwantedValue option)
      | false, none =>
        match option with
        | .help => .ok (.help long)
        | .version => .ok .version
        | option => (d.mark option).bind fun d => d.read rest
termination_by arguments.length
decreasing_by
  · simp
  · simp
  · have := length_lt_of_nextValue? _h
    simp only [List.length_cons]
    omega
  · simp

end Draft

/-- Reads the arguments of the command line. -/
def Request.ofArguments (arguments : List Text) : Except UsageError Request :=
  ({} : Draft).read arguments

end Changelog
