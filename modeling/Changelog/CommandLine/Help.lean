import Changelog.CommandLine.Options

/-!
The help text, short and at length. In the short form descriptions stand in a column beside the
options; at length each one has lines of its own.
-/

namespace Changelog

/-- What an option is for. -/
def CliOption.summary : CliOption → String
  | width => "Column width in pixels (overrides config and environment)"
  | config => "Path to configuration file"
  | images => "Directory of still images, searched recursively"
  | gifs => "Directory whose subdirectories are animated frame groups"
  | brackets => "Treat `[` and `]` as `<` and `>`"
  | showPattern => "Print the compiled tag pattern before the listing"
  | format => "Output format"
  | noColor => "Disable colors"
  | help => "Print help"
  | version => "Print version"

/-- What a listing of this form looks like. -/
def ListingFormat.summary : ListingFormat → String
  | text => "One line per segment, then the total"
  | json => "A single JSON document"

namespace Help

def about : String :=
  "Parse a changelog description and print its segments and layout heights"

def usage : String :=
  String.ofList programName ++ " [OPTIONS] <FILE>"

def fileLabel : String := "<FILE>"

def fileSummary : String := "Path to the description file"

def spaces (n : Nat) : String :=
  String.ofList (List.replicate n ' ')

/-- The spellings of an option, and the name of its value. -/
def label (o : CliOption) : String :=
  let short :=
    match o.short? with
    | some letter => String.ofList ['-', letter, ',', ' ']
    | none => spaces 4
  let value :=
    if o.takesValue then " <" ++ String.ofList (o.long.map Char.toUpper) ++ ">" else ""
  short ++ "--" ++ String.ofList o.long ++ value

/-- The names of the formats, divided by commas. -/
def formatNames : String :=
  ", ".intercalate (ListingFormat.all.map fun format => String.ofList format.name)

def defaultNote : String :=
  "[default: " ++ String.ofList ListingFormat.text.name ++ "]"

/-- Width of the column of options. -/
def labelWidth : Nat :=
  CliOption.all.foldl (fun width o => max width (label o).length) 0

/-- What the short help says of an option. -/
def briefDescription (o : CliOption) : String :=
  match o with
  | .format => o.summary ++ " " ++ defaultNote ++ " [possible values: " ++ formatNames ++ "]"
  | .help => o.summary ++ " (see more with '--help')"
  | o => o.summary

def briefOption (o : CliOption) : String :=
  let label := label o
  "  " ++ label ++ spaces (labelWidth + 2 - label.length) ++ briefDescription o ++ "\n"

/-- A line below an option. -/
def indented (line : String) : String :=
  spaces 10 ++ line ++ "\n"

/-- What the long help says of an option. -/
def fullDescription (o : CliOption) : String :=
  match o with
  | .format =>
    indented o.summary ++ "\n" ++ indented "Possible values:" ++
      String.join (ListingFormat.all.map fun format =>
        indented ("- " ++ String.ofList format.name ++ ": " ++ format.summary)) ++
      indented "" ++ indented defaultNote
  | .help => indented (o.summary ++ " (see a summary with '-h')")
  | o => indented o.summary

def fullOption (o : CliOption) : String :=
  "  " ++ label o ++ "\n" ++ fullDescription o

def opening : String :=
  about ++ "\n\nUsage: " ++ usage ++ "\n\nArguments:\n  " ++ fileLabel

/-- The short help. -/
def brief : String :=
  opening ++ "  " ++ fileSummary ++ "\n\nOptions:\n" ++
    String.join (CliOption.all.map briefOption)

/-- The long help. -/
def full : String :=
  opening ++ "\n" ++ indented fileSummary ++ "\nOptions:\n" ++
    "\n".intercalate (CliOption.all.map fullOption)

/-- The name of the program and its version. -/
def versionLine : String :=
  String.ofList programName ++ " 0.1.0\n"

end Help

end Changelog
