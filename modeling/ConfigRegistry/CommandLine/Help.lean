import ConfigRegistry.CommandLine

/-!
# Descriptions of command lines

A description says what a program is for, how it is called, and what may follow it,
in two aligned columns.
-/

namespace ConfigRegistry.CommandLine

/-- A program: its name, what it is for, and its subcommands. -/
structure Program where
  name : String
  about : String
  subcommands : List Subcommand

/-- So many spaces. -/
def spaces (n : Nat) : String := String.ofList (List.replicate n ' ')

/-- A text whose lines behind the first one are indented. -/
def indented (n : Nat) (text : String) : String :=
  String.join <| text.toList.map fun c => if c = '\n' then "\n" ++ spaces n else c.toString

/-- Two columns, the second one aligned, also where a text in it has several lines. -/
def columns (rows : List (String × String)) : String :=
  let width := (rows.map (·.1.length)).foldl max 0
  String.join <| rows.map fun (left, right) =>
    "  " ++ left ++ spaces (width + 2 - left.length) ++ indented (width + 4) right ++ "\n"

def Flag.usage (f : Flag) : String := "--" ++ f.name ++ " <" ++ f.placeholder ++ ">"

/-- The row of a flag: its forms, what it is for, and where its value comes from otherwise. -/
def Flag.row (environment : String → Option String) (f : Flag) : String × String :=
  let short := match f.letter with
    | some c => String.ofList ['-', c, ',', ' ']
    | none => "    "
  let fromEnvironment := match f.variableName with
    | some v => " [env: " ++ v ++ "=" ++ (environment v).getD "" ++ "]"
    | none => ""
  let otherwise := match f.standard with
    | some v => " [default: " ++ v ++ "]"
    | none => ""
  (short ++ f.usage, f.about ++ fromEnvironment ++ otherwise)

/-- The row of the flag that asks for a description. -/
def helpRow : String × String := ("-h, --help", "Print help")

/-- What the subcommand that describes others is for. -/
def helpAbout : String := "Print this message or the help of the given subcommand(s)"

/-- A description under its usage line. -/
def page (about usage : String) (blocks : List (String × List (String × String))) : String :=
  about ++ "\n\nUsage: " ++ usage ++ "\n" ++
    String.join (blocks.map fun (title, rows) => "\n" ++ title ++ ":\n" ++ columns rows)

/-- How a subcommand is called: flags that may be left out are not named. -/
def Subcommand.usage (s : Subcommand) : String :=
  let optional := if s.flags.all (·.isRequired) then "" else " [OPTIONS]"
  let required := (s.flags.filter (·.isRequired)).map fun f => " " ++ f.usage
  s.name ++ optional ++ String.join required

def Program.describe (p : Program) (environment : String → Option String) : Topic → String
  | .program => page p.about (p.name ++ " <COMMAND>")
    [("Commands", p.subcommands.map (fun s => (s.name, s.about)) ++ [("help", helpAbout)]),
     ("Options", [helpRow])]
  | .subcommand s => page s.about (p.name ++ " " ++ s.usage)
    [("Options", s.flags.map (Flag.row environment) ++ [helpRow])]
  | .help => page helpAbout (p.name ++ " help [COMMAND]...")
    [("Arguments", [("[COMMAND]...", "Print help for the subcommand(s)")])]

/-- The wording of a refusal other than a description. -/
def Refusal.message : Refusal → String
  | .help _ => ""
  | .nothingAsked => "a subcommand is required"
  | .unknownArgument => "unexpected argument"
  | .unknownSubcommand => "unrecognized subcommand"
  | .missingArgument => "a required argument was not provided"
  | .invalidValue => "a value is missing or invalid"
  | .repeatedFlag => "an argument cannot be used multiple times"
  | .needlessValue => "unexpected value"

end ConfigRegistry.CommandLine
