/-!
# Command lines

A command line names a subcommand and gives flags their values. A flag waits for its
value: the next word that is no flag. Its value is checked when the next flag is met
or the line ends, so that an unknown word is reported first. No words but flags and
their values follow a subcommand.
-/

namespace ConfigRegistry.CommandLine

/-- A flag that takes a value. -/
structure Flag where
  /-- Its long form, without dashes. -/
  name : String
  /-- Its short form. -/
  letter : Option Char
  /-- What stands for the value in descriptions. -/
  placeholder : String
  about : String
  /-- The value when none is given. -/
  standard : Option String
  /-- The environment variable that gives the value when no flag does. -/
  variableName : Option String
  mayBeEmpty : Bool
  /-- Whether it must be given. -/
  isRequired : Bool
  deriving DecidableEq

/-- A subcommand with its flags. -/
structure Subcommand where
  name : String
  about : String
  flags : List Flag
  deriving DecidableEq

/-- What can be described: the program, a subcommand, or the description of descriptions. -/
inductive Topic where
  | program
  | subcommand (s : Subcommand)
  | help
  deriving DecidableEq

/-- Why a command line is not carried out. -/
inductive Refusal where
  /-- A description is asked for. -/
  | help (t : Topic)
  | nothingAsked
  | unknownArgument
  | unknownSubcommand
  | missingArgument
  /-- A flag has no value, or one that is not allowed. -/
  | invalidValue
  /-- A flag is given twice. -/
  | repeatedFlag
  /-- A value is given to a flag that takes none. -/
  | needlessValue
  deriving DecidableEq

/-- Flags and values so far. -/
structure Given where
  values : List (Flag × String)
  /-- The flag met last, if its value is still to be checked or to come. -/
  pending : Option (Flag × Option String)
  /-- Whether two dashes ended the flags. -/
  closed : Bool

def Given.value? (g : Given) (f : Flag) : Option String :=
  (g.values.find? (·.1 = f)).map (·.2)

def Given.put (f : Flag) (v : String) (g : Given) : Except Refusal Given :=
  if (g.value? f).isSome then .error .repeatedFlag
  else if v = "" ∧ !f.mayBeEmpty then .error .invalidValue
  else .ok { g with values := g.values ++ [(f, v)] }

/-- Checks the flag met last. -/
def Given.settle (g : Given) : Except Refusal Given :=
  match g.pending with
  | none => .ok g
  | some (_, none) => .error .invalidValue
  | some (f, some v) => { g with pending := none }.put f v

/-- Meets a flag, perhaps with its value. -/
def Given.meet (f : Flag) (v : Option String) (g : Given) : Except Refusal Given :=
  g.settle.bind fun g =>
    match v with
    | some v => g.put f v
    | none => .ok { g with pending := some (f, none) }

/-- A word as it is written. -/
inductive Word where
  | plain (s : String)
  /-- Two dashes. -/
  | stop
  /-- A long flag, perhaps with a value behind an equals sign. -/
  | long (name : String) (value : Option String)
  /-- Short flags in one word, of which there is at least one. -/
  | short (first : Char) (rest : List Char)
  deriving DecidableEq

/-- The kind of a word. A single dash is plain. -/
def Word.ofString (s : String) : Word :=
  match s.toList with
  | ['-', '-'] => .stop
  | '-' :: '-' :: rest =>
    let name := rest.takeWhile (· ≠ '=')
    let value := (rest.dropWhile (· ≠ '=')).tail?
    .long (String.ofList name) (value.map String.ofList)
  | '-' :: c :: rest => .short c rest
  | _ => .plain s

/-- Takes a long flag; `help` without a value asks for a description. -/
def takeLong (s : Subcommand) (name : String) (value : Option String) (g : Given) :
    Except Refusal Given :=
  match s.flags.find? (·.name = name) with
  | some f => g.meet f value
  | none =>
    if name = "help" then
      if value.isSome then .error .needlessValue
      else g.settle.bind fun _ => .error (.help (.subcommand s))
    else .error .unknownArgument

/-- Takes a short flag; what is left of its word is its value, perhaps behind an equals sign. -/
def takeShort (s : Subcommand) (c : Char) (rest : List Char) (g : Given) : Except Refusal Given :=
  match s.flags.find? (·.letter = some c) with
  | some f =>
    g.meet f <| match rest with
      | [] => none
      | '=' :: v => some (String.ofList v)
      | v => some (String.ofList v)
  | none =>
    if c = 'h' then g.settle.bind fun _ => .error (.help (.subcommand s))
    else .error .unknownArgument

def takeWord (s : Subcommand) (word : String) (g : Given) : Except Refusal Given :=
  if g.closed then .error .unknownArgument
  else match Word.ofString word with
    | .stop => .ok { g with closed := true }
    | .long name value => takeLong s name value g
    | .short c rest => takeShort s c rest g
    | .plain v => match g.pending with
      | some (f, none) => .ok { g with pending := some (f, some v) }
      | _ => .error .unknownArgument

def takeWords (s : Subcommand) : List String → Given → Except Refusal Given
  | [], g => g.settle
  | w :: rest, g => (takeWord s w g).bind (takeWords s rest)

/-- What a command line asks for: a subcommand with the values of its flags. -/
structure Invocation where
  subcommand : Subcommand
  values : List (Flag × String)
  deriving DecidableEq

/-- The subcommand with the values given, if no flag is missing. -/
def Given.finish (s : Subcommand) (g : Given) : Except Refusal Invocation :=
  if s.flags.all fun f => !f.isRequired || (g.value? f).isSome then .ok ⟨s, g.values⟩
  else .error .missingArgument

/-- The value of a flag: as given, from the environment, or the standard one. -/
def Invocation.value? (environment : String → Option String) (i : Invocation) (f : Flag) :
    Option String :=
  (((i.values.find? (·.1 = f)).map (·.2)).or (f.variableName.bind environment)).or f.standard

/-- The description that words behind `help` ask for. -/
def describe (all : List Subcommand) : List String → Refusal
  | [] => .help .program
  | [name] =>
    if name = "help" then .help .help
    else match all.find? (·.name = name) with
      | some s => .help (.subcommand s)
      | none => .unknownSubcommand
  | _ => .unknownSubcommand

/-- Reads a command line. -/
def parse (all : List Subcommand) : List String → Except Refusal Invocation
  | [] => .error .nothingAsked
  | word :: rest =>
    match Word.ofString word with
    | .stop => match rest with
      | [] => .error .nothingAsked
      | name :: _ =>
        -- two dashes in front of a subcommand are not skipped
        if name = "help" ∨ all.any (·.name = name) then .error .unknownArgument
        else .error .unknownSubcommand
    | .long name value =>
      if name = "help" then
        .error (if value.isSome then .needlessValue else .help .program)
      else .error .unknownArgument
    | .short c _ => .error (if c = 'h' then .help .program else .unknownArgument)
    | .plain name =>
      if name = "help" then .error (describe all rest)
      else match all.find? (·.name = name) with
        | none => .error .unknownSubcommand
        | some s => (takeWords s rest ⟨[], none, false⟩).bind (Given.finish s)

end ConfigRegistry.CommandLine
