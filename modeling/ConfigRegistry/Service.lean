import ConfigRegistry.CommandLine.Help
import ConfigRegistry.Settings.File
import ConfigRegistry.Text.Plain

/-!
# The service program

One subcommand runs a node until it is interrupted, the other one checks a settings
file and prints what it stands for. A node runs with standard settings when its file
does not exist, and its id may be given apart from them.
-/

namespace ConfigRegistry.Service

open CommandLine (Flag Subcommand Refusal Invocation)

/-- The settings file of a node. -/
def configFlag : Flag where
  name := "config"
  letter := some 'c'
  placeholder := "CONFIG"
  about := "Config file; defaults are used when it does not exist"
  standard := some "/etc/confmesh/node.toml"
  variableName := none
  mayBeEmpty := false
  isRequired := false

def nodeIdFlag : Flag where
  name := "node-id"
  letter := none
  placeholder := "NODE_ID"
  about := "Overrides `node_id` from the config file"
  standard := none
  variableName := some "CFM_NODE_ID"
  mayBeEmpty := true
  isRequired := false

/-- The settings file to check. -/
def checkedFlag : Flag :=
  { configFlag with about := "Config file to check", standard := none, isRequired := true }

/-- Runs a node. -/
def serve : Subcommand := ⟨"serve", "Run the node until interrupted", [configFlag, nodeIdFlag]⟩

/-- Checks a settings file. -/
def checkConfig : Subcommand :=
  ⟨"check-config", "Load and validate a config file, then print it", [checkedFlag]⟩

def program : CommandLine.Program :=
  ⟨"cfm-node", "Confmesh config service node", [serve, checkConfig]⟩

/-- What a command line asks for. -/
inductive Command where
  | serve (config : String) (nodeId : Option String)
  | checkConfig (config : String)
  deriving DecidableEq, Repr

/-- What surrounds the program: its environment variables and the files at its paths. -/
structure Surroundings where
  getVariable : String → Option String
  file : String → Except ReadFault Bytes

def Command.ofInvocation (s : Surroundings) (i : Invocation) : Command :=
  let value? := i.value? s.getVariable
  if i.subcommand = Service.serve then
    .serve ((value? configFlag).getD "") (value? nodeIdFlag)
  else .checkConfig ((value? checkedFlag).getD "")

/-- Reads a command line. -/
def command (s : Surroundings) (args : List String) : Except Refusal Command :=
  (CommandLine.parse program.subcommands args).map (Command.ofInvocation s)

/-- What becomes of the program. -/
inductive Outcome where
  /-- It ends with an exit code, having written to its two outputs. -/
  | ends (code : UInt8) (out err : String)
  /-- A node runs with these settings until it is interrupted, which ends the program well. -/
  | serves (settings : Settings) (err : String)
  deriving DecidableEq

/-- Ends with an error. -/
def Outcome.failure (err message : String) : Outcome :=
  .ends 1 "" (err ++ "Error: " ++ message ++ "\n")

/-- Breaks down because a count does not fit. -/
def Outcome.breakdown : Outcome := .ends 101 "" "attempt to add with overflow\n"

/-- Ends without having carried out the command line. -/
def Outcome.ofRefusal (s : Surroundings) : Refusal → Outcome
  | .help topic => .ends 0 (Text.plain (program.describe s.getVariable topic)) ""
  | .nothingAsked => .ends 2 "" (program.describe s.getVariable .program)
  | r => .ends 2 "" ("error: " ++ r.message ++ "\n")

/-- What is said about a settings file that does not exist. -/
def absentNote (path : String) : String :=
  "config file not found, using defaults: " ++ path ++ "\n"

/-- The settings of a file, the standard ones if it does not exist, and what is said about it. -/
def loadOrStandard (s : Surroundings) (path : String) : Except Settings.FileFault Settings × String :=
  match s.file path with
  | .error ⟨_, true⟩ => (.ok .standard, absentNote path)
  | content => (Settings.ofFile path content, "")

/-- Settings with another node id, if there is one. -/
def withNodeId (nodeId : Option String) (s : Settings) : Settings :=
  match nodeId with
  | none => s
  | some id => { s with nodeId := id }

/-- What is said of settings that cannot be printed. -/
def unprintable : String := "out-of-range value for u64 type"

/-- Carries out a command. -/
def Outcome.ofCommand (s : Surroundings) : Command → Outcome
  | .serve path nodeId =>
    let (settings, note) := loadOrStandard s path
    match settings.bind fun settings => Settings.checked (withNodeId nodeId settings) with
    | .error fault => .failure note fault.message
    | .ok settings => .serves settings note
  | .checkConfig path =>
    match Settings.ofFile path (s.file path) with
    | .error fault => .failure "" fault.message
    | .ok settings =>
      match settings.toToml with
      | .error .unwritable => .failure "" unprintable
      | .error .longRun => .breakdown
      | .ok text => .ends 0 (text ++ "\n") ""

/-- What becomes of the program called with these arguments. -/
def outcome (s : Surroundings) (args : List String) : Outcome :=
  match command s args with
  | .error r => .ofRefusal s r
  | .ok c => .ofCommand s c

end ConfigRegistry.Service
