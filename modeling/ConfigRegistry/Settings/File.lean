import ConfigRegistry.Files
import ConfigRegistry.Format
import ConfigRegistry.Settings.Toml

/-!
# Settings files

The ending of a file's name says how its settings are written. A file is read before
its name is looked at, and its settings are checked last.
-/

namespace ConfigRegistry.Settings

/-- Why a file gives no settings. -/
inductive FileFault where
  | unreadable (fault : ReadFault)
  /-- The ending says nothing known. -/
  | unsupported (ending : String)
  | toml
  | json (fault : Json.Fault)
  | problem (p : Problem)
  deriving DecidableEq

/-- The wording of a fault. -/
def FileFault.message : FileFault → String
  | .unreadable fault => fault.reason
  | .unsupported ending => "Unsupported config file extension: " ++ ending
  | .toml => "TOML parse error"
  | .json .ended => "EOF while parsing a value"
  | .json .malformed => "expected value"
  | .json .mismatch => "invalid value"
  | .problem p => p.message

/-- The last part of a path that leads somewhere. -/
def fileName (path : String) : List Char :=
  (((pathParts path).filter (!isIdlePart ·)).getLast?.getD "").toList

/-- What follows the last dot of a name, unless the name only starts with it. -/
def ending (path : String) : String :=
  let name := fileName path
  let behind := (name.reverse.takeWhile (· ≠ '.')).reverse
  let before := name.length - behind.length - 1
  if name = ['.', '.'] ∨ behind.length = name.length ∨ before = 0 then ""
  else String.ofList behind

/-- Decodes settings as the ending of a name says; case does not matter. -/
def decode (ending text : String) : Except FileFault Settings :=
  let kind := ending.map Char.toLower
  if kind = "toml" then
    match ofToml? text with
    | none => .error .toml
    | some s => .ok s
  else if kind = "json" then
    match Json.decode Settings (Bytes.ofText text) with
    | .error fault => .error (.json fault)
    | .ok s => .ok s
  else .error (.unsupported ending)

/-- Refuses settings that a node cannot run with. -/
def checked (s : Settings) : Except FileFault Settings :=
  match s.problem? with
  | none => .ok s
  | some p => .error (.problem p)

/-- The settings of a file, given its path and what reading it gave. -/
def ofFile (path : String) (content : Except ReadFault Bytes) : Except FileFault Settings :=
  match content with
  | .error fault => .error (.unreadable fault)
  | .ok bs =>
    match Bytes.toText? bs with
    | none => .error (.unreadable .notText)
    | some text => (decode (ending path) text).bind checked

end ConfigRegistry.Settings
