import ConfigRegistry.Scenario
import ConfigRegistry.Service
import Std.Async.Signal
import Std.Time.DateTime.Timestamp

/-!
# The program

Arguments, files and the clock are handed to the service; its outcome is printed. A
node is run in real time until it is interrupted. It has an empty store and no
connections, and does not see the directory of backups.
-/

namespace ConfigRegistry

def readFile (path : String) : IO (Except ReadFault Bytes) := do
  try
    return .ok (← IO.FS.readBinFile path).data.toList
  catch e =>
    return .error <| match e with
      | .noFileOrDirectory .. => .noFile
      | .inappropriateType _ 20 _ => .notDirectory
      | .inappropriateType .. => .isDirectory
      | .invalidArgument _ 36 _ => .nameTooLong
      | e => ⟨toString e, false⟩

/-- What the clock shows. -/
def wallClock : IO Timestamp := do
  let nanos := (← Std.Time.Timestamp.now).toNanosecondsSinceUnixEpoch.val.toNat
  return ⟨UInt64.ofNat (nanos / nanosPerSecond), UInt32.ofNat (nanos % nanosPerSecond)⟩

def setClock (t : Timestamp) (s : Simulation) : Simulation :=
  { s with world := { s.world with start := t, readings := 0 } }

/-- Lets a simulation keep pace with real time until an interruption. -/
partial def keepPace (interrupted : IO Bool) (began : Nat) (s : Simulation) : IO Simulation := do
  if ← interrupted then return s
  IO.sleep 20
  let s := setClock (← wallClock) s
  keepPace interrupted began (s.advance ((← IO.monoMsNow) - began - s.world.time)).1

/-- Runs a node until it is interrupted. -/
def runNode (settings : Settings) : IO Unit := do
  let signal ← (← Std.Async.Signal.Waiter.mk .sigint false).wait
  let began ← IO.monoMsNow
  let (s, node) := (Simulation.mk (.initial (← wallClock)) []).startNode settings true
  let s ← keepPace (IO.hasFinished signal) began s
  let p := Simulation.profileOf settings
  let _ := s.shutdown node (Sweep.deleteOwn p.nodeId p.limits).outcome

/-- The surroundings of the program, with the files of the given paths read in advance. -/
def surroundings (paths : List String) : IO Service.Surroundings := do
  let files ← paths.mapM fun path => return (path, ← readFile path)
  let nodeId ← IO.getEnv "CFM_NODE_ID"
  return {
    getVariable := fun name => if name = "CFM_NODE_ID" then nodeId else none
    file := fun path => ((files.find? (·.1 = path)).map (·.2)).getD (.error .noFile) }

end ConfigRegistry

open ConfigRegistry in
/-- Runs the program. -/
def main (args : List String) : IO UInt32 := do
  let paths := match Service.command (← surroundings []) args with
    | .ok (.serve path _) => [path]
    | .ok (.checkConfig path) => [path]
    | .error _ => []
  match Service.outcome (← surroundings paths) args with
  | .ends code out err =>
    IO.print out
    IO.eprint err
    return code.toUInt32
  | .serves settings err =>
    IO.eprint err
    runNode settings
    return 0
