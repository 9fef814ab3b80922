import ConfigRegistry.Housekeeping
import ConfigRegistry.Schedule
import ConfigRegistry.World

/-!
# Simulated time

Time moves only while a program waits, from one due time to the next. Whatever is
due at that time goes on, in the order in which it began to wait; then the messages
of broadcasts are sent. A program in the foreground is given up when it waits too
long.
-/

namespace ConfigRegistry

/-- Periodic work of a node. -/
structure Job where
  node : Nat
  period : Nat
  /-- When the next run is due. -/
  due : Nat
  /-- Whether no run follows the current one. -/
  cancelled : Bool
  run : Prog Unit

/-- What waits in the background. -/
inductive Activity where
  /-- The sending of a message. -/
  | sending (resume : World → World.Progress Unit)
  /-- A run of periodic work. -/
  | running (j : Job) (resume : World → World.Progress Unit)
  /-- Periodic work between two runs. -/
  | idle (j : Job)

/-- An activity and the time it waits for. -/
structure Sleeper where
  due : Nat
  activity : Activity

/-- The world with all that waits in the background, in the order of waiting. -/
structure Simulation where
  world : World
  sleepers : List Sleeper

/-- How a program in the foreground ended. -/
inductive Finish (α : Type) where
  | returned (x : α)
  /-- It waited too long. -/
  | hung
  /-- A number did not fit. -/
  | overflow

namespace Simulation

/-- The longest a program may wait, in milliseconds. -/
def patience : Nat := 10000000

/-! ## Background -/

/-- What becomes of a run of periodic work. A due time that has already passed starts the next run
at once; the budget bounds how many. -/
def settleRun (fuel : Nat) (j : Job) (p : World.Progress Unit) (w : World) : World × Option Sleeper :=
  match p with
  | .finished w () =>
    if j.cancelled then (w, none)
    else if w.time < j.due then (w, some ⟨j.due, .idle j⟩)
    else match fuel with
      | 0 => (w, some ⟨w.time + 1, .idle j⟩)
      | fuel + 1 =>
        settleRun fuel { j with due := Schedule.next j.period j.due w.time } (w.run j.node j.run) w
  | .waiting w due resume => (w, some ⟨due, .running j resume⟩)
  | .stuck w => (w, none)
  | .overflow => (w, none)

/-- Starts a run of periodic work that is due. -/
def startRun (j : Job) (w : World) : World × Option Sleeper :=
  settleRun (w.time + 1 - j.due) { j with due := Schedule.next j.period j.due w.time }
    (w.run j.node j.run) w

/-- What becomes of the sending of a message. -/
def settleSending (p : World.Progress Unit) (w : World) : World × Option Sleeper :=
  match p with
  | .finished w () => (w, none)
  | .waiting w due resume => (w, some ⟨due, .sending resume⟩)
  | .stuck w => (w, none)
  | .overflow => (w, none)

/-- Lets an activity go on. -/
def wake (w : World) : Activity → World × Option Sleeper
  | .sending resume => settleSending (resume w) w
  | .running j resume => settleRun (w.time + 1 - j.due) j (resume w) w
  | .idle j => startRun j w

/-- Lets activities go on one after the other; those that wait again are collected. -/
def wakeAll : List Sleeper → World → World × List Sleeper
  | [], w => (w, [])
  | s :: rest, w =>
    let (w, again) := wake w s.activity
    let (w, more) := wakeAll rest w
    (w, again.toList ++ more)

/-- The program that sends a message of a broadcast. -/
def Notice.program (n : Notice) : Prog Unit := do
  let _ ← Prog.request (.emit (some n.limit) n.recipient n.event n.payload)

/-- Sends messages one after the other; those that take a while are collected. -/
def sendAll : List Notice → World → World × List Sleeper
  | [], w => (w, [])
  | n :: rest, w =>
    let (w, waits) := settleSending (w.run 0 (Notice.program n)) w
    let (w, more) := sendAll rest w
    (w, waits.toList ++ more)

/-- Lets everything go on that can without time passing. -/
def settle (s : Simulation) : Simulation :=
  let isDue := fun (x : Sleeper) => decide (x.due ≤ s.world.time)
  let (w, again) := wakeAll (s.sleepers.filter isDue) s.world
  let (w, sending) := sendAll w.outbox { w with outbox := [] }
  ⟨w, s.sleepers.filter (fun x => !isDue x) ++ again ++ sending⟩

/-! ## Time -/

/-- Sets the time. -/
def setTime (t : Nat) (s : Simulation) : Simulation := { s with world := { s.world with time := t } }

/-- The earliest time somebody waits for. -/
def earliest? (s : Simulation) : Option Nat := (s.sleepers.map (·.due)).min?

/-- Lets time pass up to `target` in at most so many jumps. What is due at `target` itself is left
waiting. -/
def passTime : Nat → Nat → Simulation → Simulation
  | 0, target, s => s.setTime target
  | n + 1, target, s =>
    let s := s.settle
    match s.earliest? with
    | some due => if due < target then passTime n target (s.setTime due) else s.setTime target
    | none => s.setTime target

/-- Lets time pass up to `target`. -/
def waitUntil (target : Nat) (s : Simulation) : Simulation :=
  if s.world.time < target then passTime (target - s.world.time) target s else s

/-- Lets a program in the foreground go on until it ends or would wait beyond `limit`. -/
def drive {α : Type} (limit : Nat) : World.Progress α → Simulation → Simulation × Finish α
  | .finished w x, s => ({ s with world := w }, .returned x)
  | .waiting w due resume, s =>
    let s := { s with world := w }
    if due ≤ limit then
      let s := s.waitUntil due
      drive limit (resume s.world) s
    else (s.waitUntil limit, .hung)
  | .stuck w, s => (waitUntil limit { s with world := w }, .hung)
  | .overflow, s => (s, .overflow)

/-- Runs a program of a node in the foreground. -/
def perform {α : Type} (node : Nat) (p : Prog α) (s : Simulation) : Simulation × Finish α :=
  let (s, finish) := drive (s.world.time + patience) (s.world.run node p) s
  (s.settle, finish)

/-- Lets milliseconds pass. -/
def advance (ms : Nat) (s : Simulation) : Simulation × Finish Unit :=
  if ms ≤ patience then ((s.waitUntil (s.world.time + ms)).settle, .returned ())
  else ((s.waitUntil (s.world.time + patience)).settle, .hung)

/-! ## Whole nodes -/

/-- A program whose outcome does not matter. -/
def discard {ε α : Type} (a : Action ε α) : Prog Unit := do
  let _ ← a.outcome

/-- Milliseconds in a number of seconds. -/
def msOfSecs (n : UInt64) : Nat := n.toNat * 1000

/-- The periodic work of a node with the given settings, first due now. -/
def jobs (node : Nat) (now : Nat) (p : Profile) (s : Settings) : List Job :=
  let job := fun period run => Job.mk node period now false run
  [job s.pollIntervalMs.toNat (discard (Worker.poll p.worker p.limits)),
   job (msOfSecs s.phantomSweepIntervalSecs) (discard (Sweep.clearPhantoms p.nodeId p.limits)),
   job (msOfSecs s.eventCleanupIntervalSecs)
     (discard (Retention.events p.limits (.ofSecs s.eventTtlSecs)))] ++
  match s.backupDir with
  | none => []
  | some _ =>
    [job (msOfSecs s.backupCleanupIntervalSecs) (discard (Retention.backups (.ofSecs s.backupTtlSecs)))]

/-- The profile of a node with the given settings. -/
def profileOf (s : Settings) : Profile where
  nodeId := ⟨s.nodeId⟩
  limits := ⟨s.storeTimeoutMs.toNat, s.emitTimeoutMs.toNat⟩
  worker := ⟨s.eventBatchLimit.toNat, s.eventFetchOrder⟩

/-- Adds a node: its number. -/
def addNode (p : Profile) (leader : Bool) (s : Simulation) : Simulation × Nat :=
  ({ s with world := { s.world with nodes := s.world.nodes ++ [.fresh p leader] } }, s.world.nodes.length)

/-- Adds a node with its periodic work. -/
def startNode (settings : Settings) (leader : Bool) (s : Simulation) : Simulation × Nat :=
  let p := profileOf settings
  let (s, n) := s.addNode p leader
  let waiting := (jobs n s.world.time p settings).map fun j => Sleeper.mk j.due (.idle j)
  (settle { s with sleepers := s.sleepers ++ waiting }, n)

/-- Ends the periodic work of a node: none is started any more. -/
def cancelJobs (node : Nat) (s : Simulation) : Simulation :=
  { s with sleepers := s.sleepers.filterMap fun x => match x.activity with
      | .idle j => if j.node = node then none else some x
      | .running j resume =>
        some (if j.node = node then { x with activity := .running { j with cancelled := true } resume }
              else x)
      | .sending _ => some x }

/-- Whether a run of a node's periodic work is under way. -/
def isRunning (node : Nat) (s : Simulation) : Bool :=
  s.sleepers.any fun x => match x.activity with
    | .running j _ => j.node = node
    | _ => false

/-- Lets time pass until no periodic work of a node is under way, in at most so many jumps: whether
that came before `limit`. -/
def awaitJobs (node limit : Nat) : Nat → Simulation → Simulation × Bool
  | 0, s => (s, false)
  | n + 1, s =>
    if s.isRunning node then
      match s.earliest? with
      | some due =>
        if due ≤ limit then awaitJobs node limit n (s.setTime due).settle
        else (s.setTime limit, false)
      | none => (s.setTime limit, false)
    else (s, true)

/-- Ends the periodic work of a node, then runs a last program on it. -/
def shutdown {α : Type} (node : Nat) (last : Prog α) (s : Simulation) : Simulation × Finish α :=
  let limit := s.world.time + patience
  let (s, ended) := (s.cancelJobs node).awaitJobs node limit (patience + 2)
  if ended then
    let (s, finish) := drive limit (s.world.run node last) s
    (s.settle, finish)
  else (s.settle, .hung)

end Simulation

end ConfigRegistry
