import ConfigRegistry.Files
import ConfigRegistry.Subscription

/-!
# Housekeeping

A node deletes its own backends whose connections are gone, and on leaving all of
them. The leader deletes old events and old backups.
-/

namespace ConfigRegistry

/-! ## Sweeps -/

/-- What came of a sweep. -/
structure SweepReport where
  /-- Backends of the node that were looked at. -/
  checked : Nat
  deleted : Nat
  /-- The modules that lost backends, in ascending order. -/
  modules : List ModuleId
  deriving DecidableEq, Inhabited

namespace Sweep

/-- Inserts an id into ascending ids, once. -/
def insertId (m : ModuleId) : List ModuleId → List ModuleId
  | [] => [m]
  | x :: rest => match m.uuid.compare x.uuid with
    | .lt => m :: x :: rest
    | .eq => x :: rest
    | .gt => x :: insertId m rest

/-- The distinct modules of backends, in ascending order. -/
def modulesOf (bs : List Backend) : List ModuleId :=
  bs.foldl (fun acc b => insertId b.moduleId acc) []

def call (l : Limits) (c : Store.Call) : Action HousekeepingError c.Result :=
  (Action.call l.store c).mapError .store

/-- Deletes backends and says of each module that they went away. -/
def remove (l : Limits) (checked : Nat) (bs : List Backend) : Action HousekeepingError SweepReport := do
  if bs.isEmpty then return ⟨checked, 0, []⟩
  let modules := modulesOf bs
  let deleted ← call l (.deleteBackends (bs.map (·.connectionId)))
  let _ ← call l (.appendEvents (modules.map fun m => ⟨.moduleDisconnected, m⟩))
  return ⟨checked, deleted.length, modules⟩

/-- Deletes the backends of a node whose connections are not registered. -/
def clearPhantoms (node : NodeId) (l : Limits) : Action HousekeepingError SweepReport := do
  let owned ← call l (.backendsByNode node .weak)
  let connected ← Action.ask (.connected (owned.map (·.connectionId)))
  remove l owned.length (owned.filter fun b => !connected.contains b.connectionId)

def deleteOwn (node : NodeId) (l : Limits) : Action HousekeepingError SweepReport := do
  let owned ← call l (.backendsByNode node .weak)
  remove l owned.length owned

end Sweep

/-! ## Retention -/

/-- What came of a retention run. -/
inductive CleanupOutcome where
  /-- The node is not the leader. -/
  | skipped
  /-- So many were deleted. -/
  | cleaned (n : Nat)
  deriving DecidableEq, Inhabited, Repr

namespace Retention

/-- Deletes the events that are older than a length of time. -/
def eventsAt (l : Limits) (ttl : Duration) (now : Timestamp) : Action HousekeepingError CleanupOutcome := do
  if !(← Action.ask .leading) then return .skipped
  match now.sub? ttl with
  | none => nomatch ← Action.ask .overflow
  | some cutoff => return .cleaned (← Sweep.call l (.deleteEventsBefore cutoff))

/-- Deletes the events that are older than a length of time by the clock. -/
def events (l : Limits) (ttl : Duration) : Action HousekeepingError CleanupOutcome := do
  eventsAt l ttl (← Action.ask .clock)

/-- Removes the expired of some entries: how many there were. -/
def removeExpired (now : Timestamp) (ttl : Duration) : List Entry → Action HousekeepingError Nat
  | [] => return 0
  | e :: rest => do
    if e.isExpired now ttl then
      let removed ← Action.ask (.removeBackup e.name)
      let n ← removeExpired now ttl rest
      return if removed then n + 1 else n
    else removeExpired now ttl rest

/-- Deletes the backups that are older than a length of time. A missing directory holds none. -/
def backupsAt (ttl : Duration) (now : Timestamp) : Action HousekeepingError CleanupOutcome := do
  if !(← Action.ask .leading) then return .skipped
  match ← Action.ask .backups with
  | .missing => return .cleaned 0
  | .notDirectory => throw (.directory ReadFault.notDirectory.reason)
  | .entries es => return .cleaned (← removeExpired now ttl es)

/-- Deletes the backups that are older than a length of time by the clock. -/
def backups (ttl : Duration) : Action HousekeepingError CleanupOutcome := do
  backupsAt ttl (← Action.ask .clock)

end Retention

end ConfigRegistry
