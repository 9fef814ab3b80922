import ConfigRegistry.Row

/-!
# Tables

The rows of the store. A table is a list of rows with at most one row per key; the
event log is in the order of its ids. Listings are sorted by what their callers see, and rows that
agree in that may be listed in any order; here their ids settle it.
-/

namespace ConfigRegistry

/-! ## Keyed lists -/

namespace Table

variable {α κ : Type} [DecidableEq κ]

def find? (key : α → κ) (k : κ) (rows : List α) : Option α := rows.find? fun r => key r = k

def erase (key : α → κ) (k : κ) (rows : List α) : List α := rows.filter fun r => key r ≠ k

/-- The rows with one added in place of the row of its key. -/
def put (key : α → κ) (row : α) (rows : List α) : List α := erase key (key row) rows ++ [row]

/-- The rows with a change made to the row of a key. -/
def modify (key : α → κ) (k : κ) (f : α → α) (rows : List α) : List α :=
  rows.map fun r => if key r = k then f r else r

theorem mem_erase {key : α → κ} {k : κ} {rows : List α} {r : α} :
    r ∈ erase key k rows ↔ r ∈ rows ∧ key r ≠ k := by
  simp [erase]

theorem mem_put {key : α → κ} {row r : α} {rows : List α} :
    r ∈ put key row rows ↔ (r ∈ rows ∧ key r ≠ key row) ∨ r = row := by
  simp [put, mem_erase]

theorem find?_put (key : α → κ) (row : α) (rows : List α) :
    find? key (key row) (put key row rows) = some row := by
  have h : (erase key (key row) rows).find? (fun r => key r = key row) = none := by
    simp [List.find?_eq_none, mem_erase]
  simp [find?, put, List.find?_append, h]

end Table

/-- The rows of the store. -/
structure Tables where
  /-- The id of the event appended last. -/
  lastEventId : EventId
  events : List Event
  modules : List Module
  backends : List Backend
  configs : List Config
  schemas : List ConfigSchema
  /-- Variables with their values. -/
  definitions : List (String × String)
  /-- The variables each config refers to. -/
  links : List (ConfigId × List String)

namespace Tables

/-- No rows. -/
def empty : Tables := ⟨0, [], [], [], [], [], [], []⟩

instance : Inhabited Tables := ⟨empty⟩

/-! ## Events -/

/-- Appends an event under the next id; `none` when the ids are used up. -/
def append? (payload : EventPayload) (createdAt : Timestamp) (t : Tables) : Option (Event × Tables) :=
  if t.lastEventId.toNat + 1 < UInt64.size then
    let id := t.lastEventId + 1
    let e : Event := ⟨id, payload, createdAt⟩
    some (e, { t with lastEventId := id, events := t.events ++ [e] })
  else none

/-- Appends several events in order. -/
def appendAll? (createdAt : Timestamp) : List EventPayload → Tables → Option (List Event × Tables)
  | [], t => some ([], t)
  | p :: rest, t => do
    let (e, t) ← t.append? p createdAt
    let (es, t) ← appendAll? createdAt rest t
    return (e :: es, t)

/-- The events above a cursor, at most `limit` of them. -/
def eventsAfter (cursor : EventId) (limit : Nat) (order : FetchOrder) (t : Tables) : List Event :=
  let first : Nat := min (cursor.toNat + 1) (UInt64.size - 1)
  let pending := t.events.filter fun e => first ≤ e.id.toNat
  match order with
  | .oldestFirst => pending.take limit
  | .newestFirst => pending.reverse.take limit

/-- Deletes the events created before a time: how many, and the rows left. -/
def deleteEventsBefore (before : Timestamp) (t : Tables) : Nat × Tables :=
  let kept := t.events.filter fun e => !e.createdAt.isBefore before
  (t.events.length - kept.length, { t with events := kept })

/-! ## Modules -/

/-- Adds a module, or renews its name and the time it connected. -/
def upsertModule (id : ModuleId) (name : String) (connectedAt : Timestamp) (t : Tables) :
    Module × Tables :=
  let row : Module := match Table.find? Module.id id t.modules with
    | some m => { m with name := name, lastConnectedAt := some connectedAt }
    | none => ⟨id, name, some connectedAt, none, connectedAt⟩
  (row, { t with modules := Table.put Module.id row t.modules })

/-- Records when a module disconnected; unknown modules are left out. -/
def markDisconnected (id : ModuleId) (at_ : Timestamp) (t : Tables) : Tables :=
  { t with modules :=
      Table.modify Module.id id (fun m => { m with lastDisconnectedAt := some at_ }) t.modules }

/-- All modules by name. Modules of one name may come in any order; here they come by id. -/
def modulesByName (t : Tables) : List Module :=
  t.modules.mergeSort fun a b =>
    a.name < b.name || (a.name == b.name && a.id.uuid.compare b.id.uuid != .gt)

/-! ## Backends -/

/-- Whether a backend comes no later than another: by address. Backends of one address may come in any
order; here they come by connection. -/
def addressLe (a b : Backend) : Bool :=
  a.address < b.address || (a.address == b.address && a.connectionId.text ≤ b.connectionId.text)

/-- Whether a backend comes no later than another: by module name, then by address. Where both agree
the order is open, and as in `addressLe` the connection settles it. -/
def routeLe (a b : Backend) : Bool :=
  a.moduleName < b.moduleName || (a.moduleName == b.moduleName && addressLe a b)

def backendsByModule (m : ModuleId) (t : Tables) : List Backend :=
  (t.backends.filter (·.moduleId = m)).mergeSort addressLe

/-- The backends a node owns. No order is promised; here they come by connection. -/
def backendsByNode (n : NodeId) (t : Tables) : List Backend :=
  (t.backends.filter (·.nodeId = n)).mergeSort fun a b => a.connectionId.text ≤ b.connectionId.text

/-- All backends by module name and address. -/
def allBackends (t : Tables) : List Backend := t.backends.mergeSort routeLe

/-- Adds a backend in place of the one of its connection. -/
def insertBackend (b : Backend) (t : Tables) : Tables :=
  { t with backends := Table.put Backend.connectionId b t.backends }

def deleteBackend (c : ConnectionId) (t : Tables) : Option Backend × Tables :=
  (Table.find? Backend.connectionId c t.backends,
    { t with backends := Table.erase Backend.connectionId c t.backends })

/-- Deletes the backends of connections, in the order of the connections. -/
def deleteBackends : List ConnectionId → Tables → List Backend × Tables
  | [], t => ([], t)
  | c :: rest, t =>
    let (deleted, t) := t.deleteBackend c
    let (more, t) := deleteBackends rest t
    (deleted.toList ++ more, t)

/-! ## Configs -/

def activeConfig (m : ModuleId) (t : Tables) : Option Config :=
  t.configs.find? fun c => c.moduleId = m && c.active

def config (id : ConfigId) (t : Tables) : Option Config := Table.find? Config.id id t.configs

/-- Adds a config in place of the one of its id. -/
def insertConfig (c : Config) (t : Tables) : Tables :=
  { t with configs := Table.put Config.id c t.configs }

def maxVersion (m : ModuleId) (t : Tables) : Nat :=
  (t.configs.filter (·.moduleId = m)).foldl (fun v c => max v c.version.toNat) 0

/-- Replaces the data of a config under a version above all of its module's; `none` when the
versions are used up. -/
def updateConfigData? (c : Config) (data : Bytes) (now : Timestamp) (t : Tables) :
    Option (Config × Tables) :=
  let version := t.maxVersion c.moduleId + 1
  if version < UInt64.size then
    let row := { c with data := data, version := UInt64.ofNat version, updatedAt := now }
    some (row, { t with configs := Table.modify Config.id c.id (fun _ => row) t.configs })
  else none

/-- Makes a config the only active one of its module. -/
def activateConfig (c : Config) (t : Tables) : Config × Tables :=
  ({ c with active := true },
    { t with configs := t.configs.map fun d =>
        if d.moduleId = c.moduleId then { d with active := d.id = c.id } else d })

/-! ## Schemas and variables -/

def upsertSchema (s : ConfigSchema) (t : Tables) : Tables :=
  { t with schemas := Table.put ConfigSchema.moduleId s t.schemas }

def schema (m : ModuleId) (t : Tables) : Option ConfigSchema :=
  Table.find? ConfigSchema.moduleId m t.schemas

def upsertVariable (name value : String) (t : Tables) : Tables :=
  { t with definitions := Table.put Prod.fst (name, value) t.definitions }

/-- Whether a variable is defined. -/
def defines (t : Tables) (name : String) : Bool := t.definitions.any (·.1 = name)

/-- The names that are not defined, in order, each once. -/
def missingVariables (names : List String) (t : Tables) : List String :=
  (names.filter fun n => !t.defines n).foldl (fun acc n => if n ∈ acc then acc else acc ++ [n]) []

/-- Replaces the variables a config refers to. -/
def linkVariables (id : ConfigId) (names : List String) (t : Tables) : Tables :=
  { t with links := Table.put Prod.fst (id, names) t.links }

def linkedVariables (id : ConfigId) (t : Tables) : List String :=
  ((Table.find? Prod.fst id t.links).map Prod.snd).getD []

end Tables

end ConfigRegistry
