import ConfigRegistry.Error
import ConfigRegistry.Store.Tables

/-!
# Calls to the store

The replicated store answers calls. Reads ask for a consistency; a stale read may
be served from a frozen copy of the tables. A call that fails leaves the store as
it was.
-/

namespace ConfigRegistry

/-- The store: the tables, what stale reads see, and whether it can be reached. -/
structure Store where
  live : Tables
  /-- A copy that stale reads are served from while the local replica lags. -/
  frozen : Option Tables
  /-- How many reads were served. -/
  reads : Nat
  available : Bool

namespace Store

def empty : Store := ⟨.empty, none, 0, true⟩

instance : Inhabited Store := ⟨empty⟩

/-- Freezes what stale reads see. -/
def lag (s : Store) : Store := { s with frozen := some s.live }

/-- Lets stale reads see every write again. -/
def catchUp (s : Store) : Store := { s with frozen := none }

/-- The tables a read of some consistency sees. -/
def view (s : Store) : Consistency → Tables
  | .stale => s.frozen.getD s.live
  | .weak => s.live
  | .strong => s.live

/-- The reason given by a store that cannot be reached. -/
def unavailableReason : String := "memory store disabled"

/-- A call to the store. -/
inductive Call where
  | appendEvent (payload : EventPayload)
  | appendEvents (payloads : List EventPayload)
  | eventsAfter (cursor : EventId) (limit : Nat) (order : FetchOrder) (c : Consistency)
  | deleteEventsBefore (before : Timestamp)
  | upsertModule (id : ModuleId) (name : String) (connectedAt : Timestamp)
  | markDisconnected (id : ModuleId) (at_ : Timestamp)
  | moduleById (id : ModuleId) (c : Consistency)
  | modules (c : Consistency)
  | insertBackend (b : Backend)
  | deleteBackend (conn : ConnectionId)
  | deleteBackends (conns : List ConnectionId)
  | backendsByModule (id : ModuleId) (c : Consistency)
  | backendsByNode (node : NodeId) (c : Consistency)
  | allBackends (c : Consistency)
  | activeConfig (id : ModuleId) (c : Consistency)
  | config (id : ConfigId) (c : Consistency)
  | insertConfig (config : Config)
  | updateConfigData (id : ConfigId) (data : Bytes)
  | activateConfig (id : ConfigId)
  | upsertSchema (schema : ConfigSchema)
  | schema (id : ModuleId) (c : Consistency)
  | upsertVariable (name value : String)
  | missingVariables (names : List String) (c : Consistency)
  | linkVariables (id : ConfigId) (names : List String)
  | linkedVariables (id : ConfigId) (c : Consistency)

namespace Call

/-- What a call answers. -/
abbrev Result : Call → Type
  | appendEvent _ => Event
  | appendEvents _ => List Event
  | eventsAfter .. => List Event
  | deleteEventsBefore _ => Nat
  | upsertModule .. => Module
  | markDisconnected .. => Unit
  | moduleById .. => Option Module
  | modules _ => List Module
  | insertBackend _ => Unit
  | deleteBackend _ => Option Backend
  | deleteBackends _ => List Backend
  | backendsByModule .. => List Backend
  | backendsByNode .. => List Backend
  | allBackends _ => List Backend
  | activeConfig .. => Option Config
  | config .. => Option Config
  | insertConfig _ => Unit
  | updateConfigData .. => Config
  | activateConfig _ => Config
  | upsertSchema _ => Unit
  | schema .. => Option ConfigSchema
  | upsertVariable .. => Unit
  | missingVariables .. => List String
  | linkVariables .. => Unit
  | linkedVariables .. => List String

def name : Call → String
  | appendEvent _ => "append_event"
  | appendEvents _ => "append_events"
  | eventsAfter .. => "events_after"
  | deleteEventsBefore _ => "delete_events_before"
  | upsertModule .. => "upsert_module"
  | markDisconnected .. => "mark_disconnected"
  | moduleById .. => "module"
  | modules _ => "modules"
  | insertBackend _ => "insert_backend"
  | deleteBackend _ => "delete_backend"
  | deleteBackends _ => "delete_backends"
  | backendsByModule .. => "backends_by_module"
  | backendsByNode .. => "backends_by_node"
  | allBackends _ => "all_backends"
  | activeConfig .. => "active_config"
  | config .. => "config"
  | insertConfig _ => "insert_config"
  | updateConfigData .. => "update_config_data"
  | activateConfig _ => "activate_config"
  | upsertSchema _ => "upsert_schema"
  | schema .. => "schema"
  | upsertVariable .. => "upsert_variable"
  | missingVariables .. => "missing_variables"
  | linkVariables .. => "link_variables"
  | linkedVariables .. => "linked_variables"

/-- Whether a call stamps what it writes with the time of the clock. -/
def readsClock : Call → Bool
  | appendEvent _ => true
  | appendEvents _ => true
  | updateConfigData .. => true
  | _ => false

end Call

/-- What comes of a call: an answer and the store after it, an error, or an exhausted counter. -/
inductive Outcome (α : Type) where
  | ok (value : α) (s : Store)
  | error (e : StoreError)
  | overflow

/-- The answer of a write to the tables. -/
def Outcome.ofWrite {α : Type} (s : Store) : Option (α × Tables) → Outcome α
  | none => .overflow
  | some (x, t) => .ok x { s with live := t }

/-- The error of a call on a config that does not exist. -/
def noConfig (id : ConfigId) : StoreError := .notFound "config" id.text

/-- Serves a call at a reading of the clock by a store that can be reached. -/
def serve (now : Timestamp) (s : Store) : (call : Call) → Outcome call.Result
  | .appendEvent p => .ofWrite s (s.live.append? p now)
  | .appendEvents ps => .ofWrite s (Tables.appendAll? now ps s.live)
  | .eventsAfter cursor limit order c =>
    .ok ((s.view c).eventsAfter cursor limit order) { s with reads := s.reads + 1 }
  | .deleteEventsBefore before => .ofWrite s (some (s.live.deleteEventsBefore before))
  | .upsertModule id name at_ => .ofWrite s (some (s.live.upsertModule id name at_))
  | .markDisconnected id at_ => .ofWrite s (some ((), s.live.markDisconnected id at_))
  | .moduleById id c =>
    .ok (Table.find? Module.id id (s.view c).modules) { s with reads := s.reads + 1 }
  | .modules c => .ok (s.view c).modulesByName { s with reads := s.reads + 1 }
  | .insertBackend b => .ofWrite s (some ((), s.live.insertBackend b))
  | .deleteBackend conn => .ofWrite s (some (s.live.deleteBackend conn))
  | .deleteBackends conns => .ofWrite s (some (Tables.deleteBackends conns s.live))
  | .backendsByModule id c => .ok ((s.view c).backendsByModule id) { s with reads := s.reads + 1 }
  | .backendsByNode node c => .ok ((s.view c).backendsByNode node) { s with reads := s.reads + 1 }
  | .allBackends c => .ok (s.view c).allBackends { s with reads := s.reads + 1 }
  | .activeConfig id c => .ok ((s.view c).activeConfig id) { s with reads := s.reads + 1 }
  | .config id c => .ok ((s.view c).config id) { s with reads := s.reads + 1 }
  | .insertConfig c => .ofWrite s (some ((), s.live.insertConfig c))
  | .updateConfigData id data =>
    match s.live.config id with
    | none => .error (noConfig id)
    | some c => .ofWrite s (s.live.updateConfigData? c data now)
  | .activateConfig id =>
    match s.live.config id with
    | none => .error (noConfig id)
    | some c => .ofWrite s (some (s.live.activateConfig c))
  | .upsertSchema schema => .ofWrite s (some ((), s.live.upsertSchema schema))
  | .schema id c => .ok ((s.view c).schema id) { s with reads := s.reads + 1 }
  | .upsertVariable name value => .ofWrite s (some ((), s.live.upsertVariable name value))
  | .missingVariables names c =>
    .ok ((s.view c).missingVariables names) { s with reads := s.reads + 1 }
  | .linkVariables id names => .ofWrite s (some ((), s.live.linkVariables id names))
  | .linkedVariables id c => .ok ((s.view c).linkedVariables id) { s with reads := s.reads + 1 }

/-- A write that is answered wrote what it was to write. -/
theorem ofWrite_ok {α : Type} {s st : Store} {o : Option (α × Tables)} {x : α}
    (h : Outcome.ofWrite s o = .ok x st) : ∃ t, o = some (x, t) ∧ st = { s with live := t } := by
  rcases o with _ | ⟨y, t⟩
  · cases h
  · cases h
    exact ⟨t, rfl, rfl⟩

theorem serve_updateConfigData {now : Timestamp} {s st : Store} {id : ConfigId} {data : Bytes}
    {row : Config} (h : s.serve now (.updateConfigData id data) = .ok row st) :
    ∃ old t, s.live.config id = some old ∧ s.live.updateConfigData? old data now = some (row, t) ∧
      st = { s with live := t } := by
  simp only [serve] at h
  split at h
  · cases h
  · next old hold =>
    obtain ⟨t, ht, rfl⟩ := ofWrite_ok h
    exact ⟨old, t, hold, ht, rfl⟩

theorem serve_activateConfig {now : Timestamp} {s st : Store} {id : ConfigId} {row : Config}
    (h : s.serve now (.activateConfig id) = .ok row st) :
    ∃ old, s.live.config id = some old ∧ st = { s with live := (s.live.activateConfig old).2 } := by
  simp only [serve] at h
  split at h
  · cases h
  · next old hold =>
    cases h
    exact ⟨old, hold, rfl⟩

/-- Answers a call at a reading of the clock. -/
def answer (now : Timestamp) (s : Store) (call : Call) : Outcome call.Result :=
  if s.available then s.serve now call else .error (.unavailable unavailableReason)

end Store

end ConfigRegistry
