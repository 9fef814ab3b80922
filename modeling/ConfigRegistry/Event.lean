import ConfigRegistry.Identity
import ConfigRegistry.Timestamp

/-!
# Events

An event says that the state of a module changed; readers then read the state
itself. Events of one topic and module invalidate the same snapshot, so of a batch
only the last event per key matters.
-/

namespace ConfigRegistry

/-- What happened. -/
inductive EventKind where
  /-- The active config of a module changed. -/
  | configUpdated
  /-- A backend of a module became reachable. -/
  | moduleReady
  /-- A backend of a module went away. -/
  | moduleDisconnected
  deriving DecidableEq, Inhabited, Repr

/-- Which snapshot an event invalidates. -/
inductive EventTopic where
  | config
  | backends
  deriving DecidableEq, Inhabited, Repr

namespace EventKind

def name : EventKind → String
  | .configUpdated => "ConfigUpdated"
  | .moduleReady => "ModuleReady"
  | .moduleDisconnected => "ModuleDisconnected"

/-- The tag of a kind inside a payload. -/
def tag : EventKind → String
  | .configUpdated => "configUpdated"
  | .moduleReady => "moduleReady"
  | .moduleDisconnected => "moduleDisconnected"

def all : List EventKind := [.configUpdated, .moduleReady, .moduleDisconnected]

/-- A ready and a disconnect concern the same backend list. -/
def topic : EventKind → EventTopic
  | .configUpdated => .config
  | .moduleReady => .backends
  | .moduleDisconnected => .backends

end EventKind

def EventTopic.name : EventTopic → String
  | .config => "Config"
  | .backends => "Backends"

def EventTopic.all : List EventTopic := [.config, .backends]

/-- What happened to which module. -/
structure EventPayload where
  kind : EventKind
  moduleId : ModuleId
  deriving DecidableEq, Inhabited

/-- Numbers events in the order of the log. -/
abbrev EventId := UInt64

/-- A row of the event log. -/
structure Event where
  id : EventId
  payload : EventPayload
  createdAt : Timestamp
  deriving DecidableEq, Inhabited

namespace Event

def topic (e : Event) : EventTopic := e.payload.kind.topic

/-- What compaction keeps one event of. -/
def key (e : Event) : EventTopic × ModuleId := (e.topic, e.payload.moduleId)

/-- Keeps the last event of each key, in order. -/
def compact : List Event → List Event
  | [] => []
  | e :: rest => if rest.any (·.key = e.key) then compact rest else e :: compact rest

end Event

end ConfigRegistry
