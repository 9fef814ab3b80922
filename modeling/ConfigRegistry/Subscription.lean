import ConfigRegistry.Format
import ConfigRegistry.Program

/-!
# Subscriptions

A subscriber is sent the current state, then joins the room of its changes. A
notification reads the state again and sends it to every member of the room, each
send with its own deadline and without waiting for it. When nobody is in the room
nothing is read.
-/

namespace ConfigRegistry

/-- The deadlines of a node, in milliseconds. -/
structure Limits where
  store : Nat
  emit : Nat
  deriving DecidableEq, Inhabited, Repr

/-- What subscribers are notified of. -/
inductive Notification where
  | config (m : ModuleId)
  | backends (m : ModuleId)
  | routing
  deriving DecidableEq, Inhabited

namespace Notification

/-- The room of the subscribers. -/
def room : Notification → Room
  | .config m => .configChanging m
  | .backends m => .backendsChanging m
  | .routing => .routingChanging

/-- The name of the message that carries a config. -/
def configMessage : String := "config:sendConfigChanged"
/-- The name of the message that carries backends. -/
def backendsMessage : String := "config:sendModuleReady"
/-- The name of the message that carries routes. -/
def routingMessage : String := "config:sendRoutes"

/-- The name of the message that is sent. -/
def message : Notification → String
  | .config _ => configMessage
  | .backends _ => backendsMessage
  | .routing => routingMessage

def backendsPayload (m : ModuleId) (bs : List Backend) : Bytes :=
  Json.encode (BackendsSnapshot.ofBackends m bs)

def routingPayload (bs : List Backend) : Bytes := Json.encode (bs.map RouteEntry.ofBackend)

/-- Reads the state that is sent. -/
def snapshot (l : Limits) : Notification → Action NotifyError Bytes
  | .config m => do
    match ← (Action.call l.store (.activeConfig m .stale)).mapError .store with
    | some c => return c.data
    | none => throw (.noActiveConfig m)
  | .backends m => do
    return backendsPayload m (← (Action.call l.store (.backendsByModule m .stale)).mapError .store)
  | .routing => do
    return routingPayload (← (Action.call l.store (.allBackends .stale)).mapError .store)

/-- Sends a payload to a session, then lets it join the room. -/
def deliver (l : Limits) (s : Session) (n : Notification) (payload : Bytes) :
    Action NotifyError Unit := do
  (Action.emit l.emit s n.message payload).mapError .transport
  let _ ← Action.ask (.join n.room s.conn)

/-- Sends a session the current state, then lets it join the room. -/
def subscribe (l : Limits) (s : Session) (n : Notification) : Action NotifyError Unit := do
  deliver l s n (← snapshot l n)

/-- Sends a session a config that was just read or written, then lets it join the room of the
config's module. -/
def subscribeWith (l : Limits) (s : Session) (c : Config) : Action NotifyError Unit :=
  deliver l s (.config c.moduleId) c.data

/-- Sends the current state to every member of the room. -/
def publish (l : Limits) (n : Notification) : Action NotifyError Unit := do
  let sessions ← Action.ask (.members n.room)
  if sessions.isEmpty then return ()
  let payload ← snapshot l n
  Action.ask (.broadcast l.emit sessions n.message payload)

/-- What an event calls for. -/
def ofEvent (e : Event) : Notification :=
  match e.topic with
  | .config => .config e.payload.moduleId
  | .backends => .backends e.payload.moduleId

end Notification

end ConfigRegistry
