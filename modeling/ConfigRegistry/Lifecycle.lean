import ConfigRegistry.Address
import ConfigRegistry.Text.Blank
import ConfigRegistry.Transition

/-!
# Lifecycle of a connection

A module connects, declares what it needs and how it is configured, becomes ready,
and disconnects. Transitions write to the store and append events; other
connections learn of them when their node reads the log. What a transition wrote
before it failed stays. Errors that the module itself caused are sent to it.
-/

namespace ConfigRegistry.Lifecycle

open Transition

/-- The node that a connection is attached to. -/
structure Place where
  nodeId : NodeId
  limits : Limits
  deriving Inhabited

/-- The name of the message that carries an error. -/
def errorMessage : String := "config:error"

def errorPayload (e : LifecycleError) : Bytes :=
  (Json.Value.object [("error", .string e.message)]).write

/-- Sends the module its error, if it is at fault. There is no deadline, and it does not matter
whether the message arrives. -/
def report {α : Type} (s : Session) (a : Action LifecycleError α) : Action LifecycleError α :=
  Action.ofProg do
    match ← a.outcome with
    | .ok x => return .ok x
    | .error e =>
      if e.isDataIntegrity then
        let _ ← Prog.request (.emit none s errorMessage (errorPayload e))
      return .error e

def identified (s : Session) : Action LifecycleError ModuleId := do
  match (← Action.ask (.context s)).moduleId with
  | some m => return m
  | none => throw (.notIdentified s.conn)

def moduleName (s : Session) : Action LifecycleError String := do
  return ((← Action.ask (.context s)).moduleName).getD ""

/-- Adds the module of a new connection and registers the connection. -/
def connectSteps (p : Place) (s : Session) (name : String) : Action LifecycleError Unit := do
  let name := Text.trimmed name
  if name.isEmpty then throw .invalidModuleName
  let m := ModuleId.ofName name
  let now ← Action.ask .clock
  let _ ← call p.limits (.upsertModule m name now)
  Action.ask (.identify s m name)
  Action.ask (.register s)

/-- Subscribes a connection to the backends of modules, in order. -/
def subscribeAll (l : Limits) (s : Session) : List String → Action NotifyError Unit
  | [] => return ()
  | name :: rest => do
    Notification.subscribe l s (.backends (ModuleId.ofName name))
    subscribeAll l s rest

/-- Subscribes a connection to what it requires. -/
def requireSteps (p : Place) (s : Session) (r : ModuleRequirements) : Action LifecycleError Unit := do
  let _ ← identified s
  (subscribeAll p.limits s r.requiredModules).mapError .notify
  if r.requireRoutes then
    (Notification.subscribe p.limits s .routing).mapError .notify

/-- Adds a connection as a reachable backend of its module. -/
def readySteps (p : Place) (s : Session) (d : BackendDeclaration) : Action LifecycleError Backend := do
  let m ← identified s
  if !Address.isValid d.address then throw (.invalidAddress d.address)
  let name ← moduleName s
  let now ← Action.ask .clock
  let backend : Backend := {
    connectionId := s.conn
    moduleId := m
    address := d.address
    version := d.version
    libVersion := d.libVersion
    moduleName := name
    transport := d.transport
    nodeId := p.nodeId
    endpoints := d.endpoints
    requiredModules := d.requiredModules
    metrics := d.metrics
    createdAt := now }
  call p.limits (.insertBackend backend)
  let _ ← call p.limits (.appendEvent ⟨.moduleReady, m⟩)
  Action.ask (.attach s backend)
  return backend

/-- Creates the first config of a module. -/
def createConfig (l : Limits) (m : ModuleId) (name : String) (data : Bytes) :
    Action LifecycleError Config := do
  let names ← variablesOf data
  requireVariables l names
  let now ← Action.ask .clock
  let id ← Action.ask .freshConfigId
  let config : Config := {
    id := id
    moduleId := m
    name := name
    data := data
    version := 1
    active := true
    createdAt := now
    updatedAt := now }
  call l (.insertConfig config)
  call l (.linkVariables id names)
  return config

/-- Stores the schema a module declares, creates its first config if it has none, and subscribes
it to its config. -/
def schemaSteps (p : Place) (s : Session) (d : ConfigSchemaDeclaration) :
    Action LifecycleError Unit := do
  let m ← identified s
  let now ← Action.ask .clock
  call p.limits (.upsertSchema ⟨m, d.version, d.schema.write, now⟩)
  let config ← match ← call p.limits (.activeConfig m .strong) with
    | some c => pure c
    | none => do createConfig p.limits m (← moduleName s) d.defaultConfig.write
  (Notification.subscribeWith p.limits s config).mapError .notify

/-- Deletes a backend and says that it went away. -/
def deregister (l : Limits) (b : Backend) : Action LifecycleError Unit := do
  let _ ← call l (.deleteBackend b.connectionId)
  let _ ← call l (.appendEvent ⟨.moduleDisconnected, b.moduleId⟩)

/-- The first of two errors. -/
def firstError (a b : Except LifecycleError Unit) : Except LifecycleError Unit :=
  match a with
  | .error e => .error e
  | .ok () => b

/-! ## Transitions -/

/-- A connection declares the name of its module. -/
def onConnect (p : Place) (s : Session) (name : String) : Action LifecycleError Unit :=
  report s (connectSteps p s name)

/-- A connection declares what it depends on. -/
def onRequirements (p : Place) (s : Session) (r : ModuleRequirements) : Action LifecycleError Unit :=
  report s (requireSteps p s r)

/-- A connection declares that it is reachable. -/
def onReady (p : Place) (s : Session) (d : BackendDeclaration) : Action LifecycleError Backend :=
  report s (readySteps p s d)

def onConfigSchema (p : Place) (s : Session) (d : ConfigSchemaDeclaration) :
    Action LifecycleError Unit :=
  report s (schemaSteps p s d)

/-- A connection is gone. Its module and its backend are dealt with independently; the first error
is the result. -/
def onDisconnect (p : Place) (s : Session) : Action LifecycleError Unit := do
  let _ ← Action.ask (.unregister s.conn)
  let context ← Action.ask (.context s)
  let marked ← ExceptT.lift <| Action.outcome (ε := LifecycleError) do
    match context.moduleId with
    | none => return ()
    | some m =>
      let now ← Action.ask .clock
      call p.limits (.markDisconnected m now)
  let deregistered ← ExceptT.lift <| Action.outcome (ε := LifecycleError) do
    match ← Action.ask (.detach s) with
    | none => return ()
    | some b => deregister p.limits b
  MonadExcept.ofExcept (firstError marked deregistered)

end ConfigRegistry.Lifecycle
