import ConfigRegistry.ConfigWrite
import ConfigRegistry.Lifecycle
import ConfigRegistry.Simulation

/-!
# Scenarios

A cluster in which nodes and connections go by names. Nodes are wired by hand, with
no periodic work, or started with it. A connection's label may be used again: what
the old session receives still counts for the label.
-/

namespace ConfigRegistry

/-- A node of a scenario. -/
structure NodeRef where
  number : Nat
  /-- Whether it was started with its periodic work. -/
  started : Bool
  deriving DecidableEq, Inhabited

/-- A cluster with names. -/
structure Scenario where
  sim : Simulation
  nodes : List (String × NodeRef)
  /-- The session that each label stands for. -/
  sessions : List (String × Session)
  /-- The label of each session, by serial number. -/
  labels : List String

namespace Scenario

/-- An empty cluster whose clock starts at a time. -/
def initial (start : Timestamp) : Scenario := ⟨⟨.initial start, []⟩, [], [], []⟩

def world (s : Scenario) : World := s.sim.world

/-- Changes the world. -/
def modifyWorld (f : World → World) (s : Scenario) : Scenario :=
  { s with sim := { s.sim with world := f s.sim.world } }

/-- Changes the store. -/
def modifyStore (f : Store → Store) (s : Scenario) : Scenario :=
  s.modifyWorld fun w => { w with store := f w.store }

/-! ## Names -/

def node? (name : String) (s : Scenario) : Option NodeRef :=
  (Table.find? Prod.fst name s.nodes).map Prod.snd

def session? (label : String) (s : Scenario) : Option Session :=
  (Table.find? Prod.fst label s.sessions).map Prod.snd

/-- Where the transitions of a node's connections take place. -/
def place (n : NodeRef) (s : Scenario) : Lifecycle.Place :=
  let p := (s.world.node n.number).profile
  ⟨p.nodeId, p.limits⟩

def profile (n : NodeRef) (s : Scenario) : Profile := (s.world.node n.number).profile

def rooms (n : NodeRef) (s : Scenario) : RoomIndex := (s.world.node n.number).rooms

def modifyRooms (n : NodeRef) (f : RoomIndex → RoomIndex) (s : Scenario) : Scenario :=
  s.modifyWorld fun w => w.setRooms n.number (f (w.node n.number).rooms)

/-! ## Sessions -/

def forget (label : String) (s : Scenario) : Scenario :=
  { s with sessions := Table.erase Prod.fst label s.sessions }

/-- Opens a session under a label, which no longer stands for any other session. -/
def openSession (label : String) (id : ConnectionId) (behaviour : Behaviour) (s : Scenario) :
    Scenario × Session :=
  let session : Session := ⟨s.labels.length, id⟩
  let peer : Peer := ⟨id, behaviour, .empty, 0⟩
  let s := s.modifyWorld fun w => { w with peers := w.peers ++ [peer] }
  ({ s with
      sessions := Table.put Prod.fst (label, session) s.sessions
      labels := s.labels ++ [label] }, session)

/-- What a session knows. -/
def context (session : Session) (s : Scenario) : SessionContext := (s.world.peer session).context

/-- Takes the messages that arrived since they were last taken, each with the label of its session:
session by session, and for each session in order of arrival. -/
def takeDeliveries (s : Scenario) : List (String × Delivery) × Scenario :=
  let arrived := s.world.deliveries.reverse.mergeSort fun a b =>
    a.recipient.serial ≤ b.recipient.serial
  (arrived.map fun d => ((s.labels[d.recipient.serial]?).getD "", d),
    s.modifyWorld fun w => { w with deliveries := [] })

/-! ## Nodes -/

/-- Wires a node by hand, in place of one of the same name. -/
def addNode (p : Profile) (leader : Bool) (s : Scenario) : Scenario :=
  let (sim, n) := s.sim.addNode p leader
  { s with sim := sim, nodes := Table.put Prod.fst (p.nodeId.text, ⟨n, false⟩) s.nodes }

/-- Starts a node, if its settings allow it. -/
def startNode (settings : Settings) (leader : Bool) (s : Scenario) : Except Settings.Problem Scenario :=
  match settings.problem? with
  | some p => .error p
  | none =>
    let (sim, n) := s.sim.startNode settings leader
    .ok { s with sim := sim, nodes := Table.put Prod.fst (settings.nodeId, ⟨n, true⟩) s.nodes }

/-- Makes a node the leader, or not. -/
def setLeader (n : NodeRef) (leader : Bool) (s : Scenario) : Scenario :=
  s.modifyWorld fun w => w.modifyNode n.number fun st => { st with leader := leader }

/-! ## Steps -/

/-- Keeps the names while the cluster moves on. -/
def withSim {α : Type} (s : Scenario) (r : Simulation × Finish α) : Scenario × Finish α :=
  ({ s with sim := r.1 }, r.2)

def perform {α : Type} (n : NodeRef) (p : Prog α) (s : Scenario) : Scenario × Finish α :=
  s.withSim (s.sim.perform n.number p)

/-- Calls the store from outside, without a deadline. -/
def call (c : Store.Call) (s : Scenario) : Scenario × Finish (Except StoreError c.Result) :=
  s.withSim (s.sim.perform 0 (Prog.request (.store none c)))

/-- Sends a message to a session from outside, without a deadline. -/
def emit (session : Session) (event : String) (payload : Bytes) (s : Scenario) :
    Scenario × Finish (Except TransportError Unit) :=
  s.withSim (s.sim.perform 0 (Prog.request (.emit none session event payload)))

/-- Lets milliseconds pass. -/
def advance (ms : Nat) (s : Scenario) : Scenario × Finish Unit := s.withSim (s.sim.advance ms)

/-- Connects a session under a label; a connection that is refused leaves none. -/
def connect (n : NodeRef) (label : String) (id : ConnectionId) (behaviour : Behaviour) (name : String)
    (s : Scenario) : Scenario × Session × Finish (Except LifecycleError Unit) :=
  let (s, session) := s.openSession label id behaviour
  let (s, finish) := s.perform n (Lifecycle.onConnect (s.place n) session name)
  match finish with
  | .returned (.ok ()) => (s, session, finish)
  | _ => (s.forget label, session, finish)

/-- Stops a started node, which is gone afterwards. -/
def shutdown (n : NodeRef) (s : Scenario) : Scenario × Finish (Except HousekeepingError SweepReport) :=
  let p := s.profile n
  let s := { s with nodes := s.nodes.filter fun x => x.2.number ≠ n.number }
  s.withSim (s.sim.shutdown n.number (Sweep.deleteOwn p.nodeId p.limits))

/-- Sets what befalls the next calls of a name. -/
def setFaults (name : String) (faults : List Fault) (s : Scenario) : Scenario :=
  s.modifyWorld fun w => { w with faults := Table.put Prod.fst (name, faults) w.faults }

/-- Appends an event with a time of its own; `none` when the ids are used up. -/
def appendEventAt (p : EventPayload) (at_ : Timestamp) (s : Scenario) : Option (Event × Scenario) :=
  (s.world.store.live.append? p at_).map fun (e, t) => (e, s.modifyStore fun st => { st with live := t })

end Scenario

end ConfigRegistry
