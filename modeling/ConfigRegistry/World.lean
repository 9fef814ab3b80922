import ConfigRegistry.Dispatch

/-!
# The world around the nodes

One store is shared by all nodes; connections may be slow, silent or gone; calls to
the store may fail, take long or never be answered. The world answers each request
at once, at a later time, or never. A deadline turns what is too late into an
error; what is due together with its deadline is in time.
-/

namespace ConfigRegistry

/-- What befalls a call to the store. -/
inductive Fault where
  | pass
  | fail (e : StoreError)
  /-- Nothing is done and nothing answered. -/
  | hang
  /-- The call is done, but not answered. -/
  | lost
  /-- The call is done so many milliseconds later. -/
  | delay (ms : Nat)
  deriving DecidableEq, Inhabited

/-- How the peer of a connection behaves. -/
inductive Behaviour where
  | record
  /-- The peer is gone. -/
  | closed
  /-- Nothing sent is ever accepted. -/
  | hang
  /-- A message is accepted so many milliseconds later. -/
  | slow (ms : Nat)
  /-- So many messages are accepted, the others fail. -/
  | failAfter (n : Nat)
  deriving DecidableEq, Inhabited, Repr

/-- The state of a session. -/
structure Peer where
  conn : ConnectionId
  behaviour : Behaviour
  context : SessionContext
  /-- How many messages were accepted. -/
  accepted : Nat
  deriving Inhabited

/-- A message that arrived. -/
structure Delivery where
  recipient : Session
  event : String
  payload : Bytes
  deriving DecidableEq, Inhabited

/-- A message of a broadcast that is still to be sent. -/
structure Notice where
  limit : Nat
  recipient : Session
  event : String
  payload : Bytes
  deriving DecidableEq, Inhabited

/-- What a node is set up with. -/
structure Profile where
  nodeId : NodeId
  limits : Limits
  worker : WorkerSettings
  deriving Inhabited

structure NodeState where
  profile : Profile
  rooms : RoomIndex
  /-- How far the node has read the event log. -/
  cursor : EventId
  leader : Bool
  deriving Inhabited

/-- A node that was just started. -/
def NodeState.fresh (p : Profile) (leader : Bool) : NodeState := ⟨p, .empty, 0, leader⟩

/-- Everything outside the programs. -/
structure World where
  /-- Milliseconds since the beginning. -/
  time : Nat
  /-- What the clock showed at the beginning. -/
  start : Timestamp
  /-- How often the clock was read. -/
  readings : Nat
  /-- How many config ids were made. -/
  issued : Nat
  store : Store
  /-- What befalls the next calls of a name. -/
  faults : List (String × List Fault)
  /-- The nodes, by number. -/
  nodes : List NodeState
  /-- The sessions, by serial number. -/
  peers : List Peer
  /-- The messages that arrived, the last one first. -/
  deliveries : List Delivery
  /-- The messages of broadcasts, in order. -/
  outbox : List Notice
  backups : Directory

/-- When something that takes a while ends under a deadline. -/
inductive Race where
  /-- It is done after so many milliseconds. -/
  | completes (ms : Nat)
  /-- The deadline passes after so many milliseconds. -/
  | expires (ms : Nat)
  | never
  deriving DecidableEq, Repr

/-- Lets a deadline run against a delay; without a delay nothing is ever done. -/
def Race.run (limit delay : Option Nat) : Race :=
  match delay, limit with
  | some d, none => .completes d
  | some d, some l => if d ≤ l then .completes d else .expires l
  | none, some l => .expires l
  | none, none => .never

/-- How the world answers a request. -/
inductive Answer (β : Type) where
  /-- At once. -/
  | now (w : World) (reply : β)
  /-- At a time; what is replied depends on the world then, and may be an overflow. -/
  | later (w : World) (due : Nat) (reply : World → Option (World × β))
  | never (w : World)
  /-- A number does not fit. -/
  | overflow

namespace World

/-- A world with an empty store and nobody in it. -/
def initial (start : Timestamp) : World where
  time := 0
  start := start
  readings := 0
  issued := 0
  store := .empty
  faults := []
  nodes := []
  peers := []
  deliveries := []
  outbox := []
  backups := .entries []

/-! ## Clock -/

/-- The next reading of the clock, which never shows the same time twice. -/
def reading (w : World) : Timestamp :=
  let n := w.start.nanos.toNat + w.readings + 1
  ⟨w.start.secs + UInt64.ofNat (n / nanosPerSecond), UInt32.ofNat (n % nanosPerSecond)⟩

/-- The world after a reading of the clock. -/
def ticked (w : World) : World := { w with readings := w.readings + 1 }

/-! ## Store -/

/-- Takes what befalls the next call of a name. -/
def takeFault (name : String) (w : World) : Fault × World :=
  match Table.find? Prod.fst name w.faults with
  | some (_, f :: rest) => (f, { w with faults := Table.put Prod.fst (name, rest) w.faults })
  | _ => (.pass, w)

/-- Lets the store answer a call; `none` on an overflow. -/
def perform (call : Store.Call) (w : World) : Option (World × Except StoreError call.Result) :=
  let now := w.reading
  let w := if call.readsClock then w.ticked else w
  match w.store.answer now call with
  | .ok x s => some ({ w with store := s }, .ok x)
  | .error e => some (w, .error e)
  | .overflow => none

/-- Answers after some milliseconds. -/
def replyAfter {β : Type} (w : World) (ms : Nat) (reply : World → Option (World × β)) : Answer β :=
  if ms = 0 then
    match reply w with
    | some (w, x) => .now w x
    | none => .overflow
  else .later w (w.time + ms) reply

/-- Answers what was raced against a deadline. -/
def replyRace {β : Type} (w : World) (r : Race) (done : World → Option (World × β)) (expired : Nat → β) :
    Answer β :=
  match r with
  | .completes ms => w.replyAfter ms done
  | .expires ms => w.replyAfter ms fun w => some (w, expired ms)
  | .never => .never w

def callStore (limit : Option Nat) (call : Store.Call) (w : World) :
    Answer (Except StoreError call.Result) :=
  let (fault, w) := w.takeFault call.name
  let expired := fun ms => Except.error (StoreError.timeout call.name ms)
  match fault with
  | .pass => w.replyAfter 0 (perform call)
  | .fail e => .now w (.error e)
  | .delay ms => w.replyRace (.run limit (some ms)) (perform call) expired
  | .hang => w.replyRace (.run limit none) (perform call) expired
  | .lost =>
    match w.perform call with
    | none => .overflow
    | some (w, _) => w.replyRace (.run limit none) (perform call) expired

/-! ## Connections -/

/-- The state of a session. -/
def peer (s : Session) (w : World) : Peer := (w.peers[s.serial]?).getD default

/-- Changes the state of a session. -/
def modifyPeer (s : Session) (f : Peer → Peer) (w : World) : World :=
  { w with peers := w.peers.modify s.serial f }

/-- Hands a message to the peer of a session. -/
def accept (s : Session) (event : String) (payload : Bytes) (w : World) : World :=
  { w.modifyPeer s fun p => { p with accepted := p.accepted + 1 } with
    deliveries := ⟨s, event, payload⟩ :: w.deliveries }

/-- The reason given by a connection that stops accepting messages. -/
def injectedReason : String := "injected"

/-- Answers the sending of a message. -/
def sendTo (limit : Option Nat) (s : Session) (event : String) (payload : Bytes) (w : World) :
    Answer (Except TransportError Unit) :=
  let expired := fun ms => Except.error (TransportError.timeout s.conn ms)
  let done := fun w => some (accept s event payload w, .ok ())
  match (w.peer s).behaviour with
  | .record => w.replyAfter 0 done
  | .closed => .now w (.error (.closed s.conn))
  | .hang => w.replyRace (.run limit none) done expired
  | .slow ms => w.replyRace (.run limit (some ms)) done expired
  | .failAfter n =>
    if (w.peer s).accepted < n then w.replyAfter 0 done
    else .now w (.error (.failed injectedReason))

/-! ## Nodes -/

def node (n : Nat) (w : World) : NodeState := (w.nodes[n]?).getD default

def modifyNode (n : Nat) (f : NodeState → NodeState) (w : World) : World :=
  { w with nodes := w.nodes.modify n f }

/-- Replaces the rooms of a node. -/
def setRooms (n : Nat) (rooms : RoomIndex) (w : World) : World :=
  w.modifyNode n fun s => { s with rooms := rooms }

def answer (n : Nat) (w : World) : (r : Request) → Answer r.Reply
  | .store limit call => w.callStore limit call
  | .emit limit s event payload => w.sendTo limit s event payload
  | .broadcast limit recipients event payload =>
    .now { w with outbox := w.outbox ++ recipients.map (⟨limit, ·, event, payload⟩) } ()
  | .clock => .now w.ticked w.reading
  | .freshConfigId => .now { w with issued := w.issued + 1 } (.nth (w.issued + 1))
  | .context s => .now w (w.peer s).context
  | .identify s m name =>
    .now (w.modifyPeer s fun p =>
      { p with context := { p.context with moduleId := some m, moduleName := some name } }) ()
  | .attach s b =>
    .now (w.modifyPeer s fun p => { p with context := { p.context with backend := some b } }) ()
  | .detach s =>
    .now (w.modifyPeer s fun p => { p with context := { p.context with backend := none } })
      (w.peer s).context.backend
  | .register s => .now (w.setRooms n ((w.node n).rooms.register s)) ()
  | .unregister c =>
    let (found, rooms) := (w.node n).rooms.unregister c
    .now (w.setRooms n rooms) found
  | .connected cs => .now w (cs.filter fun c => (w.node n).rooms.isConnected c)
  | .join r c =>
    let (joined, rooms) := (w.node n).rooms.join r c
    .now (w.setRooms n rooms) joined
  | .members r => .now w ((w.node n).rooms.members r)
  | .cursor => .now w (w.node n).cursor
  | .moveCursor id => .now (w.modifyNode n fun s => { s with cursor := id }) ()
  | .leading => .now w (w.node n).leader
  | .backups => .now w w.backups
  | .removeBackup name =>
    let (removed, dir) := w.backups.remove name
    .now { w with backups := dir } removed
  | .overflow => .overflow

/-! ## Running programs -/

/-- How far a program got. -/
inductive Progress (α : Type) where
  | finished (w : World) (x : α)
  /-- It waits for a time and goes on in the world of that time. -/
  | waiting (w : World) (due : Nat) (resume : World → Progress α)
  /-- It waits for an answer that never comes. -/
  | stuck (w : World)
  | overflow

/-- Runs a program of a node until it waits. -/
def run {α : Type} (n : Nat) : Prog α → World → Progress α
  | .done x, w => .finished w x
  | .ask r next, w =>
    match w.answer n r with
    | .now w reply => run n (next reply) w
    | .later w due reply => .waiting w due fun w =>
      match reply w with
      | some (w, reply) => run n (next reply) w
      | none => .overflow
    | .never w => .stuck w
    | .overflow => .overflow

end World

end ConfigRegistry
