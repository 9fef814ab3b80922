import ConfigRegistry.Backup
import ConfigRegistry.Room
import ConfigRegistry.Store.Call

/-!
# Programs of a node

What a node does is a program: a tree of requests to the world around it, each
followed by what is done with the reply. The world may take its time to reply, and
other programs may run meanwhile.
-/

namespace ConfigRegistry

/-- What a session knows about its module. -/
structure SessionContext where
  /-- The module it declared. -/
  moduleId : Option ModuleId
  moduleName : Option String
  /-- The backend it registered. -/
  backend : Option Backend
  deriving Inhabited

/-- Nothing is known. -/
def SessionContext.empty : SessionContext := ⟨none, none, none⟩

/-- A request of a node's program. A limit is a deadline in milliseconds from now. -/
inductive Request where
  | store (limit : Option Nat) (call : Store.Call)
  /-- Sends a message to a session. -/
  | emit (limit : Option Nat) (s : Session) (event : String) (payload : Bytes)
  /-- Sends a message to sessions without waiting for it. -/
  | broadcast (limit : Nat) (recipients : List Session) (event : String) (payload : Bytes)
  /-- Reads the clock. -/
  | clock
  /-- Makes an id for a new config. -/
  | freshConfigId
  /-- What a session knows. -/
  | context (s : Session)
  | identify (s : Session) (m : ModuleId) (name : String)
  | attach (s : Session) (b : Backend)
  /-- Takes the backend away from a session. -/
  | detach (s : Session)
  | register (s : Session)
  /-- Removes a connection: whether it was registered. -/
  | unregister (c : ConnectionId)
  /-- The connections among these that are registered. -/
  | connected (cs : List ConnectionId)
  | join (r : Room) (c : ConnectionId)
  | members (r : Room)
  /-- How far the node has read the event log. -/
  | cursor
  | moveCursor (id : EventId)
  /-- Whether the node is the leader. -/
  | leading
  /-- The backup directory. -/
  | backups
  /-- Removes a backup: whether it was there. -/
  | removeBackup (name : String)
  /-- Gives up because a number does not fit; there is no reply. -/
  | overflow

namespace Request

abbrev Reply : Request → Type
  | store _ call => Except StoreError call.Result
  | emit .. => Except TransportError Unit
  | broadcast .. => Unit
  | clock => Timestamp
  | freshConfigId => ConfigId
  | context _ => SessionContext
  | identify .. => Unit
  | attach .. => Unit
  | detach _ => Option Backend
  | register _ => Unit
  | unregister _ => Bool
  | connected _ => List ConnectionId
  | join .. => Bool
  | members _ => List Session
  | cursor => EventId
  | moveCursor _ => Unit
  | leading => Bool
  | backups => Directory
  | removeBackup _ => Bool
  | overflow => Empty

end Request

/-- A program that ends with an `α`. -/
inductive Prog (α : Type) where
  | done (x : α)
  | ask (r : Request) (next : r.Reply → Prog α)

namespace Prog

/-- Goes on with another program. -/
def bind {α β : Type} : Prog α → (α → Prog β) → Prog β
  | .done x, f => f x
  | .ask r next, f => .ask r fun reply => (next reply).bind f

instance : Monad Prog where
  pure := .done
  bind := bind

theorem bind_done {α : Type} (p : Prog α) : p.bind .done = p := by
  induction p with
  | done x => rfl
  | ask r next ih => simp [bind, ih]

theorem bind_assoc {α β γ : Type} (p : Prog α) (f : α → Prog β) (g : β → Prog γ) :
    (p.bind f).bind g = p.bind fun x => (f x).bind g := by
  induction p with
  | done x => rfl
  | ask r next ih => simp [bind, ih]

instance : LawfulMonad Prog :=
  LawfulMonad.mk' Prog (fun p => bind_done p) (fun _ _ => rfl) (fun p f g => bind_assoc p f g)

def request (r : Request) : Prog r.Reply := .ask r .done

end Prog

/-- A program that may fail. -/
abbrev Action (ε α : Type) := ExceptT ε Prog α

namespace Action

variable {ε α : Type}

/-- Makes a request that cannot fail. -/
def ask (r : Request) : Action ε r.Reply := ExceptT.lift (Prog.request r)

/-- Lets the outcome of a program decide. -/
def ofProg (p : Prog (Except ε α)) : Action ε α := ExceptT.mk p

def outcome (a : Action ε α) : Prog (Except ε α) := a

def mapError {δ : Type} (f : ε → δ) (a : Action ε α) : Action δ α :=
  ExceptT.mk (a.run >>= fun
    | .ok x => pure (.ok x)
    | .error e => pure (.error (f e)))

def call (limit : Nat) (c : Store.Call) : Action StoreError c.Result :=
  ofProg (Prog.request (.store (some limit) c))

/-- Sends a message to a session with a deadline. -/
def emit (limit : Nat) (s : Session) (event : String) (payload : Bytes) : Action TransportError Unit :=
  ofProg (Prog.request (.emit (some limit) s event payload))

end Action

end ConfigRegistry
