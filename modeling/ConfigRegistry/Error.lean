import ConfigRegistry.Identity
import ConfigRegistry.Template

/-!
# Errors

Each error is a cause. Its wording is a function of the cause; an error inside
another shows its own wording.
-/

namespace ConfigRegistry

/-- Why a store call failed. -/
inductive StoreError where
  | notFound (entity id : String)
  /-- The call was not answered within its deadline. -/
  | timeout (call : String) (ms : Nat)
  | notLeader
  | unavailable (reason : String)
  /-- A stored value could not be decoded. -/
  | serialization
  deriving DecidableEq, Repr

/-- Why a message was not sent. -/
inductive TransportError where
  | closed (conn : ConnectionId)
  | timeout (conn : ConnectionId) (ms : Nat)
  | failed (reason : String)
  deriving DecidableEq, Repr

/-- Why a subscriber was not notified. -/
inductive NotifyError where
  | store (e : StoreError)
  | transport (e : TransportError)
  | template (e : Template.Fault)
  | serialization
  | noActiveConfig (m : ModuleId)
  deriving DecidableEq

/-- Why a connection's transition failed. -/
inductive LifecycleError where
  | notIdentified (conn : ConnectionId)
  | invalidModuleName
  | invalidAddress (address : String)
  | missingVariables (names : List String)
  | template (e : Template.Fault)
  | serialization
  | store (e : StoreError)
  | notify (e : NotifyError)
  deriving DecidableEq

/-- Why housekeeping failed. -/
inductive HousekeepingError where
  | store (e : StoreError)
  /-- The backup directory could not be read; the system's reason. -/
  | directory (reason : String)
  deriving DecidableEq, Repr

namespace StoreError

/-- The name of the cause. -/
def kind : StoreError → String
  | .notFound .. => "Store.NotFound"
  | .timeout .. => "Store.Timeout"
  | .notLeader => "Store.NotLeader"
  | .unavailable _ => "Store.Unavailable"
  | .serialization => "Store.Serialization"

def message : StoreError → String
  | .notFound entity id => entity ++ " " ++ id ++ " not found"
  | .timeout call ms => "store " ++ call ++ " timed out after " ++ toString ms ++ "ms"
  | .notLeader => "not the raft leader"
  | .unavailable reason => "store unavailable: " ++ reason
  | .serialization => "serialization error"

/-- Whether the next scheduled run is worth trying. -/
def isTransient : StoreError → Bool
  | .timeout .. | .notLeader | .unavailable _ => true
  | .notFound .. | .serialization => false

end StoreError

namespace TransportError

/-- The name of the cause. -/
def kind : TransportError → String
  | .closed _ => "Transport.ConnectionClosed"
  | .timeout .. => "Transport.EmitTimeout"
  | .failed _ => "Transport.SendFailed"

def message : TransportError → String
  | .closed conn => "connection " ++ conn.text ++ " closed"
  | .timeout conn ms => "emit to " ++ conn.text ++ " timed out after " ++ toString ms ++ "ms"
  | .failed reason => "send failed: " ++ reason

end TransportError

/-- The name of the cause of a template fault. -/
def Template.Fault.kind : Template.Fault → String
  | .invalidEncoding => "Template.InvalidEncoding"
  | .unterminated _ => "Template.Unterminated"

namespace NotifyError

/-- The name of the cause; a wrapped error has the name of its own. -/
def kind : NotifyError → String
  | .store e => e.kind
  | .transport e => e.kind
  | .template e => e.kind
  | .serialization => "Serialization"
  | .noActiveConfig _ => "NoActiveConfig"

def message : NotifyError → String
  | .store e => e.message
  | .transport e => e.message
  | .template e => e.message
  | .serialization => "serialization error"
  | .noActiveConfig m => "module " ++ m.text ++ " has no active config"

end NotifyError

namespace LifecycleError

/-- The name of the cause. -/
def kind : LifecycleError → String
  | .notIdentified _ => "NotIdentified"
  | .invalidModuleName => "InvalidModuleName"
  | .invalidAddress _ => "InvalidAddress"
  | .missingVariables _ => "MissingVariables"
  | .template e => e.kind
  | .serialization => "Serialization"
  | .store e => e.kind
  | .notify e => "Notify." ++ e.kind

def message : LifecycleError → String
  | .notIdentified conn => "connection " ++ conn.text ++ " has not identified its module"
  | .invalidModuleName => "module name must not be empty"
  | .invalidAddress address => "invalid backend address '" ++ address ++ "'"
  | .missingVariables names => "missing config variables: " ++ ", ".intercalate names
  | .template e => e.message
  | .serialization => "serialization error"
  | .store e => e.message
  | .notify e => e.message

/-- Whether what the module declared is at fault; the module is told of such errors. -/
def isDataIntegrity : LifecycleError → Bool
  | .notIdentified _ | .invalidModuleName | .invalidAddress _ | .missingVariables _ | .template _
  | .notify (.noActiveConfig _) => true
  | .serialization | .store _ | .notify _ => false

end LifecycleError

namespace HousekeepingError

/-- The name of the cause. -/
def kind : HousekeepingError → String
  | .store e => e.kind
  | .directory _ => "Io"

def message : HousekeepingError → String
  | .store e => e.message
  | .directory reason => "backup directory error: " ++ reason

end HousekeepingError

end ConfigRegistry
