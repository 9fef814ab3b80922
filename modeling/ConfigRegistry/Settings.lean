import ConfigRegistry.Row
import ConfigRegistry.Text.Blank

/-!
# Settings of a node

Every setting has a default. A node refuses settings it cannot run with.
-/

namespace ConfigRegistry

/-- How log lines are written. -/
inductive LogFormat where
  | text
  | json
  deriving DecidableEq, Inhabited, Repr

namespace LogFormat

def name : LogFormat → String
  | .text => "text"
  | .json => "json"

def all : List LogFormat := [.text, .json]

end LogFormat

/-- The settings of a node. -/
structure Settings where
  /-- Marks the backends the node owns. -/
  nodeId : String
  /-- Time between polls of the event log. -/
  pollIntervalMs : UInt64
  /-- Most events read per poll. -/
  eventBatchLimit : UInt64
  eventFetchOrder : FetchOrder
  /-- Deadline of a store call. -/
  storeTimeoutMs : UInt64
  /-- Deadline of sending one message. -/
  emitTimeoutMs : UInt64
  phantomSweepIntervalSecs : UInt64
  /-- Age beyond which events are deleted. -/
  eventTtlSecs : UInt64
  eventCleanupIntervalSecs : UInt64
  /-- Where backups lie; none are looked after without it. -/
  backupDir : Option String
  /-- Age beyond which backups are deleted. -/
  backupTtlSecs : UInt64
  backupCleanupIntervalSecs : UInt64
  logFormat : LogFormat
  deriving DecidableEq

namespace Settings

/-- What holds where nothing is said. -/
def standard : Settings where
  nodeId := "node-1"
  pollIntervalMs := 1000
  eventBatchLimit := 100
  eventFetchOrder := .oldestFirst
  storeTimeoutMs := 5000
  emitTimeoutMs := 5000
  phantomSweepIntervalSecs := 60
  eventTtlSecs := 3600
  eventCleanupIntervalSecs := 300
  backupDir := none
  backupTtlSecs := 604800
  backupCleanupIntervalSecs := 3600
  logFormat := .text

instance : Inhabited Settings := ⟨standard⟩

/-- Why a node cannot run with its settings. -/
inductive Problem where
  | blankNodeId
  | zero (name : String)
  deriving DecidableEq, Repr

/-- The wording of a problem. -/
def Problem.message : Problem → String
  | .blankNodeId => "node_id must not be empty"
  | .zero name => name ++ " must be positive"

/-- The settings that must be positive, by name. -/
def positive (s : Settings) : List (String × UInt64) :=
  [("event_batch_limit", s.eventBatchLimit),
   ("poll_interval_ms", s.pollIntervalMs),
   ("phantom_sweep_interval_secs", s.phantomSweepIntervalSecs),
   ("event_cleanup_interval_secs", s.eventCleanupIntervalSecs),
   ("backup_cleanup_interval_secs", s.backupCleanupIntervalSecs)]

def problem? (s : Settings) : Option Problem :=
  if (Text.trim s.nodeId.toList).isEmpty then some .blankNodeId
  else (s.positive.find? (·.2 = 0)).map fun (name, _) => .zero name

end Settings

end ConfigRegistry
