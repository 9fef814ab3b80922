import ConfigRegistry.Settings
import ConfigRegistry.Toml.Document

/-!
# Settings as TOML

Settings are members of a document's top table. Members that name no setting count
for nothing, and a setting that is not given has its standard value.
-/

namespace ConfigRegistry.Settings

open Toml (Value Members)

/-! ## Reading -/

def text? : Value → Option String
  | .string s => some s
  | _ => none

/-- A natural number of 64 bits. -/
def word? : Value → Option UInt64
  | .integer n => if 0 ≤ n ∧ n < UInt64.size then some (UInt64.ofNat n.toNat) else none
  | _ => none

/-- Whether a value is an array or a table without anything in it. -/
def isHollow : Value → Bool
  | .array items => items.isEmpty
  | .table _ members => members.isEmpty
  | .tables rows => rows.isEmpty
  | _ => false

/-- The element of a list that has a name: the name as a string, or as the key of a hollow member.
A table in braces must have no other member; of another table the first member counts. -/
def choice? {α : Type} (all : List α) (name : α → String) : Value → Option α
  | .string s => all.find? (name · = s)
  | .table .braces [(key, v)] => if isHollow v then all.find? (name · = key) else none
  | .table .braces _ => none
  | .table _ ((key, v) :: _) => if isHollow v then all.find? (name · = key) else none
  | _ => none

/-- The setting of a name, or what stands for it when it is not given. -/
def given {α : Type} (ms : Members) (name : String) (take : Value → Option α) (standard : α) :
    Option α :=
  match Toml.lookup name ms with
  | none => some standard
  | some v => take v

def ofMembers? (ms : Members) : Option Settings := do
  return {
    nodeId := ← given ms "node_id" text? standard.nodeId
    pollIntervalMs := ← given ms "poll_interval_ms" word? standard.pollIntervalMs
    eventBatchLimit := ← given ms "event_batch_limit" word? standard.eventBatchLimit
    eventFetchOrder := ← given ms "event_fetch_order" (choice? FetchOrder.all FetchOrder.name)
      standard.eventFetchOrder
    storeTimeoutMs := ← given ms "store_timeout_ms" word? standard.storeTimeoutMs
    emitTimeoutMs := ← given ms "emit_timeout_ms" word? standard.emitTimeoutMs
    phantomSweepIntervalSecs := ← given ms "phantom_sweep_interval_secs" word?
      standard.phantomSweepIntervalSecs
    eventTtlSecs := ← given ms "event_ttl_secs" word? standard.eventTtlSecs
    eventCleanupIntervalSecs := ← given ms "event_cleanup_interval_secs" word?
      standard.eventCleanupIntervalSecs
    backupDir := ← given ms "backup_dir" (fun v => (text? v).map some) standard.backupDir
    backupTtlSecs := ← given ms "backup_ttl_secs" word? standard.backupTtlSecs
    backupCleanupIntervalSecs := ← given ms "backup_cleanup_interval_secs" word?
      standard.backupCleanupIntervalSecs
    logFormat := ← given ms "log_format" (choice? LogFormat.all LogFormat.name)
      standard.logFormat }

/-- The settings of a document. -/
def ofToml? (text : String) : Option Settings := (Toml.read text.toList).bind ofMembers?

/-! ## Writing -/

/-- A number as a value. -/
def ofWord (n : UInt64) : Value := .integer n.toNat

/-- The settings as members in declared order; a backup directory only if there is one. -/
def toMembers (s : Settings) : Members :=
  [("node_id", .string s.nodeId),
   ("poll_interval_ms", ofWord s.pollIntervalMs),
   ("event_batch_limit", ofWord s.eventBatchLimit),
   ("event_fetch_order", .string s.eventFetchOrder.name),
   ("store_timeout_ms", ofWord s.storeTimeoutMs),
   ("emit_timeout_ms", ofWord s.emitTimeoutMs),
   ("phantom_sweep_interval_secs", ofWord s.phantomSweepIntervalSecs),
   ("event_ttl_secs", ofWord s.eventTtlSecs),
   ("event_cleanup_interval_secs", ofWord s.eventCleanupIntervalSecs)] ++
  (s.backupDir.map fun dir => ("backup_dir", Value.string dir)).toList ++
  [("backup_ttl_secs", ofWord s.backupTtlSecs),
   ("backup_cleanup_interval_secs", ofWord s.backupCleanupIntervalSecs),
   ("log_format", .string s.logFormat.name)]

/-- The document of settings; there is none when a number needs all of 64 bits, or a text holds too
many quotes in a row. -/
def toToml (s : Settings) : Except Toml.WriteFault String :=
  (Toml.write s.toMembers).map String.ofList

end ConfigRegistry.Settings
