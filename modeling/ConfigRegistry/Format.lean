import ConfigRegistry.Declaration
import ConfigRegistry.Json.Shape
import ConfigRegistry.Settings
import ConfigRegistry.Snapshot

/-!
# JSON forms

The shape of every type that is stored or sent, the value that stands for an
element, and the element that a value of that shape stands for.
-/

namespace ConfigRegistry

open Json (Value Shape Format)

/-! ## Parts -/

namespace Form

/-- The element of a list that has a name. -/
def byName? {α : Type} (all : List α) (name : α → String) : Value → Option α
  | .string s => all.find? (name · = s)
  | _ => none

def text? : Value → Option String := Value.text?

def uuid? : Value → Option Uuid
  | .string s => Uuid.parse? s
  | _ => none

def word64? : Value → Option UInt64 := Value.natural?

def word32? (v : Value) : Option UInt32 := v.natural?.map fun n => UInt32.ofNat n.toNat

def flag? : Value → Option Bool := Value.bool?

/-- Null stands for nothing. -/
def nullable? {α : Type} (inner : Value → Option α) : Value → Option (Option α)
  | .null => some none
  | v => (inner v).map some

/-- Every item of a list. -/
def list? {α : Type} (inner : Value → Option α) : Value → Option (List α)
  | .array items => items.mapM inner
  | _ => none

def byte? (v : Value) : Option UInt8 := v.natural?.map fun n => UInt8.ofNat n.toNat

def blob? : Value → Option Bytes := list? byte?

def ofBlob (bs : Bytes) : Value := .array (bs.map fun b => .natural (UInt64.ofNat b.toNat))

def ofNullable {α : Type} (inner : α → Value) : Option α → Value
  | none => .null
  | some x => inner x

def ofList {α : Type} (inner : α → Value) (xs : List α) : Value := .array (xs.map inner)

end Form

open Form

/-! ## Identifiers and names -/

instance : Format ModuleId where
  shape := .uuid
  toValue m := .string m.text
  ofValue v := (uuid? v).map .mk

instance : Format ConfigId where
  shape := .uuid
  toValue c := .string c.text
  ofValue v := (uuid? v).map .mk

instance : Format ConnectionId where
  shape := .text
  toValue c := .string c.text
  ofValue v := (text? v).map .mk

instance : Format NodeId where
  shape := .text
  toValue n := .string n.text
  ofValue v := (text? v).map .mk

instance : Format Consistency where
  shape := .choice (Consistency.all.map Consistency.name)
  toValue c := .string c.name
  ofValue := byName? Consistency.all Consistency.name

instance : Format FetchOrder where
  shape := .choice (FetchOrder.all.map FetchOrder.name)
  toValue o := .string o.name
  ofValue := byName? FetchOrder.all FetchOrder.name

instance : Format LogFormat where
  shape := .choice (LogFormat.all.map LogFormat.name)
  toValue f := .string f.name
  ofValue := byName? LogFormat.all LogFormat.name

instance : Format EventKind where
  shape := .choice (EventKind.all.map EventKind.name)
  toValue k := .string k.name
  ofValue := byName? EventKind.all EventKind.name

instance : Format EventTopic where
  shape := .choice (EventTopic.all.map EventTopic.name)
  toValue t := .string t.name
  ofValue := byName? EventTopic.all EventTopic.name

/-! ## Times and events -/

instance : Format Timestamp where
  shape := .record [("secs", .required, .word 64), ("nanos", .required, .word 32)]
  toValue t := .object [("secs", .natural t.secs), ("nanos", .natural (UInt64.ofNat t.nanos.toNat))]
  ofValue
    | .object [(_, secs), (_, nanos)] => do return ⟨← word64? secs, ← word32? nanos⟩
    | _ => none

abbrev timeShape : Shape := Format.shape Timestamp

abbrev ofTime (t : Timestamp) : Value := Format.toValue t

abbrev time? (v : Value) : Option Timestamp := Format.ofValue v

instance : Format EventPayload where
  shape := .tagged "type" (EventKind.all.map EventKind.tag) "moduleId"
  toValue p := .object [("type", .string p.kind.tag), ("moduleId", .string p.moduleId.text)]
  ofValue
    | .object [(_, kind), (_, m)] => do
      return ⟨← byName? EventKind.all EventKind.tag kind, ⟨← uuid? m⟩⟩
    | _ => none

instance : Format Event where
  shape := .record [
    ("id", .required, .word 64),
    ("payload", .required, Format.shape EventPayload),
    ("created_at", .required, timeShape)]
  toValue e := .object [
    ("id", .natural e.id),
    ("payload", Format.toValue e.payload),
    ("created_at", ofTime e.createdAt)]
  ofValue
    | .object [(_, id), (_, payload), (_, at_)] => do
      return ⟨← word64? id, ← Format.ofValue payload, ← time? at_⟩
    | _ => none

/-! ## Rows -/

instance : Format Module where
  shape := .record [
    ("id", .required, .uuid),
    ("name", .required, .text),
    ("last_connected_at", .nullable, .nullable timeShape),
    ("last_disconnected_at", .nullable, .nullable timeShape),
    ("created_at", .required, timeShape)]
  toValue m := .object [
    ("id", .string m.id.text),
    ("name", .string m.name),
    ("last_connected_at", ofNullable ofTime m.lastConnectedAt),
    ("last_disconnected_at", ofNullable ofTime m.lastDisconnectedAt),
    ("created_at", ofTime m.createdAt)]
  ofValue
    | .object [(_, id), (_, name), (_, connected), (_, disconnected), (_, created)] => do
      return ⟨⟨← uuid? id⟩, ← text? name, ← nullable? time? connected, ← nullable? time? disconnected,
        ← time? created⟩
    | _ => none

instance : Format Endpoint where
  shape := .record [("path", .required, .text), ("inner", .defaulted (.bool false), .flag)]
  toValue e := .object [("path", .string e.path), ("inner", .bool e.inner)]
  ofValue
    | .object [(_, path), (_, inner)] => do return ⟨← text? path, ← flag? inner⟩
    | _ => none

abbrev endpointsShape : Shape := .list (Format.shape Endpoint)

abbrev ofEndpoints (es : List Endpoint) : Value := ofList Format.toValue es

abbrev endpoints? (v : Value) : Option (List Endpoint) := list? Format.ofValue v

instance : Format Backend where
  shape := .record [
    ("wsConnectionId", .required, .text),
    ("moduleId", .required, .uuid),
    ("address", .required, .text),
    ("version", .required, .text),
    ("libVersion", .required, .text),
    ("moduleName", .required, .text),
    ("transport", .required, .text),
    ("configServiceNodeId", .required, .text),
    ("endpoints", .required, endpointsShape),
    ("requiredModules", .required, .list .text),
    ("metricsAutodiscovery", .nullable, .any),
    ("createdAt", .required, timeShape)]
  toValue b := .object [
    ("wsConnectionId", .string b.connectionId.text),
    ("moduleId", .string b.moduleId.text),
    ("address", .string b.address),
    ("version", .string b.version),
    ("libVersion", .string b.libVersion),
    ("moduleName", .string b.moduleName),
    ("transport", .string b.transport),
    ("configServiceNodeId", .string b.nodeId.text),
    ("endpoints", ofEndpoints b.endpoints),
    ("requiredModules", ofList .string b.requiredModules),
    ("metricsAutodiscovery", ofNullable id b.metrics),
    ("createdAt", ofTime b.createdAt)]
  ofValue
    | .object [(_, conn), (_, m), (_, address), (_, version), (_, lib), (_, name), (_, transport),
        (_, node), (_, endpoints), (_, required), (_, metrics), (_, created)] => do
      return {
        connectionId := ⟨← text? conn⟩
        moduleId := ⟨← uuid? m⟩
        address := ← text? address
        version := ← text? version
        libVersion := ← text? lib
        moduleName := ← text? name
        transport := ← text? transport
        nodeId := ⟨← text? node⟩
        endpoints := ← endpoints? endpoints
        requiredModules := ← list? text? required
        metrics := ← nullable? some metrics
        createdAt := ← time? created }
    | _ => none

instance : Format Config where
  shape := .record [
    ("id", .required, .uuid),
    ("module_id", .required, .uuid),
    ("name", .required, .text),
    ("data", .required, .blob),
    ("version", .required, .word 64),
    ("active", .required, .flag),
    ("created_at", .required, timeShape),
    ("updated_at", .required, timeShape)]
  toValue c := .object [
    ("id", .string c.id.text),
    ("module_id", .string c.moduleId.text),
    ("name", .string c.name),
    ("data", ofBlob c.data),
    ("version", .natural c.version),
    ("active", .bool c.active),
    ("created_at", ofTime c.createdAt),
    ("updated_at", ofTime c.updatedAt)]
  ofValue
    | .object [(_, id), (_, m), (_, name), (_, data), (_, version), (_, active), (_, created),
        (_, updated)] => do
      return ⟨⟨← uuid? id⟩, ⟨← uuid? m⟩, ← text? name, ← blob? data, ← word64? version, ← flag? active,
        ← time? created, ← time? updated⟩
    | _ => none

instance : Format ConfigSchema where
  shape := .record [
    ("module_id", .required, .uuid),
    ("module_version", .required, .text),
    ("data", .required, .blob),
    ("updated_at", .required, timeShape)]
  toValue s := .object [
    ("module_id", .string s.moduleId.text),
    ("module_version", .string s.moduleVersion),
    ("data", ofBlob s.data),
    ("updated_at", ofTime s.updatedAt)]
  ofValue
    | .object [(_, m), (_, version), (_, data), (_, updated)] => do
      return ⟨⟨← uuid? m⟩, ← text? version, ← blob? data, ← time? updated⟩
    | _ => none

/-! ## Snapshots -/

instance : Format BackendAddress where
  shape := .record [
    ("address", .required, .text),
    ("version", .required, .text),
    ("libVersion", .required, .text),
    ("endpoints", .required, endpointsShape)]
  toValue b := .object [
    ("address", .string b.address),
    ("version", .string b.version),
    ("libVersion", .string b.libVersion),
    ("endpoints", ofEndpoints b.endpoints)]
  ofValue
    | .object [(_, address), (_, version), (_, lib), (_, endpoints)] => do
      return ⟨← text? address, ← text? version, ← text? lib, ← endpoints? endpoints⟩
    | _ => none

instance : Format BackendsSnapshot where
  shape := .record [
    ("moduleId", .required, .uuid),
    ("backends", .required, .list (Format.shape BackendAddress))]
  toValue s := .object [
    ("moduleId", .string s.moduleId.text),
    ("backends", ofList Format.toValue s.backends)]
  ofValue
    | .object [(_, m), (_, backends)] => do
      return ⟨⟨← uuid? m⟩, ← list? Format.ofValue backends⟩
    | _ => none

instance : Format RouteEntry where
  shape := .record [
    ("moduleId", .required, .uuid),
    ("moduleName", .required, .text),
    ("address", .required, .text),
    ("version", .required, .text),
    ("endpoints", .required, endpointsShape)]
  toValue r := .object [
    ("moduleId", .string r.moduleId.text),
    ("moduleName", .string r.moduleName),
    ("address", .string r.address),
    ("version", .string r.version),
    ("endpoints", ofEndpoints r.endpoints)]
  ofValue
    | .object [(_, m), (_, name), (_, address), (_, version), (_, endpoints)] => do
      return ⟨⟨← uuid? m⟩, ← text? name, ← text? address, ← text? version, ← endpoints? endpoints⟩
    | _ => none

/-- A list of elements, written as a list. -/
instance {α : Type} [Format α] : Format (List α) where
  shape := .list (Format.shape α)
  toValue := ofList Format.toValue
  ofValue := list? Format.ofValue

/-! ## Declarations -/

instance : Format ModuleRequirements where
  shape := .record [
    ("requiredModules", .defaulted (.array []), .list .text),
    ("requireRoutes", .defaulted (.bool false), .flag)]
  toValue r := .object [
    ("requiredModules", ofList .string r.requiredModules),
    ("requireRoutes", .bool r.requireRoutes)]
  ofValue
    | .object [(_, required), (_, routes)] => do
      return ⟨← list? text? required, ← flag? routes⟩
    | _ => none

instance : Format BackendDeclaration where
  shape := .record [
    ("address", .required, .text),
    ("version", .required, .text),
    ("libVersion", .required, .text),
    ("transport", .required, .text),
    ("endpoints", .defaulted (.array []), endpointsShape),
    ("requiredModules", .defaulted (.array []), .list .text),
    ("metricsAutodiscovery", .defaulted .null, .any)]
  toValue d := .object [
    ("address", .string d.address),
    ("version", .string d.version),
    ("libVersion", .string d.libVersion),
    ("transport", .string d.transport),
    ("endpoints", ofEndpoints d.endpoints),
    ("requiredModules", ofList .string d.requiredModules),
    ("metricsAutodiscovery", ofNullable id d.metrics)]
  ofValue
    | .object [(_, address), (_, version), (_, lib), (_, transport), (_, endpoints), (_, required),
        (_, metrics)] => do
      return {
        address := ← text? address
        version := ← text? version
        libVersion := ← text? lib
        transport := ← text? transport
        endpoints := ← endpoints? endpoints
        requiredModules := ← list? text? required
        metrics := ← nullable? some metrics }
    | _ => none

instance : Format ConfigSchemaDeclaration where
  shape := .record [
    ("version", .required, .text),
    ("schema", .required, .any),
    ("defaultConfig", .required, .any)]
  toValue d := .object [
    ("version", .string d.version),
    ("schema", d.schema),
    ("defaultConfig", d.defaultConfig)]
  ofValue
    | .object [(_, version), (_, schema), (_, config)] => do return ⟨← text? version, schema, config⟩
    | _ => none

/-! ## Settings -/

instance : Format Settings where
  shape :=
    let s := Settings.standard
    let number := fun (n : UInt64) => (Json.Presence.defaulted (.natural n), Shape.word 64)
    .record [
      ("node_id", .defaulted (.string s.nodeId), .text),
      ("poll_interval_ms", number s.pollIntervalMs),
      ("event_batch_limit", number s.eventBatchLimit),
      ("event_fetch_order", .defaulted (Format.toValue s.eventFetchOrder), Format.shape FetchOrder),
      ("store_timeout_ms", number s.storeTimeoutMs),
      ("emit_timeout_ms", number s.emitTimeoutMs),
      ("phantom_sweep_interval_secs", number s.phantomSweepIntervalSecs),
      ("event_ttl_secs", number s.eventTtlSecs),
      ("event_cleanup_interval_secs", number s.eventCleanupIntervalSecs),
      ("backup_dir", .defaulted .null, .nullable .text),
      ("backup_ttl_secs", number s.backupTtlSecs),
      ("backup_cleanup_interval_secs", number s.backupCleanupIntervalSecs),
      ("log_format", .defaulted (Format.toValue s.logFormat), Format.shape LogFormat)]
  toValue s := .object [
    ("node_id", .string s.nodeId),
    ("poll_interval_ms", .natural s.pollIntervalMs),
    ("event_batch_limit", .natural s.eventBatchLimit),
    ("event_fetch_order", Format.toValue s.eventFetchOrder),
    ("store_timeout_ms", .natural s.storeTimeoutMs),
    ("emit_timeout_ms", .natural s.emitTimeoutMs),
    ("phantom_sweep_interval_secs", .natural s.phantomSweepIntervalSecs),
    ("event_ttl_secs", .natural s.eventTtlSecs),
    ("event_cleanup_interval_secs", .natural s.eventCleanupIntervalSecs),
    ("backup_dir", ofNullable .string s.backupDir),
    ("backup_ttl_secs", .natural s.backupTtlSecs),
    ("backup_cleanup_interval_secs", .natural s.backupCleanupIntervalSecs),
    ("log_format", Format.toValue s.logFormat)]
  ofValue
    | .object [(_, node), (_, poll), (_, limit), (_, order), (_, store), (_, emit), (_, sweep),
        (_, ttl), (_, cleanup), (_, dir), (_, backupTtl), (_, backupCleanup), (_, log)] => do
      return {
        nodeId := ← text? node
        pollIntervalMs := ← word64? poll
        eventBatchLimit := ← word64? limit
        eventFetchOrder := ← Format.ofValue order
        storeTimeoutMs := ← word64? store
        emitTimeoutMs := ← word64? emit
        phantomSweepIntervalSecs := ← word64? sweep
        eventTtlSecs := ← word64? ttl
        eventCleanupIntervalSecs := ← word64? cleanup
        backupDir := ← nullable? text? dir
        backupTtlSecs := ← word64? backupTtl
        backupCleanupIntervalSecs := ← word64? backupCleanup
        logFormat := ← Format.ofValue log }
    | _ => none

end ConfigRegistry
