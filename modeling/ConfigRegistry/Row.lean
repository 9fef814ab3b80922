import ConfigRegistry.Event
import ConfigRegistry.Json.Value

/-!
# Rows

What the replicated store holds about modules, their backends, their configs and
the schemas they declare.
-/

namespace ConfigRegistry

/-- How fresh a read must be. -/
inductive Consistency where
  /-- A local read, which may lag behind. -/
  | stale
  /-- A read by the leader. -/
  | weak
  /-- A read confirmed by the leader. -/
  | strong
  deriving DecidableEq, Inhabited, Repr

namespace Consistency

def name : Consistency → String
  | .stale => "none"
  | .weak => "weak"
  | .strong => "strong"

def all : List Consistency := [.stale, .weak, .strong]

end Consistency

/-- Which events above a cursor a read returns. -/
inductive FetchOrder where
  /-- The lowest ids, ascending. -/
  | oldestFirst
  /-- The highest ids, descending. -/
  | newestFirst
  deriving DecidableEq, Inhabited, Repr

namespace FetchOrder

def name : FetchOrder → String
  | .oldestFirst => "oldest_first"
  | .newestFirst => "newest_first"

def all : List FetchOrder := [.oldestFirst, .newestFirst]

end FetchOrder

/-- A module known to the cluster. -/
structure Module where
  id : ModuleId
  name : String
  lastConnectedAt : Option Timestamp
  lastDisconnectedAt : Option Timestamp
  createdAt : Timestamp
  deriving DecidableEq, Inhabited

/-- A path a backend serves; an inner one is not open to external callers. -/
structure Endpoint where
  path : String
  inner : Bool
  deriving DecidableEq, Inhabited

/-- A reachable instance of a module, owned by one node. -/
structure Backend where
  connectionId : ConnectionId
  moduleId : ModuleId
  address : String
  version : String
  libVersion : String
  moduleName : String
  transport : String
  nodeId : NodeId
  endpoints : List Endpoint
  requiredModules : List String
  metrics : Option Json.Value
  createdAt : Timestamp
  deriving Inhabited

/-- A config of a module. -/
structure Config where
  id : ConfigId
  moduleId : ModuleId
  name : String
  data : Bytes
  version : UInt64
  active : Bool
  createdAt : Timestamp
  updatedAt : Timestamp
  deriving DecidableEq, Inhabited

/-- The config schema a module declared. -/
structure ConfigSchema where
  moduleId : ModuleId
  moduleVersion : String
  data : Bytes
  updatedAt : Timestamp
  deriving DecidableEq, Inhabited

end ConfigRegistry
