import ConfigRegistry.Row

/-!
# Snapshots

What subscribers are sent: the backends of a module, or the routes to all modules.
A snapshot replaces what was sent before.
-/

namespace ConfigRegistry

/-- A reachable instance in a backends snapshot. -/
structure BackendAddress where
  address : String
  version : String
  libVersion : String
  endpoints : List Endpoint
  deriving DecidableEq, Inhabited

/-- The backends of one module. -/
structure BackendsSnapshot where
  moduleId : ModuleId
  backends : List BackendAddress
  deriving DecidableEq, Inhabited

/-- One route to a module. -/
structure RouteEntry where
  moduleId : ModuleId
  moduleName : String
  address : String
  version : String
  endpoints : List Endpoint
  deriving DecidableEq, Inhabited

/-- What a backends snapshot says about a backend. -/
def BackendAddress.ofBackend (b : Backend) : BackendAddress :=
  ⟨b.address, b.version, b.libVersion, b.endpoints⟩

def BackendsSnapshot.ofBackends (m : ModuleId) (bs : List Backend) : BackendsSnapshot :=
  ⟨m, bs.map .ofBackend⟩

/-- The addresses in snapshot order. -/
def BackendsSnapshot.addresses (s : BackendsSnapshot) : List String := s.backends.map (·.address)

def RouteEntry.ofBackend (b : Backend) : RouteEntry :=
  ⟨b.moduleId, b.moduleName, b.address, b.version, b.endpoints⟩

end ConfigRegistry
