import ConfigRegistry.Row

/-!
# Declarations

What a connected module says about itself.
-/

namespace ConfigRegistry

/-- What a module depends on. -/
structure ModuleRequirements where
  requiredModules : List String
  requireRoutes : Bool
  deriving DecidableEq, Inhabited

/-- What a module declares when it becomes reachable. -/
structure BackendDeclaration where
  address : String
  version : String
  libVersion : String
  transport : String
  endpoints : List Endpoint
  requiredModules : List String
  metrics : Option Json.Value
  deriving Inhabited

/-- The schema of a module's config, and the config to start with. -/
structure ConfigSchemaDeclaration where
  version : String
  schema : Json.Value
  defaultConfig : Json.Value
  deriving Inhabited

end ConfigRegistry
