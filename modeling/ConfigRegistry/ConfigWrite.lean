import ConfigRegistry.Transition

/-!
# Config writes

Writes made by administrators. Data that refers to undefined variables is refused;
every write that succeeds appends one event.
-/

namespace ConfigRegistry.ConfigWrite

open Transition

/-- Says that the active config of a module changed. -/
def announce (l : Limits) (m : ModuleId) : Action LifecycleError Unit := do
  let _ ← call l (.appendEvent ⟨.configUpdated, m⟩)

/-- Replaces the data of the active config of a module. -/
def updateActive (l : Limits) (m : ModuleId) (data : Bytes) : Action LifecycleError Config := do
  match ← call l (.activeConfig m .strong) with
  | none => throw (.store (.notFound "active config" m.text))
  | some active =>
    let names ← variablesOf data
    requireVariables l names
    let updated ← call l (.updateConfigData active.id data)
    call l (.linkVariables updated.id names)
    announce l m
    return updated

/-- Makes a config the active one of its module. -/
def activate (l : Limits) (id : ConfigId) : Action LifecycleError Config := do
  let activated ← call l (.activateConfig id)
  announce l activated.moduleId
  return activated

end ConfigRegistry.ConfigWrite
