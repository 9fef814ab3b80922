import ConfigRegistry.Subscription

/-!
# Steps of transitions

What the transitions of a connection and the writes of administrators have in
common: calls to the store, and the variables of a document, which must be defined
before the document is stored.
-/

namespace ConfigRegistry.Transition

/-- Calls the store within a transition. -/
def call (l : Limits) (c : Store.Call) : Action LifecycleError c.Result :=
  (Action.call l.store c).mapError .store

/-- The variables that a document refers to. -/
def variablesOf (data : Bytes) : Action LifecycleError (List String) :=
  match Template.variableNames data with
  | .ok names => return names
  | .error e => throw (.template e)

/-- Refuses names of variables that are not defined. -/
def requireVariables (l : Limits) (names : List String) : Action LifecycleError Unit := do
  if names.isEmpty then return ()
  let missing ← call l (.missingVariables names .strong)
  if missing.isEmpty then return ()
  throw (.missingVariables missing)

end ConfigRegistry.Transition
