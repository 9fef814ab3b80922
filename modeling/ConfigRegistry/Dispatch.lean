import ConfigRegistry.Subscription

/-!
# Dispatch of events

Every event of a batch is turned into a notification on its own: a failure is
counted and the rest still runs. A batch with a change of backends ends with one
notification of the routing table. A worker reads batches from the log and moves
its cursor behind them.
-/

namespace ConfigRegistry

/-- What came of a batch. -/
structure DispatchReport where
  /-- Events handed to the notifier. -/
  handled : Nat
  /-- Notifications that failed. -/
  failed : Nat
  routingNotified : Bool
  deriving DecidableEq, Inhabited, Repr

namespace Dispatch

/-- Notifies of each event in order; how many notifications failed. -/
def each {m : Type → Type} [Monad m] (notify : Notification → m Bool) : List Event → m Nat
  | [] => pure 0
  | e :: rest => do
    let sent ← notify (.ofEvent e)
    let failed ← each notify rest
    return if sent then failed else failed + 1

def changesRouting (events : List Event) : Bool := events.any (·.topic = .backends)

/-- Dispatches a batch. `notify` says whether it succeeded. -/
def batch {m : Type → Type} [Monad m] (notify : Notification → m Bool) (events : List Event) :
    m DispatchReport := do
  let failed ← each notify events
  if changesRouting events then
    let sent ← notify .routing
    return ⟨events.length, if sent then failed else failed + 1, true⟩
  else return ⟨events.length, failed, false⟩

end Dispatch

/-- How a worker reads the log. -/
structure WorkerSettings where
  /-- Most events read at once. -/
  limit : Nat
  order : FetchOrder
  deriving DecidableEq, Inhabited, Repr

/-- What came of a poll. -/
structure PollOutcome where
  fetched : Nat
  /-- Events left after compaction. -/
  dispatched : Nat
  /-- The cursor after the poll. -/
  cursor : EventId
  report : DispatchReport
  deriving DecidableEq, Inhabited, Repr

namespace Worker

/-- Publishes a notification; whether that succeeded. -/
def publish (l : Limits) (n : Notification) : Prog Bool := do
  return match ← (n.publish l).outcome with
    | .ok () => true
    | .error _ => false

/-- The highest id of a batch, and of the cursor before it. -/
def cursorAfter (cursor : EventId) (events : List Event) : EventId :=
  events.foldl (fun c e => max c e.id) cursor

/-- The events of a batch in the order of the log, compacted. -/
def kept (w : WorkerSettings) (events : List Event) : List Event :=
  Event.compact (if w.order = .newestFirst then events.reverse else events)

section

variable {m : Type → Type} [Monad m] [MonadLiftT Prog m]

/-- What a program of the node comes to, in the monad of a notifier. -/
def within {ε α : Type} (a : Action ε α) : ExceptT ε m α := ExceptT.mk (liftM a.outcome)

@[simp] theorem within_eq {ε α : Type} (a : Action ε α) : within (m := Prog) a = a := rfl

/-- Dispatches the events that were read behind a cursor and moves the cursor behind them. -/
def proceed (notify : Notification → m Bool) (w : WorkerSettings) (cursor : EventId)
    (events : List Event) : ExceptT NotifyError m PollOutcome := do
  if events.isEmpty then return ⟨0, 0, cursor, ⟨0, 0, false⟩⟩
  let kept := kept w events
  let report ← ExceptT.lift (Dispatch.batch notify kept)
  let cursor := cursorAfter cursor events
  within (Action.ask (.moveCursor cursor))
  return ⟨events.length, kept.length, cursor, report⟩

/-- Reads the events behind the cursor, dispatches them compacted in the order of the log, and
moves the cursor behind them. When the read fails the cursor stays. `notify` says whether it
succeeded. -/
def pollWith (notify : Notification → m Bool) (w : WorkerSettings) (timeout : Nat) :
    ExceptT NotifyError m PollOutcome := do
  let cursor ← within (Action.ask .cursor)
  let events ← within
    ((Action.call timeout (.eventsAfter cursor w.limit w.order .stale)).mapError .store)
  proceed notify w cursor events

end

/-- Polls with the notifier that publishes. -/
def poll (w : WorkerSettings) (l : Limits) : Action NotifyError PollOutcome :=
  pollWith (publish l) w l.store

end Worker

end ConfigRegistry
