import ConfigRegistry.Proofs.Cluster
import ConfigRegistry.Proofs.EventLog

/-!
# Consuming the event log

A worker that reads the oldest events first reads every event once and in order,
whatever is appended, thinned out, delayed or unreachable in between. What a poll read
is taken from the requests it made (`World.exchanges`), not from its report.
-/

namespace ConfigRegistry

/-! ## What a program asks for -/

/-- The requests that a program makes until it first waits, each with its reply. -/
def World.exchanges {α : Type} (n : Nat) : Prog α → World → List ((r : Request) × r.Reply)
  | .done _, _ => []
  | .ask r next, w =>
    match w.answer n r with
    | .now v reply => ⟨r, reply⟩ :: exchanges n (next reply) v
    | _ => []

theorem World.exchanges_now {α : Type} {n : Nat} {w v : World} {r : Request} {reply : r.Reply}
    {next : r.Reply → Prog α} (h : w.answer n r = .now v reply) :
    w.exchanges n (.ask r next) = ⟨r, reply⟩ :: v.exchanges n (next reply) := by
  simp only [exchanges, h]

/-- The events that a request read from the log. -/
def eventsRead : ((r : Request) × r.Reply) → List Event
  | ⟨.store _ (.eventsAfter ..), .ok es⟩ => es
  | _ => []

/-- A program that does not read the log, whatever it is replied. -/
def Prog.Unread {α : Type} : Prog α → Prop
  | .done _ => True
  | .ask r next => (∀ reply, eventsRead ⟨r, reply⟩ = []) ∧ ∀ reply, (next reply).Unread

namespace Prog

variable {α β ε : Type}

theorem unread_bind {p : Prog α} {f : α → Prog β} (hp : p.Unread) (hf : ∀ x, (f x).Unread) :
    (p >>= f).Unread := by
  change (p.bind f).Unread
  induction p with
  | done x => exact hf x
  | ask r next ih => exact ⟨hp.1, fun reply => ih reply (hp.2 reply)⟩

theorem unread_outcome_bind {a : Action ε α} {f : α → Action ε β} (ha : a.outcome.Unread)
    (hf : ∀ x, (f x).outcome.Unread) : (a >>= f).outcome.Unread := by
  rw [Action.outcome_bind]
  refine unread_bind ha ?_
  rintro (e | x)
  · trivial
  · exact hf x

theorem exchanges_unread {p : Prog α} (hp : p.Unread) (n : Nat) (w : World) :
    ((w.exchanges n p).flatMap eventsRead) = [] := by
  induction p generalizing w with
  | done x => rfl
  | ask r next ih =>
    simp only [World.exchanges]
    cases w.answer n r with
    | now v reply => simp [hp.1 reply, ih reply (hp.2 reply)]
    | _ => rfl

end Prog

namespace Worker

theorem call_unread {ε : Type} {limit : Nat} {c : Store.Call} {f : StoreError → ε}
    (hc : ∀ reply, eventsRead ⟨.store (some limit) c, reply⟩ = []) :
    ((Action.call limit c).mapError f).outcome.Unread := by
  rw [Action.outcome_mapError]
  exact Prog.unread_bind ⟨hc, fun _ => trivial⟩ fun _ => trivial

theorem publish_unread (l : Limits) (k : Notification) : (publish l k).Unread := by
  refine Prog.unread_bind ?_ fun _ => trivial
  refine Prog.unread_outcome_bind ⟨fun _ => rfl, fun _ => trivial⟩ fun sessions => ?_
  split
  · trivial
  · refine Prog.unread_outcome_bind ?_ fun payload => ⟨fun _ => rfl, fun _ => trivial⟩
    cases k with
    | config m =>
      refine Prog.unread_outcome_bind (call_unread fun _ => rfl) fun c => ?_
      cases c <;> trivial
    | backends m => exact Prog.unread_outcome_bind (call_unread fun _ => rfl) fun _ => trivial
    | routing => exact Prog.unread_outcome_bind (call_unread fun _ => rfl) fun _ => trivial

theorem each_unread (l : Limits) (events : List Event) :
    (Dispatch.each (publish l) events).Unread := by
  induction events with
  | nil => trivial
  | cons e rest ih =>
    unfold Dispatch.each
    exact Prog.unread_bind (publish_unread l _) fun _ => Prog.unread_bind ih fun _ => trivial

theorem batch_unread (l : Limits) (events : List Event) :
    (Dispatch.batch (publish l) events).Unread := by
  unfold Dispatch.batch
  refine Prog.unread_bind (each_unread l events) fun _ => ?_
  split
  · exact Prog.unread_bind (publish_unread l _) fun _ => trivial
  · trivial

/-- Reads the log behind the cursor and goes on with what it read. -/
def reading {α : Type} (timeout limit : Nat) (order : FetchOrder) (failed : StoreError → Prog α)
    (next : EventId → List Event → Prog α) : Prog α :=
  .ask .cursor fun cursor =>
    .ask (.store (some timeout) (.eventsAfter cursor limit order .stale)) fun
      | .ok events => next cursor events
      | .error e => failed e

/-- A poll reads the log and proceeds if that succeeds. -/
theorem outcome_poll (ws : WorkerSettings) (l : Limits) :
    (poll ws l).outcome = reading l.store ws.limit ws.order (fun e => .done (.error (.store e)))
      fun cursor events => Action.outcome (proceed (publish l) ws cursor events) := by
  change Prog.ask .cursor _ = _
  unfold reading
  congr 1
  funext cursor
  change Prog.ask (.store (some l.store) (.eventsAfter cursor ws.limit ws.order .stale)) _ = _
  congr 1
  funext answer
  cases answer <;> rfl

theorem proceed_unread (ws : WorkerSettings) (l : Limits) (cursor : EventId) (events : List Event) :
    (Action.outcome (proceed (publish l) ws cursor events)).Unread := by
  unfold proceed
  split
  · trivial
  · refine Prog.unread_outcome_bind (Prog.unread_bind (batch_unread l _) fun _ => trivial) ?_
    intro report
    exact ⟨fun _ => rfl, fun _ => trivial⟩

end Worker

/-! ## Steps around the log -/

namespace Cluster

variable {n : Nat} {c : Cluster} {underway : Delivery → Prop}

/-- The tables that local reads see. -/
def visible (c : Cluster) : Tables := c.world.store.view .stale

/-- How far the worker of a node has read. -/
def cursor (n : Nat) (c : Cluster) : EventId := (c.world.node n).cursor

/-- The requests of the next poll of a node. -/
def polling (n : Nat) (c : Cluster) : List ((r : Request) × r.Reply) :=
  c.world.exchanges n (Worker.poll (c.profile n).worker (c.profile n).limits).outcome

/-- Appends, retention, lag, outages, and the polls of one node. -/
def LogInput (n : Nat) : Input → Prop
  | .call (.appendEvent _) | .call (.appendEvents _) | .call (.deleteEventsBefore _)
  | .appendEventAt .. | .lag | .catchUp | .setAvailable _ => True
  | .poll m => m = n
  | _ => False

namespace Taken

/-- The events that a step appended to the log, as it was answered. -/
def appended : Taken → List Event
  | ⟨_, .call (.appendEvent _), some (.ok e), _⟩ => [e]
  | ⟨_, .call (.appendEvents _), some (.ok es), _⟩ => es
  | ⟨_, .appendEventAt .., some e, _⟩ => [e]
  | _ => []

/-- The events that a step read from the log. -/
def batch : Taken → List Event
  | ⟨c, .poll n, _, _⟩ => (c.polling n).flatMap eventsRead
  | _ => []

/-- Whether a step is a poll that succeeded. -/
def served : Taken → Bool
  | ⟨_, .poll _, some (.ok _), _⟩ => true
  | _ => false

/-- Whether a step is a poll that failed. -/
def failed : Taken → Bool
  | ⟨_, .poll _, some (.error _), _⟩ => true
  | _ => false

/-- A retention step deleted an event. -/
def Deletes (e : Event) (x : Taken) : Prop :=
  (∃ before, x.input = .call (.deleteEventsBefore before)) ∧
    e ∈ x.before.world.store.live.events ∧ e ∉ x.after.world.store.live.events

end Taken

/-- The requests of a poll of an unreachable store: it reads its cursor and fails. -/
theorem polling_unavailable (hf : c.world.faults = []) (ha : c.world.store.available = false) :
    c.polling n = [⟨.cursor, c.cursor n⟩,
      ⟨.store (some (c.profile n).limits.store) (.eventsAfter (c.cursor n)
        (c.profile n).worker.limit (c.profile n).worker.order .stale), .error .unreachable⟩] := by
  unfold polling
  rw [Worker.outcome_poll, Worker.reading, World.exchanges_now (r := .cursor) rfl]
  have hanswer : c.world.answer n (.store (some (c.profile n).limits.store) (.eventsAfter
      (c.cursor n) (c.profile n).worker.limit (c.profile n).worker.order .stale)) =
        .now c.world (.error .unreachable) := by
    simp [World.answer_store hf, World.replyAfter, World.perform_unavailable _ ha,
      Store.Call.readsClock, StoreError.unreachable]
  congr 1
  exact World.exchanges_now hanswer

/-- A poll reads what comes next in the log it sees. -/
theorem polling_available (hf : c.world.faults = []) (ha : c.world.store.available = true) :
    (c.polling n).flatMap eventsRead = Worker.fetched n (c.profile n).worker c.world := by
  unfold polling
  rw [Worker.outcome_poll, Worker.reading, World.exchanges_now (r := .cursor) rfl]
  have hanswer : c.world.answer n (.store (some (c.profile n).limits.store) (.eventsAfter
      (c.world.node n).cursor (c.profile n).worker.limit (c.profile n).worker.order .stale)) =
        .now c.world.served (.ok (Worker.fetched n (c.profile n).worker c.world)) := by
    simp [World.answer_store hf, World.replyAfter, World.perform_available _ ha,
      Store.Call.readsClock, Store.serve, World.served, Worker.fetched]
  rw [World.exchanges_now hanswer]
  change [] ++ (Worker.fetched n (c.profile n).worker c.world ++
    (World.exchanges n _ c.world.served).flatMap eventsRead) = _
  rw [Prog.exchanges_unread (Worker.proceed_unread ..), List.append_nil, List.nil_append]

/-- What a step around the log does to it and to the cursor of the worker. -/
inductive Turn (n : Nat) (x : Taken) : Prop
  /-- Events were appended, perhaps none. -/
  | appends (hl : x.before.world.store.live.Extends x.appended x.after.world.store.live)
      (hf : x.after.world.store.frozen = x.before.world.store.frozen) (hs : x.served = false)
      (hb : x.batch = []) (hc : x.after.cursor n = x.before.cursor n)
  | retains {before : Timestamp} (hi : x.input = .call (.deleteEventsBefore before))
      (hl : x.after.world.store.live = (x.before.world.store.live.deleteEventsBefore before).2)
      (hf : x.after.world.store.frozen = x.before.world.store.frozen) (ha : x.appended = [])
      (hs : x.served = false) (hb : x.batch = []) (hc : x.after.cursor n = x.before.cursor n)
  /-- Local reads see the current tables, now or from now on. -/
  | views (hl : x.after.world.store.live = x.before.world.store.live)
      (hf : x.after.world.store.frozen = none ∨
        x.after.world.store.frozen = some x.before.world.store.live)
      (ha : x.appended = []) (hs : x.served = false) (hb : x.batch = [])
      (hc : x.after.cursor n = x.before.cursor n)
  | reads (hi : x.input = .poll n) (hl : x.after.world.store.live = x.before.world.store.live)
      (hf : x.after.world.store.frozen = x.before.world.store.frozen) (ha : x.appended = [])
      (hs : x.served = true)
      (hb : x.batch = Worker.fetched n (x.before.profile n).worker x.before.world)
      (hc : x.after.cursor n = Worker.cursorAfter (x.before.cursor n) x.batch)

/-- A step that left the store and the cursor as they were. -/
theorem Turn.unchanged {x : Taken} (hstore : x.after.world.store = x.before.world.store)
    (ha : x.appended = []) (hs : x.served = false) (hb : x.batch = [])
    (hc : x.after.cursor n = x.before.cursor n) : Turn n x := by
  refine .appends ?_ (by rw [hstore]) hs hb hc
  rw [hstore, ha]
  exact .refl _

theorem cursor_of_nodes {c c' : Cluster} (h : c'.world.nodes = c.world.nodes) :
    c'.cursor n = c.cursor n ∧ c'.profile n = c.profile n := by
  simp only [cursor, profile, World.node, h, and_self]

/-- What a call around the log does to it. -/
theorem call_turn {call : Store.Call} (hi : LogInput n (.call call)) {w : World}
    {r : Except StoreError call.Result} (hr : c.world.perform call = some (w, r)) {after : Cluster}
    (hs : after.world.store = w.store) (hcur : after.cursor n = c.cursor n) :
    Turn n ⟨c, .call call, some r, after⟩ := by
  have hlive : after.world.store.live = w.store.live := congrArg _ hs
  have hfrozen : after.world.store.frozen = w.store.frozen := congrArg _ hs
  cases World.performed hr with
  | served _ hserve =>
    cases call with
    | appendEvent p =>
      obtain ⟨t, ht, -, rfl⟩ := Store.serve_appendEvent hserve
      exact .appends (hlive ▸ ht) hfrozen rfl rfl hcur
    | appendEvents ps =>
      obtain ⟨t, ht, -, rfl⟩ := Store.serve_appendEvents hserve
      exact .appends (hlive ▸ ht) hfrozen rfl rfl hcur
    | deleteEventsBefore before =>
      cases hserve
      exact .retains rfl hlive hfrozen rfl rfl rfl hcur
    | _ => exact hi.elim
  | failed e =>
    refine .unchanged (hs.trans ?_) ?_ rfl rfl hcur
    · split <;> rfl
    · cases call <;> rfl

/-- What a poll does to the log and to the cursor. -/
theorem poll_turn (hf : c.world.faults = []) (hn : n < c.world.nodes.length)
    {o : Option (Except NotifyError PollOutcome)} {w : World} (heff : c.Effect (fun _ => True) (.poll n) o w)
    {after : Cluster} (hs : after.world.store = w.store) (hnodes : after.world.nodes = w.nodes) :
    Turn n ⟨c, .poll n, o, after⟩ ∧ after.world.nodes.length = c.world.nodes.length ∧
      after.profile n = c.profile n := by
  have hnode : after.world.node n = w.node n := by simp only [World.node, hnodes]
  have hlive : after.world.store.live = w.store.live := congrArg _ hs
  have hfrozen : after.world.store.frozen = w.store.frozen := congrArg _ hs
  rcases heff with ⟨ha, rfl, rfl⟩ | ⟨ha, outcome, rfl, hp⟩
  · refine ⟨.unchanged hs rfl rfl ?_ (congrArg NodeState.cursor hnode), by rw [hnodes],
      congrArg NodeState.profile hnode⟩
    change (c.polling n).flatMap eventsRead = []
    rw [polling_unavailable hf ha]
    rfl
  · have hbatch := polling_available (n := n) hf ha
    cases hp with
    | idle hempty =>
      refine ⟨.reads rfl hlive hfrozen rfl rfl hbatch ?_, by rw [hnodes]; rfl,
        congrArg NodeState.profile hnode⟩
      refine (congrArg NodeState.cursor hnode).trans ?_
      change _ = Worker.cursorAfter _ ((c.polling n).flatMap eventsRead)
      rw [hbatch, hempty]
      rfl
    | dispatched hsome failed reads =>
      have hmoved : after.world.node n =
          { c.world.node n with
            cursor := Worker.cursorAfter (c.world.node n).cursor
              (Worker.fetched n (c.profile n).worker c.world) } :=
        hnode.trans (World.node_modifyNode _ n _ hn)
      have hprofile : (after.world.node n).profile = (c.world.node n).profile := by rw [hmoved]
      refine ⟨.reads rfl hlive hfrozen rfl rfl hbatch ?_, ?_, hprofile⟩
      · refine (congrArg NodeState.cursor hmoved).trans ?_
        change _ = Worker.cursorAfter _ ((c.polling n).flatMap eventsRead)
        rw [hbatch]
        rfl
      · rw [hnodes, World.nodes_modifyNode_length]
        rfl

/-- What a step around the log came to. -/
theorem take_turn (hc : c.Steady fun _ => True) (hn : n < c.world.nodes.length) {i : Input}
    (hi : LogInput n i) (hov : (c.apply i).2 ≠ .overflow) :
    Turn n (c.take i) ∧ (c.apply i).1.Steady (fun _ => True) ∧
      (c.apply i).1.world.nodes.length = c.world.nodes.length ∧
      (c.apply i).1.profile n = c.profile n := by
  obtain ⟨w, heff, hset, hsteady⟩ := apply_effect hc i (fun _ _ _ _ _ _ _ => trivial) hov
  have hlive : (c.apply i).1.world.store.live = w.store.live := congrArg _ hset.store
  have hfrozen : (c.apply i).1.world.store.frozen = w.store.frozen := congrArg _ hset.store
  -- A step that leaves the nodes alone keeps the cursor.
  have hkeep : w.nodes = c.world.nodes → (c.apply i).1.world.nodes.length = c.world.nodes.length ∧
      (c.apply i).1.cursor n = c.cursor n ∧ (c.apply i).1.profile n = c.profile n := by
    intro h
    exact ⟨by rw [hset.nodes, h], cursor_of_nodes (hset.nodes.trans h)⟩
  cases i with
  | call call =>
    obtain ⟨r, hr, ho⟩ := heff
    obtain ⟨hlen, hcur, hprof⟩ := hkeep (perform_frame hr).1
    refine ⟨?_, hsteady, hlen, hprof⟩
    rw [take, ho]
    exact call_turn hi hr hset.store hcur
  | appendEventAt p at_ =>
    obtain ⟨e, t, ht, ho, rfl⟩ := heff
    obtain ⟨hlen, hcur, hprof⟩ := hkeep rfl
    refine ⟨?_, hsteady, hlen, hprof⟩
    rw [take, ho]
    exact .appends (hlive ▸ (Tables.append?_extends ht).1) hfrozen rfl rfl hcur
  | poll m =>
    obtain rfl : m = n := hi
    obtain ⟨hturn, hlen, hprof⟩ := poll_turn hc.faults hn heff hset.store hset.nodes
    exact ⟨hturn, hsteady, hlen, hprof⟩
  | lag =>
    obtain rfl := heff
    obtain ⟨hlen, hcur, hprof⟩ := hkeep rfl
    exact ⟨.views hlive (.inr hfrozen) rfl rfl rfl hcur, hsteady, hlen, hprof⟩
  | catchUp =>
    obtain rfl := heff
    obtain ⟨hlen, hcur, hprof⟩ := hkeep rfl
    exact ⟨.views hlive (.inl hfrozen) rfl rfl rfl hcur, hsteady, hlen, hprof⟩
  | setAvailable b =>
    obtain rfl := heff
    obtain ⟨hlen, hcur, hprof⟩ := hkeep rfl
    exact ⟨.appends (hlive ▸ .refl _) hfrozen rfl rfl hcur, hsteady, hlen, hprof⟩
  | _ => exact hi.elim

end Cluster

end ConfigRegistry
