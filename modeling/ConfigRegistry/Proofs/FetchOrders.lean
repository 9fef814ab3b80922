import ConfigRegistry.Proofs.Consumption
import ConfigRegistry.Proofs.Dispatches

/-!
# Newest first, oldest first

As long as a poll can read all that is pending, it makes no difference from which end it
reads. A poll of the newest events that are more than it reads at once dispatches the ones
with the highest ids and passes the others (`Worker.Overtakes`): no later poll of the worker
reads them.
-/

namespace ConfigRegistry

/-! ## Polls of any notifier -/

namespace Worker

/-- A poll with a recorded notifier, and what the notifier was asked for. -/
def watchedPoll (succeeds : List Notification → Notification → Bool) (ws : WorkerSettings)
    (timeout : Nat) : Prog (Except NotifyError PollOutcome × List Notification) :=
  (pollWith (Dispatch.recorded succeeds) ws timeout).run.run []

theorem pollWith_run {σ : Type} (notify : Notification → StateT σ Prog Bool) (ws : WorkerSettings)
    (timeout : Nat) (s : σ) :
    (pollWith notify ws timeout).run.run s = reading timeout ws.limit ws.order
      (fun e => .done (.error (.store e), s))
      fun cursor events => (proceed notify ws cursor events).run.run s := by
  change Prog.ask .cursor _ = _
  unfold reading
  congr 1
  funext cursor
  change Prog.ask (.store (some timeout) (.eventsAfter cursor ws.limit ws.order .stale)) _ = _
  congr 1
  funext answer
  cases answer <;> rfl

theorem proceed_recorded (succeeds : List Notification → Notification → Bool) (ws : WorkerSettings)
    (cursor : EventId) (events : List Event) :
    (proceed (m := StateT (List Notification) Prog) (Dispatch.recorded succeeds) ws cursor
        events).run.run [] =
      if events.isEmpty then .done (.ok ⟨0, 0, cursor, ⟨0, 0, false⟩⟩, [])
      else .ask (.moveCursor (cursorAfter cursor events)) fun _ =>
        .done (.ok ⟨events.length, (kept ws events).length, cursorAfter cursor events,
          (Dispatch.observed succeeds (kept ws events)).1⟩,
          (Dispatch.observed succeeds (kept ws events)).2) := by
  unfold proceed
  split
  · rfl
  · simp only [ExceptT.run_bind, ExceptT.run_lift, StateT.run_bind, StateT.run_map,
      Dispatch.batch_recorded, map_pure, pure_bind]
    rw [Dispatch.observed_eq, List.nil_append]
    rfl

end Worker

/-! ## Running a poll -/

/-- The events that a program of a node reads from the log until it first waits. -/
def World.reads {α : Type} (n : Nat) (p : Prog α) (w : World) : List Event :=
  (w.exchanges n p).flatMap eventsRead

namespace World

variable {n : Nat} {w v : World}

/-- No fault is planned for the calls of a name. -/
def LetsThrough (name : String) (w : World) : Prop := Table.find? Prod.fst name w.faults = none

theorem run_now {α : Type} {r : Request} {reply : r.Reply} {next : r.Reply → Prog α}
    (h : w.answer n r = .now v reply) : w.run n (.ask r next) = v.run n (next reply) := by
  simp only [run, h]

theorem answer_eventsAfter (hf : w.LetsThrough "events_after") (timeout : Nat) (cursor : EventId)
    (limit : Nat) (order : FetchOrder) :
    w.answer n (.store (some timeout) (.eventsAfter cursor limit order .stale)) =
      if w.store.available then
        .now w.served (.ok ((w.store.view .stale).eventsAfter cursor limit order))
      else .now w (.error .unreachable) := by
  have htaken : w.takeFault "events_after" = (.pass, w) := by
    unfold takeFault
    rw [hf]
  simp only [answer, callStore, Store.Call.name, htaken, replyAfter, ↓reduceIte]
  cases ha : w.store.available with
  | false => simp [perform_unavailable _ ha, Store.Call.readsClock, StoreError.unreachable]
  | true => simp [perform_available _ ha, Store.Call.readsClock, Store.serve, served]

theorem modifyNode_self {f : NodeState → NodeState} (h : f (w.node n) = w.node n) :
    w.modifyNode n f = w := by
  have hnodes : w.nodes.modify n f = w.nodes := by
    apply List.ext_getElem?
    intro i
    rw [List.getElem?_modify]
    cases hi : w.nodes[i]? with
    | none => rfl
    | some st =>
      by_cases hn : n = i
      · subst hn
        have hst : w.node n = st := by rw [node, hi, Option.getD_some]
        simp [← hst, h]
      · simp [hn]
  simp only [modifyNode, hnodes]

end World

namespace Worker

variable {n : Nat} {w : World} {α : Type} {timeout limit : Nat} {order : FetchOrder}
  {failed : StoreError → Prog α} {next : EventId → List Event → Prog α}

theorem run_reading (hf : w.LetsThrough "events_after") :
    w.run n (reading timeout limit order failed next) =
      if w.store.available then
        w.served.run n (next (w.node n).cursor
          ((w.store.view .stale).eventsAfter (w.node n).cursor limit order))
      else w.run n (failed .unreachable) := by
  unfold reading
  rw [World.run_now (r := .cursor) rfl]
  have hanswer := World.answer_eventsAfter (n := n) hf timeout (w.node n).cursor limit order
  by_cases ha : w.store.available = true
  · rw [if_pos ha] at hanswer ⊢
    exact World.run_now hanswer
  · rw [if_neg ha] at hanswer ⊢
    exact World.run_now hanswer

/-! ## Reading all that is pending -/

theorem kept_reverse (limit : Nat) (events : List Event) :
    kept ⟨limit, .newestFirst⟩ events.reverse = kept ⟨limit, .oldestFirst⟩ events := by
  simp [kept]

theorem proceed_reverse {m : Type → Type} [Monad m] [MonadLiftT Prog m]
    (notify : Notification → m Bool) (limit : Nat) (cursor : EventId) (events : List Event) :
    proceed notify ⟨limit, .newestFirst⟩ cursor events.reverse =
      proceed notify ⟨limit, .oldestFirst⟩ cursor events := by
  unfold proceed
  rw [List.isEmpty_reverse, kept_reverse, cursorAfter_reverse, List.length_reverse]

/-- When all that is due fits into a read, both orders go on with the same events. -/
theorem run_reading_orders {next' : EventId → List Event → Prog α} (hf : w.LetsThrough "events_after")
    (hdue : ((w.store.view .stale).due (w.node n).cursor).length ≤ limit)
    (hnext : ∀ cursor events, next cursor events.reverse = next' cursor events) :
    w.run n (reading timeout limit .newestFirst failed next) =
      w.run n (reading timeout limit .oldestFirst failed next') := by
  rw [run_reading hf, run_reading hf, Tables.eventsAfter_eq, Tables.eventsAfter_eq]
  simp only
  rw [List.take_of_length_le (by rwa [List.length_reverse]), List.take_of_length_le hdue, hnext]

theorem pollWith_orders {σ : Type} (notify : Notification → StateT σ Prog Bool) (s : σ)
    (hf : w.LetsThrough "events_after")
    (hdue : ((w.store.view .stale).due (w.node n).cursor).length ≤ limit) :
    w.run n ((pollWith notify ⟨limit, .newestFirst⟩ timeout).run.run s) =
      w.run n ((pollWith notify ⟨limit, .oldestFirst⟩ timeout).run.run s) := by
  rw [pollWith_run, pollWith_run]
  exact run_reading_orders hf hdue fun cursor events => by rw [proceed_reverse]

theorem poll_orders {l : Limits} (hf : w.LetsThrough "events_after")
    (hdue : ((w.store.view .stale).due (w.node n).cursor).length ≤ limit) :
    w.run n (poll ⟨limit, .newestFirst⟩ l).outcome =
      w.run n (poll ⟨limit, .oldestFirst⟩ l).outcome := by
  rw [outcome_poll, outcome_poll]
  exact run_reading_orders hf hdue fun cursor events =>
    congrArg Action.outcome (proceed_reverse (publish l) limit cursor events)

/-! ## What a watched poll comes to -/

theorem kept_nil (ws : WorkerSettings) : kept ws [] = [] := by
  simp [kept, Event.compact]

theorem run_watchedPoll (succeeds : List Notification → Notification → Bool) (ws : WorkerSettings)
    (timeout : Nat) (hf : w.LetsThrough "events_after") (ha : w.store.available = true) :
    w.run n (watchedPoll succeeds ws timeout) =
      .finished (w.served.modifyNode n fun st =>
          { st with cursor := cursorAfter (w.node n).cursor (fetched n ws w) })
        (.ok ⟨(fetched n ws w).length, (kept ws (fetched n ws w)).length,
            cursorAfter (w.node n).cursor (fetched n ws w),
            (Dispatch.observed succeeds (kept ws (fetched n ws w))).1⟩,
          (Dispatch.observed succeeds (kept ws (fetched n ws w))).2) := by
  have hproceed := proceed_recorded succeeds ws (w.node n).cursor (fetched n ws w)
  rw [watchedPoll, pollWith_run, run_reading hf, if_pos ha]
  refine (congrArg (World.run n · w.served) hproceed).trans ?_
  cases hbatch : fetched n ws w with
  | nil =>
    rw [kept_nil, World.modifyNode_self (w := w.served) rfl]
    rfl
  | cons e rest => rfl

theorem run_watchedPoll_unavailable (succeeds : List Notification → Notification → Bool)
    (ws : WorkerSettings) (timeout : Nat) (hf : w.LetsThrough "events_after")
    (ha : w.store.available = false) :
    w.run n (watchedPoll succeeds ws timeout) = .finished w (.error (.store .unreachable), []) := by
  rw [watchedPoll, pollWith_run, run_reading hf, ha]
  rfl

/-! ## What a watched poll reads -/

theorem proceed_recorded_unread (succeeds : List Notification → Notification → Bool) (ws : WorkerSettings)
    (cursor : EventId) (events : List Event) :
    ((proceed (m := StateT (List Notification) Prog) (Dispatch.recorded succeeds) ws cursor
      events).run.run []).Unread := by
  rw [proceed_recorded]
  split
  · trivial
  · exact ⟨fun _ => rfl, fun _ => trivial⟩

theorem reads_reading (hf : w.LetsThrough "events_after") (hfailed : ∀ e, (failed e).Unread)
    (hnext : ∀ cursor events, (next cursor events).Unread) :
    w.reads n (reading timeout limit order failed next) =
      if w.store.available then (w.store.view .stale).eventsAfter (w.node n).cursor limit order
      else [] := by
  have hanswer := World.answer_eventsAfter (n := n) hf timeout (w.node n).cursor limit order
  rw [World.reads, reading, World.exchanges_now (r := .cursor) rfl]
  by_cases ha : w.store.available = true
  · rw [if_pos ha] at hanswer ⊢
    rw [World.exchanges_now hanswer, List.flatMap_cons, List.flatMap_cons,
      Prog.exchanges_unread (hnext ..), List.append_nil]
    rfl
  · rw [if_neg ha] at hanswer ⊢
    rw [World.exchanges_now hanswer, List.flatMap_cons, List.flatMap_cons,
      Prog.exchanges_unread (hfailed _), List.append_nil]
    rfl

/-- A poll reads what comes next in the log it sees, if it reaches the store. -/
theorem reads_watchedPoll (succeeds : List Notification → Notification → Bool) (ws : WorkerSettings)
    (timeout : Nat) (hf : w.LetsThrough "events_after") :
    w.reads n (watchedPoll succeeds ws timeout) =
      if w.store.available then fetched n ws w else [] := by
  rw [watchedPoll, pollWith_run]
  exact reads_reading hf (fun _ => trivial) fun cursor events => proceed_recorded_unread ..

/-! ## The polls to come -/

/-- A worker goes on polling, with any notifier. In between anything may happen but to its cursor. The
events are those that its polls read. -/
inductive Life (n : Nat) (w : World) : List Event → World → Prop
  | begins : Life n w [] w
  | meanwhile {es : List Event} {v v' : World} (h : Life n w es v)
      (hc : (v'.node n).cursor = (v.node n).cursor) : Life n w es v'
  | polls {es : List Event} {v v' : World} {ws : WorkerSettings} {timeout : Nat}
      {succeeds : List Notification → Notification → Bool}
      {reply : Except NotifyError PollOutcome × List Notification} (h : Life n w es v)
      (hf : v.LetsThrough "events_after")
      (hv : v.run n (watchedPoll succeeds ws timeout) = .finished v' reply) :
      Life n w (es ++ v.reads n (watchedPoll succeeds ws timeout)) v'

/-- A poll reads behind its cursor, but for an event of the last id there is, and does not turn the
cursor back. -/
theorem watchedPoll_behind {v : World} {ws : WorkerSettings}
    {succeeds : List Notification → Notification → Bool}
    {reply : Except NotifyError PollOutcome × List Notification} (hf : w.LetsThrough "events_after")
    (hv : w.run n (watchedPoll succeeds ws timeout) = .finished v reply) :
    (w.node n).cursor ≤ (v.node n).cursor ∧
      ∀ e ∈ w.reads n (watchedPoll succeeds ws timeout),
        (w.node n).cursor < e.id ∨ e.id.toNat + 1 = UInt64.size := by
  rw [reads_watchedPoll succeeds _ _ hf]
  cases ha : w.store.available with
  | false =>
    rw [run_watchedPoll_unavailable succeeds _ _ hf ha] at hv
    cases hv
    exact ⟨UInt64.le_refl _, by simp⟩
  | true =>
    rw [run_watchedPoll succeeds _ _ hf ha] at hv
    cases hv
    refine ⟨?_, fun e he => (Tables.mem_due (Tables.of_mem_eventsAfter he)).2⟩
    rcases World.node_modifyNode_cases n n (fun st =>
      { st with cursor := cursorAfter (w.node n).cursor (fetched n ws w) }) w.served with h | ⟨-, h⟩
    · rw [h]
      exact UInt64.le_refl _
    · rw [h]
      exact le_cursorAfter _ _

theorem Life.behind {es : List Event} {v : World} (h : Life n w es v) :
    (w.node n).cursor ≤ (v.node n).cursor ∧
      ∀ e ∈ es, (w.node n).cursor < e.id ∨ e.id.toNat + 1 = UInt64.size := by
  induction h with
  | begins => exact ⟨UInt64.le_refl _, by simp⟩
  | meanwhile _ hc ih => exact ⟨hc ▸ ih.1, ih.2⟩
  | polls _ hf hv ih =>
    obtain ⟨hle, hread⟩ := watchedPoll_behind hf hv
    refine ⟨UInt64.le_trans ih.1 hle, fun e he => ?_⟩
    rcases List.mem_append.mp he with he | he
    · exact ih.2 e he
    · exact (hread e he).imp_left (UInt64.lt_of_le_of_lt ih.1)

theorem Life.reads_above {es : List Event} {v : World} {e : Event} (h : Life n w es v)
    (he : e.id < (w.node n).cursor) : ∀ x ∈ es, e.id < x.id := by
  intro x hx
  rcases h.behind.2 x hx with hlt | hlast
  · exact UInt64.lt_trans he hlt
  · have hbound : (w.node n).cursor.toNat < UInt64.size := (w.node n).cursor.toNat_lt
    rw [toNat_lt_iff] at he ⊢
    omega

/-! ## Backlogs that overflow -/

/-- A poll of the newest events read `batch`, which lies above everything else that was pending and
ends with the highest id of the log, and dispatched it in the order of the log. It passed `lower`: no
poll to come reads that. The next poll of the same log reads nothing, but that the event of the last
id there is would be read again. -/
structure Overtakes (succeeds : List Notification → Notification → Bool) (n limit timeout : Nat)
    (w v : World) (lower batch : List Event) (top : EventId) : Prop where
  parted : (w.store.view .stale).pending (w.node n).cursor = lower ++ batch
  full : batch.length = limit
  above : ∀ e ∈ lower, ∀ x ∈ batch, e.id < x.id
  top_mem : ∃ e ∈ batch, e.id = top
  highest : ∀ e ∈ (w.store.view .stale).events, e.id ≤ top
  reads : w.reads n (watchedPoll succeeds ⟨limit, .newestFirst⟩ timeout) = batch.reverse
  runs : w.run n (watchedPoll succeeds ⟨limit, .newestFirst⟩ timeout) = .finished v
    (.ok ⟨limit, (Event.compact batch).length, top,
      (Dispatch.observed succeeds (Event.compact batch)).1⟩, Dispatch.calls (Event.compact batch))
  moved : (v.node n).cursor = top
  log : v.store.view .stale = w.store.view .stale
  idle : ∀ (accepts : List Notification → Notification → Bool) (order : FetchOrder),
    v.run n (watchedPoll accepts ⟨limit, order⟩ timeout) =
        .finished v.served (.ok ⟨0, 0, top, ⟨0, 0, false⟩⟩, []) ↔
      top.toNat + 1 < UInt64.size
  passed : ∀ es v', Life n v es v' → ∀ e ∈ lower, ∀ x ∈ es, e.id < x.id

/-- A poll that reads nothing changes nothing and asks its notifier for nothing. -/
theorem run_watchedPoll_eq_idle (succeeds : List Notification → Notification → Bool)
    (ws : WorkerSettings) (timeout : Nat) (hf : w.LetsThrough "events_after")
    (ha : w.store.available = true) :
    w.run n (watchedPoll succeeds ws timeout) =
        .finished w.served (.ok ⟨0, 0, (w.node n).cursor, ⟨0, 0, false⟩⟩, []) ↔
      fetched n ws w = [] := by
  rw [run_watchedPoll succeeds _ _ hf ha]
  constructor
  · intro h
    injection h with _ hreply
    injection hreply with houtcome _
    injection houtcome with houtcome
    injection houtcome with hnone
    exact List.eq_nil_of_length_eq_zero hnone
  · intro h
    rw [h, kept_nil, World.modifyNode_self (w := w.served) rfl]
    rfl

/-- A poll of the newest events reads the higher part of a backlog if it fills the poll. -/
theorem fetched_newest {lower batch : List Event} {x : Event}
    (hp : (w.store.view .stale).pending (w.node n).cursor = lower ++ batch) (hx : x ∈ batch)
    (hfull : batch.length = limit) : fetched n ⟨limit, .newestFirst⟩ w = batch.reverse := by
  have hlt : (w.node n).cursor < x.id :=
    (Tables.mem_pending.mp (hp ▸ List.mem_append_right lower hx)).2
  rw [fetched, Tables.eventsAfter_newestFirst _ (succ_lt_size hlt), hp, List.length_append, hfull,
    Nat.add_sub_cancel, List.drop_left]

/-- What a poll of the newest events does to a backlog whose higher part fills it. -/
theorem overtakes (succeeds : List Notification → Notification → Bool) (timeout : Nat)
    (hn : n < w.nodes.length) (ha : w.store.available = true) (hf : w.LetsThrough "events_after")
    (hs : (w.store.view .stale).events.Pairwise (·.id < ·.id)) (hl : 1 ≤ limit)
    {lower batch : List Event}
    (hp : (w.store.view .stale).pending (w.node n).cursor = lower ++ batch)
    (hfull : batch.length = limit) :
    ∃ v, Overtakes succeeds n limit timeout w v lower batch
      (cursorAfter (w.node n).cursor batch) := by
  have habove : ∀ e ∈ lower, ∀ x ∈ batch, e.id < x.id :=
    (List.pairwise_append.mp (hp ▸ hs.filter _ : (lower ++ batch).Pairwise (·.id < ·.id))).2.2
  have hsome : batch ≠ [] := List.ne_nil_of_length_pos (hfull ▸ hl)
  obtain ⟨⟨x, hx, htop⟩, hmax⟩ := cursorAfter_highest hp habove hsome
  obtain ⟨hmem, -⟩ := Tables.mem_pending.mp (hp ▸ List.mem_append_right lower hx)
  have hfetched : fetched n ⟨limit, .newestFirst⟩ w = batch.reverse := fetched_newest hp hx hfull
  have hkept : kept ⟨limit, .newestFirst⟩ batch.reverse = Event.compact batch := by
    rw [kept_reverse]
    rfl
  have hrun := run_watchedPoll (n := n) succeeds ⟨limit, .newestFirst⟩ timeout hf ha
  rw [hfetched, hkept, cursorAfter_reverse, List.length_reverse, hfull] at hrun
  generalize cursorAfter (w.node n).cursor batch = top at *
  set v := w.served.modifyNode n fun st => { st with cursor := top }
  have hmoved : (v.node n).cursor = top := congrArg NodeState.cursor (World.node_modifyNode _ n _ hn)
  refine ⟨v, hp, hfull, habove, ⟨x, hx, htop⟩, hmax, ?_, ?_, hmoved, rfl, ?_, ?_⟩
  · rw [reads_watchedPoll succeeds _ _ hf, if_pos ha, hfetched]
  · rw [hrun, Dispatch.observed_eq]
  · intro accepts order
    have hidle := run_watchedPoll_eq_idle (n := n) (w := v) accepts ⟨limit, order⟩ timeout hf ha
    rw [hmoved] at hidle
    rw [hidle, fetched, Tables.eventsAfter_eq_nil hl, hmoved]
    exact Tables.due_eq_nil ⟨x, hmem, htop⟩ hmax
  · intro es v' hlife e he y hy
    exact hlife.reads_above (hmoved.symm ▸ htop ▸ habove e he x hx) y hy

/-- Polls in either order come to the same, whatever notifier they dispatch to. -/
structure Agrees (n limit timeout : Nat) (w : World) : Prop where
  watched : ∀ succeeds, ∃ v outcome made,
    w.run n (watchedPoll succeeds ⟨limit, .newestFirst⟩ timeout) = .finished v (.ok outcome, made) ∧
    w.run n (watchedPoll succeeds ⟨limit, .oldestFirst⟩ timeout) = .finished v (.ok outcome, made)
  dispatched : ∀ {σ : Type} (notify : Notification → StateT σ Prog Bool) (s : σ),
    w.run n ((pollWith notify ⟨limit, .newestFirst⟩ timeout).run.run s) =
      w.run n ((pollWith notify ⟨limit, .oldestFirst⟩ timeout).run.run s)
  published : ∀ l : Limits, w.run n (poll ⟨limit, .newestFirst⟩ l).outcome =
    w.run n (poll ⟨limit, .oldestFirst⟩ l).outcome

theorem agrees (ha : w.store.available = true) (hf : w.LetsThrough "events_after")
    (hs : (w.store.view .stale).events.Pairwise (·.id < ·.id)) (hl : 1 ≤ limit)
    (hfew : ((w.store.view .stale).pending (w.node n).cursor).length ≤ limit) :
    Agrees n limit timeout w := by
  have hdue := Tables.length_due_le_limit hs hl hfew
  refine ⟨fun succeeds => ?_, fun notify s => pollWith_orders notify s hf hdue,
    fun l => poll_orders hf hdue⟩
  have hnewest := run_watchedPoll (n := n) succeeds ⟨limit, .newestFirst⟩ timeout hf ha
  exact ⟨_, _, _, hnewest, (pollWith_orders _ _ hf hdue).symm.trans hnewest⟩

/-- Which end of the log is read first makes no difference as long as all that is pending fits into a
poll. Of what does not fit, the newest events overtake the others. -/
theorem newest_agrees_until_overflow (n limit timeout : Nat) (w : World)
    (hn : n < w.nodes.length) (ha : w.store.available = true) (hf : w.LetsThrough "events_after")
    (hs : (w.store.view .stale).events.Pairwise (·.id < ·.id)) (hl : 1 ≤ limit) :
    let pending := (w.store.view .stale).pending (w.node n).cursor
    (pending.length ≤ limit → Agrees n limit timeout w) ∧
    (limit < pending.length → ∀ succeeds, ∃ v top,
      Overtakes succeeds n limit timeout w v (pending.take (pending.length - limit))
        (pending.drop (pending.length - limit)) top) := by
  intro pending
  refine ⟨fun hfew => agrees ha hf hs hl hfew, fun hmany succeeds => ?_⟩
  have hfull : (pending.drop (pending.length - limit)).length = limit := by
    rw [List.length_drop]
    omega
  obtain ⟨v, hv⟩ :=
    overtakes succeeds timeout hn ha hf hs hl (List.take_append_drop _ pending).symm hfull
  exact ⟨v, _, hv⟩

end Worker

/-- The node has read the first event; local reads lag behind the fifth. -/
def lagging : World :=
  let log (last : EventId) (ids : List EventId) : Tables :=
    { Tables.empty with lastEventId := last, events := ids.map fun i => ⟨i, default, default⟩ }
  { World.initial default with
    nodes := [⟨⟨⟨"n1"⟩, ⟨2000, 2000⟩, ⟨2, .newestFirst⟩⟩, .empty, 1, true⟩]
    store := { (World.initial default).store with
      live := log 5 [1, 2, 3, 4, 5], frozen := some (log 4 [1, 2, 3, 4]) } }

/-- Three events fit into a poll of three; two of them overtake the first in a poll of two. -/
theorem newest_overtakes_while_lagging :
    Worker.Agrees 0 3 2000 lagging ∧ ∀ succeeds, ∃ v top,
      Worker.Overtakes succeeds 0 2 2000 lagging v [⟨2, default, default⟩]
        [⟨3, default, default⟩, ⟨4, default, default⟩] top := by
  have hs : (lagging.store.view .stale).events.Pairwise (·.id < ·.id) := by decide
  exact ⟨(Worker.newest_agrees_until_overflow 0 3 2000 lagging Nat.one_pos rfl rfl hs (by decide)).1
      (by decide),
    (Worker.newest_agrees_until_overflow 0 2 2000 lagging Nat.one_pos rfl rfl hs (by decide)).2
      (by decide)⟩

end ConfigRegistry
