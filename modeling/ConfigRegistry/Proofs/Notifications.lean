import ConfigRegistry.Proofs.Actions

/-!
# What notifications come to

A subscriber is sent what the local view of the store shows and then joins the room
(`Notification.Offered`). A poll that finds events queues one message for every member
of every room that its batch concerns (`Worker.Polled`); when the read fails nothing
at all changes.
-/

namespace ConfigRegistry

open World (Passes Progress)

/-! ## Snapshots -/

/-- The state that subscribers are sent, as these tables show it. -/
def Tables.snapshot (t : Tables) : Notification → Except NotifyError Bytes
  | .config m => match t.activeConfig m with
    | some c => .ok c.data
    | none => .error (.noActiveConfig m)
  | .backends m => .ok (Notification.backendsPayload m (t.backendsByModule m))
  | .routing => .ok (Notification.routingPayload t.allBackends)

variable {underway : Delivery → Prop} {n : Nat} {w : World} {l : Limits} {k : Notification}

namespace Notification

theorem ensures_snapshot {post : Option (Except NotifyError Bytes) → World → Prop}
    (hf : w.faults = []) (ha : w.store.available = true) :
    (snapshot l k).Ensures n underway post w ↔
      post (some ((w.store.view .stale).snapshot k)) w.served := by
  cases k <;>
    simp only [snapshot, Action.ensures_bind, Action.ensures_call_mapError hf,
      World.perform_available _ ha, Store.serve, Store.Call.readsClock, Option.some.injEq,
      forall_eq', mapError_ok, World.Progress.afterOk, Bool.false_eq_true, ↓reduceIte,
      Tables.snapshot, Action.ensures_pure]
  case config m => cases (w.store.view .stale).activeConfig m <;> simp [World.served]
  case backends m => exact .rfl
  case routing => exact .rfl

theorem ensures_snapshot_unavailable {post : Option (Except NotifyError Bytes) → World → Prop}
    (hf : w.faults = []) (ha : w.store.available = false) :
    (snapshot l k).Ensures n underway post w ↔
      post (some (.error (.store .unreachable))) w := by
  cases k <;>
    simp only [snapshot, Action.ensures_bind, Action.ensures_call_mapError hf,
      World.perform_unavailable _ ha, Store.Call.readsClock, Option.some.injEq, forall_eq',
      mapError_error, World.Progress.afterOk, Bool.false_eq_true, ↓reduceIte,
      StoreError.unreachable]

/-! ## Subscribing -/

/-- What comes of offering a payload to a session: it arrives and the session joins the room, or
nothing but time passes, and then the session was not recording. -/
inductive Offered (n : Nat) (underway : Delivery → Prop) (s : Session) (k : Notification)
    (payload : Bytes) (w : World) : Option (Except NotifyError Unit) → World → Prop
  | joins {v : World} (h : Passes underway w v) :
      Offered n underway s k payload w (some (.ok ()))
        ((v.accept s k.message payload).joined n k.room s.conn)
  | missed {o : Option (Except NotifyError Unit)} {v : World} (hs : w.hears s = false)
      (h : Passes underway w v) (ho : o = none ∨ ∃ e, o = some (.error (.transport e))) :
      Offered n underway s k payload w o v

/-- A payload is offered, and a deaf session is not reached. -/
theorem ensures_deliver {s : Session} {payload : Bytes}
    {post : Option (Except NotifyError Unit) → World → Prop} (ho : w.outbox = [])
    (hp : ∀ o v, Offered n underway s k payload w o v → (o = some (.ok ()) → w.deaf s = false) →
      post o v) :
    (deliver l s k payload).Ensures n underway post w := by
  unfold deliver
  rw [Action.ensures_bind, Action.ensures_mapError]
  refine Action.ensures_emit ho ?_
  intro o v hv
  cases hv with
  | arrives h ha =>
    simp only [Option.map_some, mapError_ok, World.Progress.afterOk, Action.ensures_bind,
      Action.ensures_join, Action.ensures_pure]
    exact hp _ _ (.joins h) fun _ => ha
  | refused e hs h => exact hp _ _ (.missed hs h (.inr ⟨e, rfl⟩)) (by simp)
  | abandoned hs h => exact hp _ _ (.missed hs h (.inl rfl)) (by simp)

/-- What comes of a subscription: the local view has nothing to show, or what it shows is
offered. It fails for a deaf session. -/
inductive Subscribed (n : Nat) (underway : Delivery → Prop) (s : Session) (k : Notification)
    (w : World) : Option (Except NotifyError Unit) → World → Prop
  | unreachable (ha : w.store.available = false) :
      Subscribed n underway s k w (some (.error (.store .unreachable))) w
  | absent (e : NotifyError) (ha : w.store.available = true)
      (hk : (w.store.view .stale).snapshot k = .error e) :
      Subscribed n underway s k w (some (.error e)) w.served
  | offered {payload : Bytes} {o : Option (Except NotifyError Unit)} {v : World}
      (ha : w.store.available = true) (hk : (w.store.view .stale).snapshot k = .ok payload)
      (h : Offered n underway s k payload w.served o v)
      (hd : o = some (.ok ()) → w.deaf s = false) : Subscribed n underway s k w o v

theorem ensures_subscribe {s : Session} {post : Option (Except NotifyError Unit) → World → Prop}
    (hw : w.Still) (hp : ∀ o v, Subscribed n underway s k w o v → post o v) :
    (subscribe l s k).Ensures n underway post w := by
  unfold subscribe
  rw [Action.ensures_bind]
  cases ha : w.store.available with
  | false =>
    rw [ensures_snapshot_unavailable hw.faults ha]
    exact hp _ _ (.unreachable ha)
  | true =>
    rw [ensures_snapshot hw.faults ha]
    cases hk : (w.store.view .stale).snapshot k with
    | error e => exact hp _ _ (.absent e ha hk)
    | ok payload => exact ensures_deliver hw.outbox fun o v h hd => hp o v (.offered ha hk h hd)

end Notification

/-! ## Publishing -/

namespace World

/-- The messages that notify the members of a room of a node of what the local view shows. -/
def notices (n : Nat) (l : Limits) (w : World) (k : Notification) : List Notice :=
  match (w.store.view .stale).snapshot k with
  | .ok payload => ((w.node n).rooms.members k.room).map (⟨l.emit, ·, k.message, payload⟩)
  | .error _ => []

/-- The world after a number of reads and with more messages to be sent. -/
def queued (reads : Nat) (ms : List Notice) (w : World) : World :=
  { w with store := { w.store with reads := w.store.reads + reads }, outbox := w.outbox ++ ms }

theorem queued_none : w.queued 0 [] = w := by
  simp [queued]

theorem queued_served : w.queued 1 [] = w.served := by
  simp [queued, served]

theorem notices_queued (reads : Nat) (ms : List Notice) :
    (w.queued reads ms).notices n l k = w.notices n l k := by
  simp only [notices, queued, Store.view]
  rfl

theorem queued_queued (a b : Nat) (ms ms' : List Notice) :
    (w.queued a ms).queued b ms' = w.queued (a + b) (ms ++ ms') := by
  simp [queued, Nat.add_assoc]

end World

/-- A notification is queued for every member of its room. -/
theorem Worker.ensures_publish {post : Option Bool → World → Prop} (hf : w.faults = [])
    (ha : w.store.available = true)
    (hp : ∀ sent reads, post (some sent) (w.queued reads (w.notices n l k))) :
    (Worker.publish l k).Ensures n underway post w := by
  unfold Worker.publish
  rw [Prog.ensures_bind, Action.ensures_outcome]
  unfold Notification.publish
  simp only [Action.ensures_bind, Action.ensures_members, World.Progress.afterOk]
  cases hm : (w.node n).rooms.members k.room with
  | nil =>
    have hnone : w.notices n l k = [] := by
      simp only [World.notices, hm]
      split <;> rfl
    have hpost := hp true 0
    rw [hnone, World.queued_none] at hpost
    simpa using hpost
  | cons s rest =>
    simp only [List.isEmpty_cons, Bool.false_eq_true, ↓reduceIte, Action.ensures_bind,
      Notification.ensures_snapshot hf ha]
    cases hk : (w.store.view .stale).snapshot k with
    | error e =>
      have hnone : w.notices n l k = [] := by simp only [World.notices, hk]
      have hpost := hp false 1
      rw [hnone, World.queued_served] at hpost
      simpa using hpost
    | ok payload =>
      have hsome : w.notices n l k = (s :: rest).map (⟨l.emit, ·, k.message, payload⟩) := by
        simp only [World.notices, hk, hm]
      have hpost := hp true 1
      rw [hsome] at hpost
      simp only [World.Progress.afterOk, Action.ensures_broadcast, World.Progress.after,
        Prog.ensures_pure]
      exact hpost

/-! ## Polling -/

namespace Dispatch

/-- What a batch notifies of, in order. -/
def calls (events : List Event) : List Notification :=
  events.map .ofEvent ++ if changesRouting events then [.routing] else []

/-- Every event of a batch is published; a queue holds what they call for. -/
theorem ensures_each {events : List Event} {post : Option Nat → World → Prop} (hf : w.faults = [])
    (ha : w.store.available = true)
    (hp : ∀ failed reads, post (some failed)
      (w.queued reads ((events.map Notification.ofEvent).flatMap (w.notices n l)))) :
    (each (Worker.publish l) events).Ensures n underway post w := by
  induction events generalizing w post with
  | nil =>
    have hpost := hp 0 0
    rw [List.map_nil, List.flatMap_nil, World.queued_none] at hpost
    simpa [each] using hpost
  | cons e rest ih =>
    unfold each
    rw [Prog.ensures_bind]
    refine Worker.ensures_publish hf ha ?_
    intro sent reads
    simp only [World.Progress.after]
    rw [Prog.ensures_bind]
    refine ih (w := w.queued reads _) hf ha ?_
    intro failed reads'
    have hpost := hp (if sent then failed else failed + 1) (reads + reads')
    have hnotices : ∀ ms, (w.queued reads ms).notices n l = w.notices n l :=
      fun ms => funext fun k => World.notices_queued reads ms
    rw [World.queued_queued, hnotices]
    simp only [World.Progress.after, Prog.ensures_pure]
    exact hpost

theorem ensures_batch {events : List Event} {post : Option DispatchReport → World → Prop}
    (hf : w.faults = []) (ha : w.store.available = true)
    (hp : ∀ failed reads, post (some ⟨events.length, failed, changesRouting events⟩)
      (w.queued reads ((calls events).flatMap (w.notices n l)))) :
    (batch (Worker.publish l) events).Ensures n underway post w := by
  unfold batch
  rw [Prog.ensures_bind]
  refine ensures_each hf ha ?_
  intro failed reads
  simp only [World.Progress.after]
  by_cases hr : changesRouting events
  · simp only [hr, ↓reduceIte]
    rw [Prog.ensures_bind]
    refine Worker.ensures_publish (w := w.queued reads _) hf ha ?_
    intro sent reads'
    have hpost := hp (if sent then failed else failed + 1) (reads + reads')
    simp only [calls, hr, ↓reduceIte, List.flatMap_append, List.flatMap_singleton] at hpost
    rw [World.queued_queued, World.notices_queued]
    simp only [World.Progress.after, Prog.ensures_pure]
    exact hpost
  · have hpost := hp failed reads
    simp only [calls, hr, Bool.false_eq_true, ↓reduceIte, List.append_nil,
      Prog.ensures_pure] at hpost ⊢
    exact hpost

end Dispatch

namespace Worker

/-- The batch that a node reads next. -/
def fetched (n : Nat) (ws : WorkerSettings) (w : World) : List Event :=
  (w.store.view .stale).eventsAfter (w.node n).cursor ws.limit ws.order

/-- What a poll of a store that can be reached does: nothing is pending, or the batch is dispatched
and the cursor moves behind it. -/
inductive Polled (n : Nat) (ws : WorkerSettings) (l : Limits) (w : World) : PollOutcome → World → Prop
  | idle (h : fetched n ws w = []) : Polled n ws l w ⟨0, 0, (w.node n).cursor, ⟨0, 0, false⟩⟩ w.served
  | dispatched (h : fetched n ws w ≠ []) (failed reads : Nat) :
      Polled n ws l w
        ⟨(fetched n ws w).length, (kept ws (fetched n ws w)).length,
          cursorAfter (w.node n).cursor (fetched n ws w),
          ⟨(kept ws (fetched n ws w)).length, failed,
            Dispatch.changesRouting (kept ws (fetched n ws w))⟩⟩
        ((w.queued reads ((Dispatch.calls (kept ws (fetched n ws w))).flatMap (w.notices n l))).modifyNode
          n fun st => { st with cursor := cursorAfter (w.node n).cursor (fetched n ws w) })

section Frame

variable {ws : WorkerSettings} {o : PollOutcome} {v : World}

theorem Polled.faults (h : Polled n ws l w o v) : v.faults = w.faults := by
  cases h <;> rfl

theorem Polled.hears (h : Polled n ws l w o v) (s : Session) : v.hears s = w.hears s := by
  cases h <;> rfl

/-- What a poll leaves to be sent are notices to members of the rooms of its node. -/
theorem Polled.notice (h : Polled n ws l w o v) (hw : w.outbox = []) {m : Notice}
    (hm : m ∈ v.outbox) : ∃ k, m ∈ w.notices n l k := by
  cases h with
  | idle _ =>
    rw [World.served_outbox, hw] at hm
    cases hm
  | dispatched _ failed reads =>
    simp only [World.modifyNode_outbox, World.queued, hw, List.nil_append, List.mem_flatMap] at hm
    obtain ⟨k, -, hm⟩ := hm
    exact ⟨k, hm⟩

end Frame

theorem ensures_poll {ws : WorkerSettings} {post : Option (Except NotifyError PollOutcome) → World → Prop}
    (hf : w.faults = [])
    (hu : w.store.available = false → post (some (.error (.store .unreachable))) w)
    (hp : w.store.available = true → ∀ o v, Polled n ws l w o v → post (some (.ok o)) v) :
    (poll ws l).Ensures n underway post w := by
  unfold poll pollWith proceed
  simp only [within_eq, Action.ensures_bind, Action.ensures_cursor, Action.ensures_call_mapError hf,
    World.Progress.afterOk]
  cases ha : w.store.available with
  | false =>
    simp only [World.perform_unavailable _ ha, Option.some.injEq, forall_eq', Store.Call.readsClock]
    exact hu ha
  | true =>
    have hfetched : (w.store.view .stale).eventsAfter (w.node n).cursor ws.limit ws.order =
        fetched n ws w := rfl
    simp only [World.perform_available _ ha, Store.serve, Store.Call.readsClock, Option.some.injEq,
      forall_eq', Bool.false_eq_true, ↓reduceIte, mapError_ok, hfetched]
    by_cases he : (fetched n ws w).isEmpty
    · simp only [he, ↓reduceIte, Action.ensures_pure]
      exact hp ha _ _ (.idle (List.isEmpty_iff.mp he))
    · simp only [he, Bool.false_eq_true, ↓reduceIte, Action.ensures_bind, Action.ensures_lift]
      refine Dispatch.ensures_batch (w := w.served) hf ha ?_
      intro failed reads
      have hdone := Polled.dispatched (l := l) (fun h => he (List.isEmpty_iff.mpr h)) failed (1 + reads)
      have hnotices : w.served.notices n l = w.notices n l := by
        rw [← World.queued_served]
        exact funext fun k => World.notices_queued 1 []
      simp only [Option.map_some, World.Progress.afterOk, Action.ensures_moveCursor,
        Action.ensures_pure]
      rw [hnotices, ← World.queued_served, World.queued_queued]
      exact hp ha _ _ hdone

end Worker

end ConfigRegistry
