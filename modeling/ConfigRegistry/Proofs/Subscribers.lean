import ConfigRegistry.Proofs.Announcements
import ConfigRegistry.Proofs.Compaction
import ConfigRegistry.Proofs.Rooms

/-!
# What subscribers were shown

`World.Informed marks` speaks of every member of every room of every node: what the member
was shown last is current, or an event calls for it that lies behind the node's mark, which
is how far the node has read the log. Writes only add such events, subscribing shows what
late reads see, and a poll shows again what the events that it passes call for.
-/

namespace ConfigRegistry

theorem Notification.room_injective {k k' : Notification} (h : k.room = k'.room) : k = k' := by
  cases k <;> cases k' <;> simp_all [Notification.room]

namespace World

variable {underway : Delivery → Prop} {marks marks' : Nat → EventId} {w v : World} {s : Session}
  {k : Notification} {p : Bytes} {n : Nat}

/-- Late reads are served in order; a mark lies between the cursor of its node and the last event that
late reads see; members of the room of a config are of its module; and what a member was shown last
is current, or an event behind the mark of the node calls for it. -/
structure Informed (marks : Nat → EventId) (w : World) : Prop where
  synced : w.store.Synced
  read : ∀ n, (w.node n).cursor ≤ marks n
  reached : ∀ n, marks n ≤ (w.store.view .stale).lastEventId
  own : ∀ n m, ∀ s ∈ (w.node n).rooms.members (.configChanging m),
    (w.peer s).context.moduleId = some m
  shown : ∀ n k, ∀ s ∈ (w.node n).rooms.members (Notification.room k), w.hears s = true →
    ∃ p, LastShown s k w.deliveries p ∧ w.store.live.Current (marks n) k p

/-- What neither sends messages nor adds members keeps them informed. -/
theorem Informed.frame (h : w.Informed marks) (hs : w.store.Advances v.store)
    (hd : v.deliveries = w.deliveries) (hc : ∀ n, (v.node n).cursor ≤ (w.node n).cursor)
    (hm : ∀ n r, ∀ s ∈ (v.node n).rooms.members r, s ∈ (w.node n).rooms.members r ∧
      v.hears s = w.hears s ∧ (v.peer s).context.moduleId = (w.peer s).context.moduleId) :
    v.Informed marks where
  synced := h.synced.advances hs
  read := fun n => UInt64.le_trans (hc n) (h.read n)
  reached := fun n => UInt64.le_trans (h.reached n) (h.synced.view_le hs)
  own := by
    intro n m s hmem
    obtain ⟨hold, -, hmodule⟩ := hm n _ s hmem
    rw [hmodule]
    exact h.own n m s hold
  shown := by
    intro n k s hmem hh
    obtain ⟨hold, hhears, -⟩ := hm n _ s hmem
    obtain ⟨p, hlast, hp⟩ := h.shown n k s hold (hhears ▸ hh)
    obtain ⟨es, hmoves⟩ := hs.moved
    have hmark : marks n ≤ w.store.live.lastEventId :=
      UInt64.le_trans (h.reached n) h.synced.behind.le
    exact ⟨p, hd ▸ hlast, hmoves.current hmark hp⟩

/-- A change of the store alone. -/
theorem Informed.stores (h : w.Informed marks) (hs : w.store.Advances v.store)
    (hn : v.nodes = w.nodes) (hp : v.peers = w.peers) (hd : v.deliveries = w.deliveries) :
    v.Informed marks := by
  have hnode : ∀ n, v.node n = w.node n := by
    intro n
    unfold node
    rw [hn]
  have hpeer : ∀ s, v.peer s = w.peer s := by
    intro s
    unfold peer
    rw [hp]
  refine h.frame hs hd (fun n => ?_) fun n r s hmem => ⟨?_, ?_, ?_⟩
  · rw [hnode]
    exact UInt64.le_refl _
  · exact hnode n ▸ hmem
  · unfold hears
    rw [hpeer]
  · rw [hpeer]

/-! ## Messages -/

/-- What a message announces to its recipient is current as far as late reads can tell. -/
def Honest (w : World) (d : Delivery) : Prop :=
  ∀ k, Notification.Announces d k →
    (∀ m, k = .config m → (w.peer d.recipient).context.moduleId = some m) →
    w.store.live.Current (w.store.view .stale).lastEventId k d.payload

/-- Honest messages keep members informed. When they announce all that the events between two marks
call for, the marks can be moved. -/
theorem Informed.delivers (h : w.Informed marks) (new : List Delivery)
    (hlive : v.store.live = w.store.live) (hfrozen : v.store.frozen = w.store.frozen)
    (hrooms : ∀ n, (v.node n).rooms = (w.node n).rooms)
    (hfaces : v.peers.map Peer.face = w.peers.map Peer.face) (hd : v.deliveries = new ++ w.deliveries)
    (hnew : ∀ d ∈ new, w.hears d.recipient = true → w.Honest d)
    (hread : ∀ n, (v.node n).cursor ≤ marks' n)
    (hreached : ∀ n, marks' n ≤ (w.store.view .stale).lastEventId)
    (hmoved : ∀ n k, ∀ s ∈ (w.node n).rooms.members (Notification.room k), w.hears s = true →
      ∀ e ∈ w.store.live.events, e.Touches k → marks n < e.id → e.id ≤ marks' n →
        ∃ d ∈ new, d.recipient = s ∧ Notification.Announces d k) :
    v.Informed marks' := by
  have hview : v.store.view .stale = w.store.view .stale := by
    unfold Store.view
    rw [hlive, hfrozen]
  constructor
  · exact h.synced.advances (.same hlive hfrozen)
  · exact hread
  · rw [hview]
    exact hreached
  · intro n m s hmem
    rw [hrooms] at hmem
    rw [context_of_faces (w := w) hfaces]
    exact h.own n m s hmem
  · intro n k s hmem hh
    rw [hrooms] at hmem
    rw [hears_of_faces (w := w) hfaces] at hh
    rw [hlive, hd]
    obtain ⟨p, hlast, hp⟩ := h.shown n k s hmem hh
    rcases hlast.append_cases new with ⟨d, hmem', rfl, ha, hlast'⟩ | ⟨hnone, hlast'⟩
    · refine ⟨d.payload, hlast', (hnew d hmem' hh k ha ?_).mono (hreached n)⟩
      rintro m rfl
      exact h.own n m _ hmem
    · refine ⟨p, hlast', ?_⟩
      rcases hp with hp | ⟨e, he, htouch, hlt⟩
      · exact .inl hp
      · refine .inr ⟨e, he, htouch, UInt64.not_le.mp fun hle => ?_⟩
        obtain ⟨d, hd', hs, ha⟩ := hmoved n k s hmem hh e he htouch hlt hle
        exact hnone d hd' hs ha

/-- With marks that stay, nothing needs to be announced. -/
theorem Informed.keeps (h : w.Informed marks) (new : List Delivery)
    (hlive : v.store.live = w.store.live) (hfrozen : v.store.frozen = w.store.frozen)
    (hnodes : v.nodes = w.nodes)
    (hfaces : v.peers.map Peer.face = w.peers.map Peer.face) (hd : v.deliveries = new ++ w.deliveries)
    (hnew : ∀ d ∈ new, w.hears d.recipient = true → w.Honest d) : v.Informed marks := by
  have hnode : ∀ n, v.node n = w.node n := by
    intro n
    unfold node
    rw [hnodes]
  refine h.delivers new hlive hfrozen (fun n => by rw [hnode]) hfaces hd hnew (fun n => ?_) h.reached ?_
  · rw [hnode]
    exact h.read n
  · intro n k s _ _ e _ _ hlt hle
    exact absurd hle (UInt64.not_le.mpr hlt)

theorem Informed.aside (h : w.Informed marks) (ha : Aside underway s w v) : v.Informed marks := by
  obtain ⟨t, r, i, q, ps, ds, rfl, -, -, hfaces, hds⟩ := ha
  refine h.keeps ds rfl rfl rfl hfaces rfl fun d hd hh k hk => ?_
  rcases hds d hd with ⟨hs, -⟩ | ⟨e, -, rfl⟩
  · rw [hs] at hh
    cases hh
  · exact absurd hk Notification.not_announces_error

/-! ## Subscribing -/

/-- A session may be sent a payload: tables showed it, it is current as far as late reads can tell,
and a config is that of the session's module. -/
structure Fair (w : World) (s : Session) (k : Notification) (p : Bytes) : Prop where
  read : ∃ t : Tables, t.snapshot k = .ok p
  current : w.store.live.Current (w.store.view .stale).lastEventId k p
  own : ∀ m, k = .config m → (w.peer s).context.moduleId = some m

theorem Informed.fair (h : w.Informed marks) (hk : (w.store.view .stale).snapshot k = .ok p)
    (hown : ∀ m, k = .config m → (w.peer s).context.moduleId = some m) : w.Fair s k p :=
  ⟨⟨_, hk⟩, h.synced.behind.shows k p hk, hown⟩

theorem Fair.honest (h : w.Fair s k p) : w.Honest ⟨s, k.message, p⟩ := by
  intro k' ha hown
  obtain ⟨t, ht⟩ := h.read
  rcases Notification.announces_eq ht ha with rfl | ⟨⟨m', rfl⟩, m, rfl⟩
  · exact h.current
  · obtain rfl : m' = m := Option.some.inj ((hown m' rfl).symm.trans (h.own m rfl))
    exact h.current

theorem node_setRooms (n i : Nat) (x : RoomIndex) (w : World) : (w.setRooms n x).node i = w.node i ∨
    i = n ∧ (w.setRooms n x).node i = { w.node i with rooms := x } :=
  node_modifyNode_cases n i _ w

/-- A member of a room was one before, or the rooms of its node make it one. -/
theorem members_setRooms {x : RoomIndex} {r : Room} {i : Nat}
    (h : s ∈ ((w.setRooms n x).node i).rooms.members r) :
    s ∈ (w.node i).rooms.members r ∨ i = n ∧ s ∈ x.members r := by
  rcases node_setRooms n i x w with hnode | ⟨rfl, hnode⟩
  · exact .inl (hnode ▸ h)
  · rw [hnode] at h
    exact .inr ⟨rfl, h⟩

theorem cursor_setRooms (n i : Nat) (x : RoomIndex) (w : World) :
    ((w.setRooms n x).node i).cursor = (w.node i).cursor := by
  rcases node_setRooms n i x w with h | ⟨-, h⟩ <;> rw [h]

/-- A session that is shown what it subscribes to, then joins the room, is informed. -/
theorem Informed.joins (h : w.Informed marks) (hsound : w.Sound) (hp : w.Fair s k p)
    (hs : ∀ s' ∈ (w.node n).rooms.sessions, s'.conn = s.conn → s' = s) :
    ((w.accept s k.message p).joined n k.room s.conn).Informed marks := by
  have haccept : (w.accept s k.message p).Informed marks := by
    refine h.keeps [⟨s, k.message, p⟩] rfl rfl rfl (faces_modify_accepted _ _ _) rfl ?_
    intro d hd _
    obtain rfl := List.mem_singleton.mp hd
    exact hp.honest
  have hpeer : ((w.accept s k.message p).peer s).context = (w.peer s).context :=
    context_of_faces (w := w) (faces_modify_accepted _ _ _) s
  generalize hv : w.accept s k.message p = v at haccept hpeer
  have hlast : LastShown s k v.deliveries p := by
    obtain ⟨t, ht⟩ := hp.read
    rw [← hv]
    exact ⟨[], _, w.deliveries, rfl, rfl, Notification.announces_own ht, rfl, nofun⟩
  have hrooms : ∀ i, (v.node i).rooms = (w.node i).rooms := by
    intro i
    rw [← hv]
    rfl
  -- A member was one before, or it is the session that joins.
  have hmember : ∀ i r, ∀ s' ∈ ((v.joined n k.room s.conn).node i).rooms.members r,
      s' ∈ (v.node i).rooms.members r ∨ r = k.room ∧ s' = s := by
    intro i r s' hmem
    rcases members_setRooms hmem with hold | ⟨rfl, hmem⟩
    · exact .inl hold
    · rw [hrooms] at hmem ⊢
      rcases RoomIndex.members_join (hsound i) hmem with hold | ⟨hr, hconn, hsession⟩
      · exact .inl hold
      · exact .inr ⟨hr, hs s' hsession hconn⟩
  have hlive : v.store.live = w.store.live := by rw [← hv]; rfl
  have hview : v.store.view .stale = w.store.view .stale := by rw [← hv]; rfl
  constructor
  · exact haccept.synced
  · intro i
    rw [joined, cursor_setRooms]
    exact haccept.read i
  · exact haccept.reached
  · intro i m s' hmem
    rcases hmember i _ s' hmem with hold | ⟨hr, rfl⟩
    · exact haccept.own i m s' hold
    · have hk : k = .config m := Notification.room_injective hr.symm
      exact (congrArg (·.moduleId) hpeer).trans (hp.own m hk)
  · intro i k' s' hmem hh
    rcases hmember i _ s' hmem with hold | ⟨hr, rfl⟩
    · exact haccept.shown i k' s' hold hh
    · obtain rfl := Notification.room_injective hr
      have hcurrent : v.store.live.Current (v.store.view .stale).lastEventId k' p := by
        rw [hlive, hview]
        exact hp.current
      exact ⟨p, hlast, hcurrent.mono (haccept.reached i)⟩

end World

/-! ## Polling -/

/-- A batch is dispatched to all that its events call for. -/
theorem Dispatch.mem_calls {ws : WorkerSettings} {es : List Event} {e : Event} {k : Notification}
    (horder : ws.order = .oldestFirst) (he : e ∈ es) (hk : e.Touches k) :
    k ∈ calls (Worker.kept ws es) := by
  have hkept : Worker.kept ws es = Event.compact es := by simp [Worker.kept, horder]
  obtain ⟨x, hx, hkey⟩ := Event.mem_compact he
  obtain ⟨htopic, hmodule⟩ := Prod.mk.inj hkey
  rw [hkept]
  rcases hk with rfl | ⟨rfl, hb⟩
  · refine List.mem_append_left _ (List.mem_map.mpr ⟨x, hx, ?_⟩)
    simp only [Notification.ofEvent, htopic, hmodule]
  · have hroutes : changesRouting (Event.compact es) = true :=
      List.any_eq_true.mpr ⟨x, hx, decide_eq_true (htopic.trans hb)⟩
    refine List.mem_append_right _ ?_
    rw [if_pos hroutes]
    exact List.mem_singleton_self _

namespace World

variable {underway : Delivery → Prop} {marks marks' : Nat → EventId} {w v v' : World} {n : Nat}
  {ws : WorkerSettings} {l : Limits}

theorem mem_notices {k : Notification} {m : Notice} : m ∈ w.notices n l k ↔
    ∃ p, (w.store.view .stale).snapshot k = .ok p ∧
      ∃ s ∈ (w.node n).rooms.members k.room, m = ⟨l.emit, s, k.message, p⟩ := by
  unfold notices
  cases (w.store.view .stale).snapshot k with
  | error e => simp
  | ok p => simp [eq_comm]

/-- A notice of what late reads see is honest. -/
theorem Informed.notice (h : w.Informed marks) {k : Notification} {m : Notice}
    (hm : m ∈ w.notices n l k) : w.Honest m.delivery := by
  obtain ⟨p, hp, s, hs, rfl⟩ := mem_notices.mp hm
  refine (h.fair (s := s) hp ?_).honest
  rintro m rfl
  exact h.own n m s hs

/-- A batch holds every event between the cursor and where the cursor moves. -/
theorem mem_fetched {e : Event} (hsorted : (w.store.view .stale).events.Pairwise (·.id < ·.id))
    (horder : ws.order = .oldestFirst) (he : e ∈ (w.store.view .stale).events)
    (hlt : (w.node n).cursor < e.id)
    (hle : e.id ≤ Worker.cursorAfter (w.node n).cursor (Worker.fetched n ws w)) :
    e ∈ Worker.fetched n ws w := by
  have hbatch : Worker.fetched n ws w =
      ((w.store.view .stale).pending (w.node n).cursor).take ws.limit := by
    unfold Worker.fetched
    rw [horder, Tables.eventsAfter_oldestFirst ws.limit (succ_lt_size hlt)]
  rw [hbatch] at hle ⊢
  exact (Worker.mem_batch hsorted ws.limit).mpr ⟨he, hlt, hle⟩

/-- Of messages to recording sessions, those of the outbox arrive when it is sent. -/
theorem Settles.delivers (h : Settles underway w v) : ∃ new, v.deliveries = new ++ w.deliveries ∧
    ∀ d, w.hears d.recipient = true → (d ∈ new ↔ d ∈ w.outbox.map Notice.delivery) := by
  obtain ⟨t, ps, ds, rfl, -, hheard, -⟩ := h
  refine ⟨ds, rfl, fun d hd => ?_⟩
  have hmem : d ∈ ds.filter (fun d => w.hears d.recipient) ↔
      d ∈ (w.outbox.map Notice.delivery).filter fun d => w.hears d.recipient := by
    rw [hheard, List.mem_reverse]
  simpa [List.mem_filter, hd] using hmem

variable {outcome : PollOutcome}

/-- What recording sessions receive in a poll is what its batch calls for. -/
theorem polled_delivered (ho : w.outbox = []) (hp : Worker.Polled n ws l w outcome v)
    (hs : Settles underway v v') : ∃ new, v'.deliveries = new ++ w.deliveries ∧
      ∀ d, w.hears d.recipient = true → (d ∈ new ↔
        ∃ k ∈ Dispatch.calls (Worker.kept ws (Worker.fetched n ws w)),
          ∃ m ∈ w.notices n l k, m.delivery = d) := by
  obtain ⟨new, hnew, hheard⟩ := hs.delivers
  cases hp with
  | idle hnone =>
    refine ⟨new, hnew, fun d hd => (hheard d hd).trans ?_⟩
    have hempty : Dispatch.calls (Worker.kept ws (Worker.fetched n ws w)) = [] := by
      rw [hnone]
      unfold Worker.kept
      split <;> rfl
    change d ∈ w.outbox.map Notice.delivery ↔ _
    rw [ho, hempty]
    simp
  | dispatched hsome failed reads =>
    refine ⟨new, hnew, fun d hd => (hheard d hd).trans ?_⟩
    simp only [modifyNode_outbox, queued, ho, List.nil_append, List.mem_map, List.mem_flatMap]
    constructor
    · rintro ⟨m, ⟨k, hk, hm⟩, rfl⟩
      exact ⟨k, hk, m, hm, rfl⟩
    · rintro ⟨k, hk, m, hm, rfl⟩
      exact ⟨m, ⟨k, hk, hm⟩, rfl⟩

/-- A poll moves one cursor behind its batch and leaves the tables and the rooms alone. -/
structure PolledFrame (n : Nat) (ws : WorkerSettings) (w v : World) : Prop where
  live : v.store.live = w.store.live
  frozen : v.store.frozen = w.store.frozen
  available : v.store.available = w.store.available
  faces : v.peers.map Peer.face = w.peers.map Peer.face
  rooms : ∀ i, (v.node i).rooms = (w.node i).rooms
  cursor : (v.node n).cursor = Worker.cursorAfter (w.node n).cursor (Worker.fetched n ws w)
  others : ∀ i, i ≠ n → (v.node i).cursor = (w.node i).cursor

theorem polled_frame (hn : n < w.nodes.length) (hp : Worker.Polled n ws l w outcome v)
    (hs : Settles underway v v') : w.PolledFrame n ws v' := by
  obtain ⟨t, ps, ds, rfl, hfaces, -⟩ := hs
  cases hp with
  | idle hnone => exact ⟨rfl, rfl, rfl, hfaces, fun _ => rfl, by rw [hnone]; rfl, fun _ _ => rfl⟩
  | dispatched hsome failed reads =>
    generalize (Dispatch.calls (Worker.kept ws (Worker.fetched n ws w))).flatMap (w.notices n l) = ms at *
    refine ⟨rfl, rfl, rfl, hfaces, fun i => rooms_modifyNode (w := w.queued reads ms) fun _ => rfl, ?_, ?_⟩
    · exact congrArg NodeState.cursor (node_modifyNode (w.queued reads ms) n _ hn)
    · exact fun i hi => congrArg NodeState.cursor (node_modifyNode_ne (w.queued reads ms) n _ hi)

/-- A poll does not move the cursor beyond what late reads see. -/
theorem cursorAfter_bounded (ws : WorkerSettings) (hlogged : (w.store.view .stale).Logged)
    (hread : (w.node n).cursor ≤ (w.store.view .stale).lastEventId) :
    Worker.cursorAfter (w.node n).cursor (Worker.fetched n ws w) ≤
      (w.store.view .stale).lastEventId :=
  Worker.cursorAfter_le hread fun e he =>
    hlogged.bounded e (Tables.mem_due (Tables.of_mem_eventsAfter he)).1

/-- A member is notified when its node reads an event that calls for it. -/
theorem notified_of_read {k : Notification} {s : Session} {e : Event}
    (hregular : (w.store.view .stale).Regular) (horder : ws.order = .oldestFirst)
    (hmem : s ∈ (w.node n).rooms.members k.room) (he : e ∈ (w.store.view .stale).events)
    (htouch : e.Touches k) (hlt : (w.node n).cursor < e.id)
    (hle : e.id ≤ Worker.cursorAfter (w.node n).cursor (Worker.fetched n ws w)) :
    ∃ k' ∈ Dispatch.calls (Worker.kept ws (Worker.fetched n ws w)), ∃ m ∈ w.notices n l k',
      m.delivery.recipient = s ∧ Notification.Announces m.delivery k := by
  have hfetched := mem_fetched hregular.logged.sorted horder he hlt hle
  obtain ⟨p, hp⟩ : ∃ p, (w.store.view .stale).snapshot k = .ok p := by
    refine Tables.snapshot_shown ?_
    rintro m rfl
    obtain ⟨htopic, rfl⟩ := Event.touches_config.mp htouch
    exact hregular.configured e he htopic
  have hnotice : (⟨l.emit, s, k.message, p⟩ : Notice) ∈ w.notices n l k :=
    mem_notices.mpr ⟨p, hp, s, hmem, rfl⟩
  exact ⟨k, Dispatch.mem_calls horder hfetched htouch, _, hnotice, rfl, Notification.announces_own hp⟩

/-- A poll keeps members informed, and with the cursor moves the mark of the node. -/
theorem Informed.polled (h : w.Informed marks) (ho : w.outbox = []) (hn : n < w.nodes.length)
    (horder : ws.order = .oldestFirst) (hp : Worker.Polled n ws l w outcome v)
    (hs : Settles underway v v') (hread : ∀ i, (v'.node i).cursor ≤ marks' i)
    (hmarks : ∀ i id, id ≤ marks' i → id ≤ marks i ∨ i = n ∧ id ≤ (v'.node n).cursor) :
    v'.Informed marks' := by
  have hframe := polled_frame hn hp hs
  obtain ⟨new, hnew, hsent⟩ := polled_delivered ho hp hs
  have hbound := cursorAfter_bounded ws h.synced.view.logged
    (UInt64.le_trans (h.read n) (h.reached n))
  rw [hframe.cursor] at hmarks
  refine h.delivers new hframe.live hframe.frozen hframe.rooms hframe.faces hnew ?_ hread ?_ ?_
  · intro d hd hh
    obtain ⟨k, -, m, hm, rfl⟩ := (hsent d hh).mp hd
    exact h.notice hm
  · intro i
    rcases hmarks i _ (UInt64.le_refl _) with hold | ⟨rfl, hle⟩
    · exact UInt64.le_trans hold (h.reached i)
    · exact UInt64.le_trans hle hbound
  · intro i k s hmem hh e he htouch hlt hle
    rcases hmarks i _ hle with hold | ⟨rfl, hle⟩
    · exact absurd hold (UInt64.not_le.mpr hlt)
    · -- The event was read, so what it calls for was sent to the member.
      have hview := h.synced.behind.events e he (UInt64.le_trans hle hbound)
      obtain ⟨k', hk', m, hm, rfl, ha⟩ := notified_of_read (l := l) h.synced.view horder hmem hview
        htouch (UInt64.lt_of_le_of_lt (h.read i) hlt) hle
      exact ⟨m.delivery, (hsent _ hh).mpr ⟨k', hk', m, hm, rfl⟩, rfl, ha⟩

end World

end ConfigRegistry
