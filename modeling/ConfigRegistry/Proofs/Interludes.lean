import ConfigRegistry.Proofs.Baselines

/-!
# Between two requests of a program

While a program of a node waits, sessions become ready or leave, configs are written and
nodes poll. What such a step does is summed up once (`World.Interlude`): the tables move,
nobody joins a room, and a session is sent a snapshot just when the node that it is a member
at reads past an event that calls for it.
-/

namespace ConfigRegistry

open World (Aside Settles)

variable {underway : Delivery → Prop} {s : Session} {k : Notification} {n : Nat} {p : Bytes}

/-! ## Batches -/

/-- A batch is dispatched only to what its events call for. -/
theorem Dispatch.touched_of_mem_calls {ws : WorkerSettings} {es : List Event}
    (horder : ws.order = .oldestFirst) (hk : k ∈ calls (Worker.kept ws es)) : ∃ e ∈ es, e.Touches k := by
  have hkept : Worker.kept ws es = Event.compact es := by simp [Worker.kept, horder]
  rw [hkept] at hk
  rcases List.mem_append.mp hk with hk | hk
  · obtain ⟨e, he, rfl⟩ := List.mem_map.mp hk
    exact ⟨e, Event.of_mem_compact he, .inl rfl⟩
  · split at hk
    · rename_i hroutes
      obtain ⟨e, he, htopic⟩ := List.any_eq_true.mp hroutes
      exact ⟨e, Event.of_mem_compact he, .inr ⟨List.mem_singleton.mp hk, of_decide_eq_true htopic⟩⟩
    · cases hk

/-- No event has the last id there is, so every event lies behind some cursor. -/
def Tables.Unspent (t : Tables) : Prop := ∀ e ∈ t.events, e.id.toNat + 1 < UInt64.size

namespace World

variable {w u v : World}

/-- A config concerns the sessions of its module. -/
def Concerns (w : World) (k : Notification) (s : Session) : Prop :=
  ∀ m, k = .config m → (w.peer s).context.moduleId = some m

/-- From one world to another a node reads past an event that calls for a notification. -/
def Passed (w v : World) (n : Nat) (k : Notification) : Prop :=
  ∃ e ∈ w.store.live.events, e.Touches k ∧ (w.node n).cursor < e.id ∧ e.id ≤ (v.node n).cursor

/-- What comes of a step that lets nobody into a room: tables move, cursors go forward, and what a
recording session is sent is what the tables show as its node reads that it changed. -/
structure Interlude (w v : World) : Prop where
  published : ∃ es, w.store.live.Publishes es v.store.live
  frozen : v.store.frozen = w.store.frozen
  available : v.store.available = w.store.available
  members : ∀ n r, ∀ s ∈ (v.node n).rooms.members r, s ∈ (w.node n).rooms.members r
  hears : ∀ s, v.hears s = w.hears s
  module : ∀ s, (v.peer s).context.moduleId = (w.peer s).context.moduleId
  forward : ∀ n, (w.node n).cursor ≤ (v.node n).cursor
  read : (∀ n, (w.node n).cursor ≤ w.store.live.lastEventId) →
    ∀ n, (v.node n).cursor ≤ w.store.live.lastEventId
  delivered : ∃ new, v.deliveries = new ++ w.deliveries ∧ ∀ s k, w.hears s = true → w.Concerns k s →
    (∀ d ∈ new, d.recipient = s → k.Announces d → w.store.live.snapshot k = .ok d.payload ∧
      (w.store.live.Unspent → ∃ n, s ∈ (w.node n).rooms.members k.room ∧ w.Passed v n k)) ∧
    ∀ n, s ∈ (w.node n).rooms.members k.room → w.Passed v n k →
      ∃ d ∈ new, d.recipient = s ∧ k.Announces d

/-- A step in which no node reads and no recording session is sent a snapshot. -/
structure Quiet (w v : World) : Prop where
  published : ∃ es, w.store.live.Publishes es v.store.live
  frozen : v.store.frozen = w.store.frozen
  available : v.store.available = w.store.available
  members : ∀ n r, ∀ s ∈ (v.node n).rooms.members r, s ∈ (w.node n).rooms.members r
  hears : ∀ s, v.hears s = w.hears s
  module : ∀ s, (v.peer s).context.moduleId = (w.peer s).context.moduleId
  cursors : ∀ n, (v.node n).cursor = (w.node n).cursor
  delivered : ∃ new, v.deliveries = new ++ w.deliveries ∧
    ∀ d ∈ new, w.hears d.recipient = true → ∀ k, ¬ Notification.Announces d k

/-- Asides, then a write that moves the tables. -/
theorem Quiet.of_aside (h : Aside underway s w u) {es : List Event} {t : Tables}
    (hm : w.store.live.Publishes es t) : w.Quiet (u.write t) := by
  obtain ⟨time, readings, issued, reads, ps, ds, rfl, -, -, hfaces, hds⟩ := h
  refine ⟨⟨es, hm⟩, rfl, rfl, fun _ _ _ => id, fun s => hears_of_faces (w := w) hfaces s,
    fun s => congrArg (·.moduleId) (context_of_faces (w := w) hfaces s), fun _ => rfl, ds, rfl, ?_⟩
  intro d hd hh k ha
  rcases hds d hd with ⟨hs, -⟩ | ⟨e, -, rfl⟩
  · exact nomatch hs.symm.trans hh
  · exact Notification.not_announces_error ha

theorem Quiet.aside (h : Aside underway s w u) : w.Quiet u := by
  have hquiet := Quiet.of_aside h ((Tables.Moves.refl w.store.live).publishes rfl)
  rwa [← h.live] at hquiet

/-- A change of what a session knows besides its module goes unnoticed. -/
theorem Quiet.modifyPeer (h : w.Quiet u) {f : Peer → Peer} (hb : ∀ p, (f p).behaviour = p.behaviour)
    (hm : ∀ p, (f p).context.moduleId = p.context.moduleId) : w.Quiet (u.modifyPeer s f) where
  published := h.published
  frozen := h.frozen
  available := h.available
  members := h.members
  hears s' := by
    refine Eq.trans ?_ (h.hears s')
    exact congrArg (decide <| · = Behaviour.record) (peer_modifyPeer s s' f Peer.behaviour (.inr hb) u)
  module s' := (peer_modifyPeer s s' f (·.context.moduleId) (.inr hm) u).trans (h.module s')
  cursors := h.cursors
  delivered := h.delivered

/-- A session leaves the rooms of a node. -/
theorem Quiet.unregisters (h : w.Quiet u) (hsound : u.Sound) (n : Nat) (c : ConnectionId) :
    w.Quiet (u.setRooms n ((u.node n).rooms.unregister c).2) where
  published := h.published
  frozen := h.frozen
  available := h.available
  members i r s hs := by
    refine h.members i r s ?_
    rcases members_setRooms hs with hold | ⟨rfl, hmem⟩
    · exact hold
    · exact (RoomIndex.members_unregister (hsound i) hmem).1
  hears := h.hears
  module := h.module
  cursors i := (cursor_setRooms ..).trans (h.cursors i)
  delivered := h.delivered

/-- What is under way to others may arrive meanwhile. -/
theorem Quiet.interlude (h : w.Quiet u) (hstill : u.Still) (hs : Settles underway u v) :
    w.Interlude v := by
  obtain ⟨t, ps, ds, rfl, hfaces, hds⟩ := hs.passes hstill.outbox
  refine ⟨h.published, h.frozen, h.available, h.members,
    fun s => (hears_of_faces (w := u) hfaces s).trans (h.hears s),
    fun s => (congrArg (·.moduleId) (context_of_faces (w := u) hfaces s)).trans (h.module s),
    fun n => ?_, fun hread n => ?_, ?_⟩
  · change _ ≤ (u.node n).cursor
    rw [h.cursors]
    exact UInt64.le_refl _
  · change (u.node n).cursor ≤ _
    rw [h.cursors]
    exact hread n
  · obtain ⟨new, hnew, hquiet⟩ := h.delivered
    refine ⟨ds ++ new, (congrArg (ds ++ ·) hnew).trans (List.append_assoc ..).symm, fun s k hh _ => ?_⟩
    constructor
    · rintro d hd rfl ha
      rcases List.mem_append.mp hd with hd | hd
      · have hdeaf := (hds d hd).1
        rw [h.hears] at hdeaf
        exact nomatch hdeaf.symm.trans hh
      · exact absurd ha (hquiet d hd hh k)
    · rintro n - ⟨e, -, -, hlt, hle⟩
      change e.id ≤ (u.node n).cursor at hle
      rw [h.cursors] at hle
      exact absurd hle (UInt64.not_le.mpr hlt)

/-! ## Polls -/

variable {ws : WorkerSettings} {l : Limits} {outcome : PollOutcome}

/-- An event of a batch lies behind the cursor unless the ids are used up. -/
theorem lt_of_mem_fetched {e : Event} (hpresent : w.store.frozen = none)
    (hunspent : w.store.live.Unspent) (he : e ∈ Worker.fetched n ws w) :
    e ∈ w.store.live.events ∧ (w.node n).cursor < e.id := by
  rw [Worker.fetched, Store.view_present hpresent] at he
  obtain ⟨hmem, hbehind⟩ := Tables.mem_due (Tables.of_mem_eventsAfter he)
  exact ⟨hmem, hbehind.resolve_right (Nat.ne_of_lt (hunspent e hmem))⟩

theorem polled_interlude (ho : w.outbox = []) (hn : n < w.nodes.length)
    (horder : ws.order = .oldestFirst) (hpresent : w.store.frozen = none)
    (hregular : w.store.live.Regular)
    (hown : ∀ n k, ∀ s ∈ (w.node n).rooms.members (Notification.room k), w.Concerns k s)
    (hp : Worker.Polled n ws l w outcome u) (hs : Settles underway u v) : w.Interlude v := by
  have hframe := polled_frame hn hp hs
  obtain ⟨new, hnew, hsent⟩ := polled_delivered ho hp hs
  have hview := Store.view_present hpresent
  constructor
  case published => exact ⟨[], hframe.live ▸ (Tables.Moves.refl w.store.live).publishes rfl⟩
  case frozen => exact hframe.frozen
  case available => exact hframe.available
  case members => exact fun i r s hs => hframe.rooms i ▸ hs
  case hears => exact hears_of_faces hframe.faces
  case module => exact fun s => congrArg (·.moduleId) (context_of_faces hframe.faces s)
  case forward =>
    intro i
    by_cases hi : i = n
    · subst hi
      rw [hframe.cursor]
      exact Worker.le_cursorAfter _ _
    · rw [hframe.others i hi]
      exact UInt64.le_refl _
  case read =>
    intro hread i
    by_cases hi : i = n
    · subst hi
      rw [hframe.cursor, ← hview]
      exact cursorAfter_bounded ws (hview ▸ hregular.logged) (hview ▸ hread i)
    · rw [hframe.others i hi]
      exact hread i
  case delivered =>
    refine ⟨new, hnew, fun s k hh hconcerns => ⟨?_, ?_⟩⟩
    · rintro d hd rfl ha
      obtain ⟨k', hk', m, hm, rfl⟩ := (hsent d hh).mp hd
      obtain ⟨p, hp, s, hmember, rfl⟩ := mem_notices.mp hm
      rw [hview] at hp
      -- A message about one thing is not taken for one about another.
      obtain rfl : k = k' := by
        rcases Notification.announces_eq hp ha with rfl | ⟨⟨m, rfl⟩, m', rfl⟩
        · rfl
        · have hsame := (hconcerns m rfl).symm.trans (hown n _ s hmember m' rfl)
          rw [Option.some.inj hsame]
      refine ⟨hp, fun hunspent => ?_⟩
      obtain ⟨e, he, htouch⟩ := Dispatch.touched_of_mem_calls horder hk'
      obtain ⟨hmem, hlt⟩ := lt_of_mem_fetched hpresent hunspent he
      refine ⟨n, hmember, e, hmem, htouch, hlt, ?_⟩
      rw [hframe.cursor]
      exact Worker.id_le_cursorAfter he
    · rintro i hmember ⟨e, he, htouch, hlt, hle⟩
      obtain rfl : i = n := Decidable.byContradiction fun hi => by
        rw [hframe.others i hi] at hle
        exact absurd hle (UInt64.not_le.mpr hlt)
      rw [hframe.cursor] at hle
      obtain ⟨k', hk', m, hm, rfl, ha⟩ := notified_of_read (l := l) (hview ▸ hregular) horder hmember
        (hview ▸ he) htouch hlt hle
      exact ⟨m.delivery, (hsent _ hh).mpr ⟨k', hk', m, hm, rfl⟩, rfl, ha⟩

/-! ## What a session was shown last -/

variable {mark : EventId} {q : Bytes}

/-- What a session was shown last is current, or an event above a mark calls for it. -/
def Shown (mark : EventId) (s : Session) (k : Notification) (w : World) : Prop :=
  ∃ p, LastShown s k w.deliveries p ∧ w.store.live.Current mark k p

/-- A session that was shown what was current when the log was at a mark still was. -/
theorem Interlude.shown (h : w.Interlude v) (hh : w.hears s = true) (hc : w.Concerns k s)
    (hmark : mark ≤ w.store.live.lastEventId) (hs : w.Shown mark s k) : v.Shown mark s k := by
  obtain ⟨es, hpublished⟩ := h.published
  obtain ⟨new, hnew, hsent⟩ := h.delivered
  obtain ⟨p, hlast, hp⟩ := hs
  unfold Shown
  rw [hnew]
  rcases hlast.append_cases new with ⟨d, hd, hds, hda, hlast⟩ | ⟨-, hlast⟩
  · have hcurrent := ((hsent s k hh hc).1 d hd hds hda).1
    exact ⟨d.payload, hlast, hpublished.moves.current hmark (.inl hcurrent)⟩
  · exact ⟨p, hlast, hpublished.moves.current hmark hp⟩

/-- A member was last shown `p` when its node had read up to a mark. As long as no event since then
that calls for another message was read it holds `p`; once one was read it holds what is current as
far as the node has read. -/
inductive Follows (mark : EventId) (p : Bytes) (n : Nat) (s : Session) (k : Notification) (w : World) :
    Prop where
  | unread (hlast : LastShown s k w.deliveries p)
      (hunread : ∀ e ∈ w.store.live.events, e.Touches k → mark < e.id → (w.node n).cursor < e.id)
  | renewed {q : Bytes} (hlast : LastShown s k w.deliveries q)
      (hq : w.store.live.Current (w.node n).cursor k q)
      (hread : ∃ e ∈ w.store.live.events, e.Touches k ∧ mark < e.id)

theorem Interlude.follows (h : w.Interlude v) (hread : ∀ i, (w.node i).cursor ≤ w.store.live.lastEventId)
    (hunspent : w.store.live.Unspent) (hh : w.hears s = true) (hc : w.Concerns k s)
    (hs : s ∈ (w.node n).rooms.members k.room)
    (honly : ∀ i, s ∈ (w.node i).rooms.members k.room → i = n) (hmark : mark ≤ (w.node n).cursor)
    (hf : w.Follows mark p n s k) : v.Follows mark p n s k := by
  obtain ⟨es, hpublished⟩ := h.published
  obtain ⟨new, hnew, hsent⟩ := h.delivered
  obtain ⟨hcurrent, hpassed⟩ := hsent s k hh hc
  have hevents := hpublished.moves.events
  have hcursor : (v.node n).cursor ≤ w.store.live.lastEventId := h.read hread n
  by_cases hp : w.Passed v n k
  · -- The node reads that the snapshot changed, so the member is shown it as it is.
    obtain ⟨d, hd, hds, hda⟩ := hpassed n hs hp
    obtain ⟨x, hx, hxs, hxa, hlast⟩ := LastShown.exists_of_mem hd hds hda
    obtain ⟨e, he, htouch, hlt, -⟩ := hp
    refine .renewed (hnew ▸ hlast.append_of_new) ?_ ⟨e, ?_, htouch, UInt64.lt_of_le_of_lt hmark hlt⟩
    · exact hpublished.moves.current hcursor (.inl (hcurrent x hx hxs hxa).1)
    · rw [hevents]
      exact List.mem_append_left _ he
  · have hnone : ∀ d ∈ new, d.recipient = s → ¬ k.Announces d := by
      intro d hd hds hda
      obtain ⟨i, hi, hpi⟩ := (hcurrent d hd hds hda).2 hunspent
      exact hp (honly i hi ▸ hpi)
    have hbehind : ∀ e ∈ w.store.live.events, e.Touches k → (w.node n).cursor < e.id →
        (v.node n).cursor < e.id :=
      fun e he htouch hlt => UInt64.not_le.mp fun hle => hp ⟨e, he, htouch, hlt, hle⟩
    cases hf with
    | unread hlast hunread =>
      refine .unread (hnew ▸ hlast.append hnone) fun e he htouch hlt => ?_
      rw [hevents] at he
      rcases List.mem_append.mp he with he | he
      · exact hbehind e he htouch (hunread e he htouch hlt)
      · exact UInt64.lt_of_le_of_lt hcursor (hpublished.moves.above e he).1
    | renewed hlast hq hread =>
      refine .renewed (hnew ▸ hlast.append hnone) (hpublished.moves.current hcursor ?_) ?_
      · exact hq.imp_right fun ⟨e, he, htouch, hlt⟩ => ⟨e, he, htouch, hbehind e he htouch hlt⟩
      · obtain ⟨e, he, htouch, hlt⟩ := hread
        refine ⟨e, ?_, htouch, hlt⟩
        rw [hevents]
        exact List.mem_append_left _ he

/-- What a session was shown last is what the tables show. -/
def UpToDate (s : Session) (k : Notification) (w : World) : Prop :=
  ∃ q, w.store.live.snapshot k = .ok q ∧ LastShown s k w.deliveries q

/-- Once everything is read, a member is up to date exactly if what it held is what is shown, or an
event behind the mark calls for another message. -/
theorem Follows.upToDate_iff (h : w.Follows mark p n s k)
    (hall : ∀ e ∈ w.store.live.events, e.id ≤ (w.node n).cursor) :
    w.UpToDate s k ↔ w.store.live.Current mark k p := by
  have hnot : ∀ e ∈ w.store.live.events, ¬ (w.node n).cursor < e.id :=
    fun e he => UInt64.not_lt.mpr (hall e he)
  cases h with
  | unread hlast hunread =>
    constructor
    · rintro ⟨q, hq, hlast'⟩
      exact .inl (hlast.unique hlast' ▸ hq)
    · rintro (hp | ⟨e, he, htouch, hlt⟩)
      · exact ⟨p, hp, hlast⟩
      · exact absurd (hunread e he htouch hlt) (hnot e he)
  | @renewed q hlast hq hread =>
    refine iff_of_true ⟨q, hq.resolve_right ?_, hlast⟩ (.inr hread)
    rintro ⟨e, he, -, hlt⟩
    exact hnot e he hlt

end World

namespace Cluster

variable {c : Cluster} {i : Input} {profiles : List Profile} {w v : World}

/-- What may happen while a program of a node waits: sessions become ready or leave, configs are
written, and nodes poll. -/
def Meanwhile : Input → Prop
  | .ready .. | .disconnect _ | .updateActive .. | .activate .. | .poll _ => True
  | _ => False

theorem Meanwhile.ordinary (h : Meanwhile i) : c.Ordinary i := by
  cases i <;> first | exact h.elim | exact trivial

/-- A departure leaves configs alone. -/
theorem configs_departed {ctx : SessionContext} {r : Except LifecycleError Unit} {t : Tables}
    (hd : Lifecycle.Departure ctx w r t) : t.configs = w.store.live.configs := by
  have hmarked (now : Timestamp) : (Lifecycle.marked ctx now w.store.live).configs =
      w.store.live.configs := by
    unfold Lifecycle.marked
    split <;> rfl
  cases hd with
  | unreachable _ _ => rfl
  | unknown _ _ => rfl
  | marks _ _ now => exact hmarked now
  | withdraws _ _ now now' ht => exact (Tables.append?_extends ht).1.configs.trans (hmarked now)

/-- A cluster in order, whose store can be reached and does not lag. -/
structure Coherent (profiles : List Profile) (c : Cluster) : Prop where
  steady : c.Steady fun _ => True
  sound : c.world.Sound
  named : c.presence.Named
  rooted : c.presence.Rooted
  profiles : c.presence.places.map Prod.fst = profiles
  available : c.world.store.available = true
  present : c.world.store.frozen = none
  regular : c.world.store.live.Regular
  read : ∀ n, (c.world.node n).cursor ≤ c.world.store.live.lastEventId
  own : ∀ n k, ∀ s ∈ (c.world.node n).rooms.members (Notification.room k), c.world.Concerns k s

theorem quiet_ready (h : Coherent profiles c) {k : Nat} (hk : k < c.world.peers.length) {b : Backend}
    {w : World} (hx : Lifecycle.Readied (c.place (c.home k)) (c.session k) c.world b w) :
    c.world.Quiet w := by
  obtain ⟨-, hconn, -, hm, e, t, ht, rfl⟩ := hx
  have hmoves : c.world.store.live.Moves [e] t :=
    Tables.moves_insertBackend ht fun old hold hc => row_module h.named hk hconn hm hold hc
  have hticked : Aside (fun _ => False) default c.world c.world.ticked.ticked :=
    (Aside.ticked _).trans (.ticked _)
  have hwritten : c.world.Quiet (c.world.ticked.ticked.write t) :=
    .of_aside hticked (hmoves.publishes (Tables.append?_extends ht).1.configs)
  exact hwritten.modifyPeer (fun _ => rfl) fun _ => rfl

theorem quiet_left (h : Coherent profiles c) {n k : Nat} (hk : k < c.world.peers.length)
    {r : Except LifecycleError Unit} {w : World} (hl : Lifecycle.Left n (c.session k) c.world r w) :
    c.world.Quiet w := by
  obtain ⟨readings, t, -, hd, rfl⟩ := hl.departed
  obtain ⟨es, hmoves⟩ := moves_left h.named hk hd
  have hwritten : c.world.Quiet (World.write t { c.world with readings := readings }) :=
    ⟨⟨es, hmoves.publishes (configs_departed hd)⟩, rfl, rfl, fun _ _ _ => id, fun _ => rfl,
      fun _ => rfl, fun _ => rfl, [], rfl, nofun⟩
  exact (hwritten.unregisters (h.sound.of_nodes rfl) _ _).modifyPeer (fun _ => rfl) fun _ => rfl

theorem effect_interlude (h : Coherent profiles c) (horder : ∀ q ∈ profiles, q.worker.order = .oldestFirst)
    (hk : c.Knows i) (hm : Meanwhile i) {o : Option i.Reply} (heff : c.Effect underway i o w)
    (hs : Settles underway w v) : c.world.Interlude v := by
  have hstill := h.steady.still
  have hquiet (hw : c.world.Quiet w) (hpoll : ∀ n, i ≠ .poll n) : c.world.Interlude v :=
    hw.interlude (effect_still hstill hpoll heff) hs
  cases i with
  | ready k d =>
    refine hquiet ?_ nofun
    exact World.Attempt.elim heff (fun _ ha => .aside ha) fun _ _ hx => quiet_ready h hk hx
  | disconnect k =>
    obtain ⟨r, -, hl⟩ := heff
    exact hquiet (quiet_left h hk hl) nofun
  | updateActive n m data =>
    refine hquiet (World.Attempt.elim (heff default) (fun _ ha => .aside ha) ?_) nofun
    rintro _ _ ⟨-, w₁, t, ha, hupdated, rfl⟩
    obtain ⟨e, hpublished⟩ := Tables.publishes_updated h.regular.keyed hupdated
    exact .of_aside ha hpublished
  | activate n id =>
    refine hquiet (World.Attempt.elim (heff default) (fun _ ha => .aside ha) ?_) nofun
    rintro _ _ ⟨-, w₁, t, ha, hactivated, rfl⟩
    obtain ⟨e, hpublished⟩ := Tables.publishes_activated hactivated
    exact .of_aside ha hpublished
  | poll n =>
    rcases heff with ⟨hdown, -⟩ | ⟨-, outcome, -, hp⟩
    · exact nomatch hdown.symm.trans h.available
    · exact World.polled_interlude hstill.outbox hk (horder _ (worker_mem h.profiles hk)) h.present
        h.regular h.own hp hs
  | _ => exact hm.elim

/-! ## Runs -/

variable {h : List Taken} {at_ : Timestamp} {x : Taken}

theorem Coherent.step (h : Coherent profiles c) (horder : ∀ q ∈ profiles, q.worker.order = .oldestFirst)
    (hk : c.Knows i) (hm : Meanwhile i) (hov : (c.apply i).2 ≠ .overflow) :
    c.world.Interlude (c.apply i).1.world ∧ Coherent profiles (c.apply i).1 ∧
      c.presence.Grows (c.apply i).1.presence := by
  have hu : ∀ n, i = .poll n → ∀ l k,
      Simulation.Announced (fun _ => True) c.world (c.world.notices n l k) :=
    fun _ _ _ _ _ _ _ => trivial
  obtain ⟨w, heff, hset, hsteady⟩ := apply_effect h.steady i hu hov
  have hlude := effect_interlude h horder hk hm heff hset
  have hs := apply_presence h.steady i hu (hm.ordinary (c := c)).managed hov
  have hknows := presence_knows hk
  obtain ⟨es, hpublished⟩ := hlude.published
  refine ⟨hlude, ?_, hs.grows h.rooted.homes h.rooted.housed hknows⟩
  constructor
  case steady => exact hsteady
  case sound => exact apply_sound h.steady i hu hov h.sound
  case named =>
    refine h.named.step h.rooted.housed hknows ?_ hs
    rintro n id behaviour name rfl
    exact hm.elim
  case rooted => exact h.rooted.step hknows hs
  case profiles => exact hs.profiles.trans h.profiles
  case available => exact hlude.available.trans h.available
  case present => exact hlude.frozen.trans h.present
  case regular => exact hpublished.moves.regular h.regular
  case read => exact fun n => UInt64.le_trans (hlude.read h.read n) hpublished.moves.le
  case own =>
    intro n k s hs m hkm
    rw [hlude.module]
    exact h.own n k s (hlude.members n _ s hs) m hkm

theorem run_rooted (horder : ∀ q ∈ profiles, q.worker.order = .oldestFirst)
    (hrun : Run (fun _ c i => c.Ordinary i) (Cluster.start profiles at_) h c) : c.presence.Rooted := by
  induction hrun with
  | start => exact start_rooted
  | step hrun i hk hi hov ih =>
    have hs := apply_presence (run_converging horder hrun).steady i (fun _ _ _ _ _ _ _ => trivial)
      hi.managed hov
    exact ih.step (presence_knows hk) hs

/-- Every cluster that was run is in order while its store can be reached and does not lag. -/
theorem run_coherent (horder : ∀ q ∈ profiles, q.worker.order = .oldestFirst)
    (hrun : Run (fun _ c i => c.Ordinary i) (Cluster.start profiles at_) h c)
    (ha : c.world.store.available = true) (hpresent : c.world.store.frozen = none) :
    Coherent profiles c := by
  have ht := run_converging horder hrun
  have hview := Store.view_present hpresent
  refine ⟨ht.steady, ht.sound, ht.named, run_rooted horder hrun, ht.profiles, ha, hpresent,
    ht.informed.synced.live, fun n => ?_, ?_⟩
  · exact UInt64.le_trans (ht.informed.read n) (hview ▸ ht.informed.reached n)
  · rintro n k s hs m rfl
    exact ht.informed.own n m s hs

variable {c₁ : Cluster}

/-- While a program waits a cluster stays in order, and its sessions stay themselves. -/
theorem Coherent.run (hc : Coherent profiles c₁) (horder : ∀ q ∈ profiles, q.worker.order = .oldestFirst)
    (hrun : Run (fun _ _ i => Meanwhile i) c₁ h c) :
    Coherent profiles c ∧ c₁.presence.Grows c.presence := by
  induction hrun with
  | start => exact ⟨hc, .refl _⟩
  | step _ i hk hm hov ih =>
    obtain ⟨-, hcoherent, hgrows⟩ := ih.1.step horder hk hm hov
    exact ⟨hcoherent, ih.2.trans hgrows⟩

/-- What is current stays so. -/
theorem Coherent.current (hc : Coherent profiles c₁)
    (horder : ∀ q ∈ profiles, q.worker.order = .oldestFirst)
    (hrun : Run (fun _ _ i => Meanwhile i) c₁ h c) {mark : EventId}
    (hmark : mark ≤ c₁.world.store.live.lastEventId) (hp : c₁.world.store.live.Current mark k p) :
    c.world.store.live.Current mark k p := by
  have hcurrent : mark ≤ c.world.store.live.lastEventId ∧ c.world.store.live.Current mark k p := by
    induction hrun with
    | start => exact ⟨hmark, hp⟩
    | step hrun i hk hm hov ih =>
      obtain ⟨es, hpublished⟩ := ((hc.run horder hrun).1.step horder hk hm hov).1.published
      exact ⟨UInt64.le_trans ih.1 hpublished.moves.le, hpublished.moves.current ih.1 ih.2⟩
  exact hcurrent.2

/-- A session is in rooms of one node only. -/
theorem Coherent.one_home (h : Coherent profiles c) {r r' : Room} {m : Nat}
    (hs : s ∈ (c.world.node n).rooms.members r) (hs' : s ∈ (c.world.node m).rooms.members r') :
    m = n := by
  have hhome {i : Nat} {r : Room} (hs : s ∈ (c.world.node i).rooms.members r) :
      c.presence.home s.serial = i := by
    have hregistered : s ∈ c.presence.registered i :=
      World.presence_registered i ▸ RoomIndex.registered_of_member hs
    exact (h.rooted.registered i s hregistered).2.2
  exact (hhome hs').symm.trans (hhome hs)

/-- Whoever is still a member has followed the log from where its node had come. -/
theorem Coherent.follows (hc : Coherent profiles c₁)
    (horder : ∀ q ∈ profiles, q.worker.order = .oldestFirst)
    (hrun : Run (fun _ _ i => Meanwhile i) c₁ h c) (hh : c₁.world.hears s = true)
    (hconcerns : c₁.world.Concerns k s) (hlast : LastShown s k c₁.world.deliveries p)
    (hunspent : c.world.store.live.Unspent) (hs : s ∈ (c.world.node n).rooms.members k.room) :
    c.world.Follows (c₁.world.node n).cursor p n s k := by
  have hfollows : c.world.hears s = true ∧ c.world.Concerns k s ∧
      (c₁.world.node n).cursor ≤ (c.world.node n).cursor ∧
      (c.world.store.live.Unspent → s ∈ (c.world.node n).rooms.members k.room →
        c.world.Follows (c₁.world.node n).cursor p n s k) := by
    clear hunspent hs
    induction hrun with
    | start =>
      exact ⟨hh, hconcerns, UInt64.le_refl _, fun _ _ => .unread hlast fun _ _ _ hlt => hlt⟩
    | step hrun i hk hm hov ih =>
      obtain ⟨hh, hconcerns, hmark, hold⟩ := ih
      obtain ⟨hcoherent, -⟩ := hc.run horder hrun
      obtain ⟨hlude, -, -⟩ := hcoherent.step horder hk hm hov
      refine ⟨(hlude.hears s).trans hh, fun m hkm => (hlude.module s).trans (hconcerns m hkm),
        UInt64.le_trans hmark (hlude.forward n), fun hunspent hs => ?_⟩
      have hbefore := hlude.members n _ s hs
      obtain ⟨es, hpublished⟩ := hlude.published
      have hspared : Tables.Unspent _ := fun e he => hunspent e <| by
        rw [hpublished.moves.events]
        exact List.mem_append_left es he
      exact hlude.follows hcoherent.read hspared hh hconcerns hbefore
        (fun _ hs' => hcoherent.one_home hbefore hs') hmark (hold hspared hbefore)
  exact hfollows.2.2.2 hunspent hs

/-- No node goes back in the log. -/
theorem Coherent.forward (hc : Coherent profiles c₁)
    (horder : ∀ q ∈ profiles, q.worker.order = .oldestFirst)
    (hrun : Run (fun _ _ i => Meanwhile i) c₁ h c) (hx : x ∈ h) :
    (x.before.world.node n).cursor ≤ (c.world.node n).cursor := by
  induction hrun with
  | start => cases hx
  | step hrun i hk hm hov ih =>
    have hforward := ((hc.run horder hrun).1.step horder hk hm hov).1.forward n
    rcases List.mem_append.mp hx with hx | hx
    · exact UInt64.le_trans (ih hx) hforward
    · obtain rfl := List.mem_singleton.mp hx
      exact hforward

/-- A poll that finds nothing finds no event with the last id there is. -/
theorem unspent_of_idle (hc : c.Steady fun _ => True) (hk : c.Knows i)
    (hworker : n < c.world.nodes.length →
      (c.profile n).worker.order = .oldestFirst ∧ 1 ≤ (c.profile n).worker.limit)
    (hov : (c.apply i).2 ≠ .overflow) (hidle : (c.take i).idle n = true) :
    (c.world.store.view .stale).Unspent := by
  obtain ⟨hn, hnone⟩ := fetched_of_idle hc hk hov hidle
  obtain ⟨-, hlimit⟩ := hworker hn
  rw [Worker.fetched, Tables.eventsAfter_eq_nil hlimit] at hnone
  intro e he
  have hbelow := List.filter_eq_nil_iff.mp hnone e he
  rw [decide_eq_true_eq] at hbelow
  omega

/-- Once its node has read everything, a member is up to date exactly if what it held before is what
is shown, or an event that calls for another message was yet to be read then. -/
theorem Coherent.upToDate_iff (hc : Coherent profiles c₁)
    (hworkers : ∀ q ∈ profiles, q.worker.order = .oldestFirst ∧ 1 ≤ q.worker.limit)
    (hrun : Run (fun _ _ i => Meanwhile i) c₁ h c) (hcaught : Caught n h c)
    (hh : c₁.world.hears s = true) (hconcerns : c₁.world.Concerns k s)
    (hlast : LastShown s k c₁.world.deliveries p) (hs : s ∈ (c.world.node n).rooms.members k.room) :
    c.world.UpToDate s k ↔ c.world.store.live.Current (c₁.world.node n).cursor k p := by
  have horder : ∀ q ∈ profiles, q.worker.order = .oldestFirst := fun q hq => (hworkers q hq).1
  obtain ⟨x, hx, hidle, hlog⟩ := hcaught
  obtain ⟨h₁, h₂, hsplit, hrun₁, hk, -, hov, hx'⟩ := hrun.mem hx
  obtain ⟨hbefore, -⟩ := hc.run horder hrun₁
  have hworker (hn : n < x.before.world.nodes.length) := hworkers _ (worker_mem hbefore.profiles hn)
  rw [hx'] at hidle
  have hunspent := unspent_of_idle hbefore.steady hk hworker hov hidle
  unfold Tables.Unspent at hunspent
  rw [hlog] at hunspent
  refine (hc.follows horder hrun hh hconcerns hlast hunspent hs).upToDate_iff fun e he => ?_
  rw [← hlog] at he
  exact UInt64.le_trans (idle_pending hbefore.steady hk hworker hov hidle he) (hc.forward horder hrun hx)

end Cluster

end ConfigRegistry
