import ConfigRegistry.Proofs.Outcomes
import ConfigRegistry.Proofs.Rooms

/-!
# Whom a notification reaches

However the rooms of a node came about, everybody in a room is in it once
(`RoomIndex.Reachable.nodup_members`). A notification is therefore sent once to each
member: recording members have it when the step ends, whatever the others do, and
nobody else is sent anything (`Simulation.published`). It takes one read, and none if
nobody is in the room.
-/

namespace ConfigRegistry

open World (Passes)

/-! ## Who is in a room -/

namespace RoomIndex

variable {x : RoomIndex} {r : Room} {c : ConnectionId} {s : Session}

/-- What connections can make of the rooms of a node by registering, unregistering, joining and
leaving. -/
inductive Reachable : RoomIndex → Prop
  | empty : Reachable .empty
  | register {x : RoomIndex} (s : Session) (h : Reachable x) : Reachable (x.register s)
  | unregister {x : RoomIndex} (c : ConnectionId) (h : Reachable x) : Reachable (x.unregister c).2
  | join {x : RoomIndex} (r : Room) (c : ConnectionId) (h : Reachable x) : Reachable (x.join r c).2
  | leave {x : RoomIndex} (r : Room) (c : ConnectionId) (h : Reachable x) : Reachable (x.leave r c).2

/-- No connection is in a room twice. -/
def Distinct (x : RoomIndex) : Prop := ∀ r, (x.idsIn r).Nodup

theorem mem_rooms_of_mem_idsIn (hc : c ∈ x.idsIn r) : (r, x.idsIn r) ∈ x.rooms := by
  unfold idsIn at hc ⊢
  cases hf : Table.find? Prod.fst r x.rooms with
  | none => simp [hf] at hc
  | some m =>
    obtain ⟨hm, rfl⟩ := Table.find?_some hf
    exact hm

theorem idsIn_of_mem (h : x.Sound) {ids : List ConnectionId} (hm : (r, ids) ∈ x.rooms) :
    x.idsIn r = ids := by
  have hf := Table.find?_of_mem h.keyed hm
  unfold idsIn
  rw [hf]
  rfl

theorem distinct_join (h : x.Distinct) (r : Room) (c : ConnectionId) : (x.join r c).2.Distinct := by
  intro r'
  rw [idsIn_join]
  split
  · rename_i hnew
    refine List.nodup_append.mpr ⟨h r', List.pairwise_singleton _ c, ?_⟩
    rintro a ha b hb rfl
    exact hnew.2.2 (List.mem_singleton.mp hb ▸ ha)
  · exact h r'

theorem distinct_leave (h : x.Distinct) (r : Room) (c : ConnectionId) : (x.leave r c).2.Distinct := by
  intro r'
  unfold leave
  rw [idsIn_setIds]
  split
  · exact (h r).filter _
  · exact h r'

theorem distinct_unregister (hs : x.Sound) (h : x.Distinct) (c : ConnectionId) :
    (x.unregister c).2.Distinct := by
  intro r
  cases hids : (x.unregister c).2.idsIn r with
  | nil => exact List.nodup_nil
  | cons a rest =>
    have hin : a ∈ (x.unregister c).2.idsIn r := hids ▸ List.mem_cons_self
    obtain ⟨-, old, hold, heq⟩ := mem_unregister_rooms.mp (mem_rooms_of_mem_idsIn hin)
    rw [← hids, heq, ← idsIn_of_mem hs hold]
    exact (h r).filter _

theorem Reachable.sound (h : x.Reachable) : x.Sound := by
  induction h with
  | empty => exact empty_sound
  | register s _ ih => exact register_sound ih s
  | unregister c _ ih => exact unregister_sound ih c
  | join r c _ ih => exact join_sound ih r c
  | leave r c _ ih => exact leave_sound ih r c

theorem Reachable.distinct (h : x.Reachable) : x.Distinct := by
  induction h with
  | empty => exact fun _ => List.nodup_nil
  | register s _ ih => exact ih
  | unregister c h ih => exact distinct_unregister h.sound ih c
  | join r c _ ih => exact distinct_join ih r c
  | leave r c _ ih => exact distinct_leave ih r c

/-- The members of a room are told apart by their connections. -/
theorem Reachable.nodup_members (h : x.Reachable) (r : Room) : (x.members r).Nodup := by
  refine List.Pairwise.filterMap _ ?_ (h.distinct r)
  rintro c c' hne s hs s' hs' rfl
  exact hne ((Table.find?_some hs).2.symm.trans (Table.find?_some hs').2)

/-- Members are the sessions of the connections that are in the room. -/
theorem mem_members_iff : s ∈ x.members r ↔
    x.isMember r s.conn = true ∧ x.session? s.conn = some s := by
  unfold members isMember
  rw [List.mem_filterMap, List.contains_iff_mem]
  constructor
  · rintro ⟨c, hc, hs⟩
    obtain rfl := (Table.find?_some hs).2
    exact ⟨hc, hs⟩
  · rintro ⟨hc, hs⟩
    exact ⟨_, hc, hs⟩

/-- A room is without members when no connection is in it. -/
theorem members_eq_nil (h : x.Sound) : x.members r = [] ↔ ∀ c, x.isMember r c = false := by
  constructor
  · intro hnil c
    refine Bool.eq_false_iff.mpr fun hc => ?_
    have hin : c ∈ x.idsIn r := List.contains_iff_mem.mp hc
    obtain ⟨s, hs, rfl⟩ := isConnected_iff.mp (h.connected _ (mem_rooms_of_mem_idsIn hin) c hin)
    have hmem : s ∈ x.members r := mem_members_iff.mpr ⟨hc, Table.find?_of_mem h.sessions hs⟩
    rw [hnil] at hmem
    cases hmem
  · intro hnone
    refine List.eq_nil_iff_forall_not_mem.mpr fun s hs => ?_
    have hc := (mem_members_iff.mp hs).1
    rw [hnone] at hc
    cases hc

end RoomIndex

/-! ## Publishing -/

/-- Only a config can be absent. -/
theorem Tables.snapshot_eq_error {t : Tables} {k : Notification} {e : NotifyError} :
    t.snapshot k = .error e ↔
      ∃ m, k = .config m ∧ t.activeConfig m = none ∧ e = .noActiveConfig m := by
  cases k with
  | config m => cases h : t.activeConfig m <;> simp [Tables.snapshot, h, eq_comm]
  | backends m => simp [Tables.snapshot]
  | routing => simp [Tables.snapshot]

namespace Notification

variable {n : Nat} {w v : World} {l : Limits} {k : Notification}

theorem run_snapshot (hw : w.Responsive) : w.run n (snapshot l k).outcome =
    .finished w.served ((w.store.view .stale).snapshot k) := by
  cases k with
  | config m =>
    refine (Action.run_bind_ok (Action.run_call_ok hw rfl)).trans ?_
    simp only [Tables.snapshot]
    cases (w.store.view .stale).activeConfig m <;> rfl
  | backends m => exact Action.run_bind_ok (Action.run_call_ok hw rfl)
  | routing => exact Action.run_bind_ok (Action.run_call_ok hw rfl)

/-- A read of a store that cannot be reached is not counted. -/
theorem run_snapshot_unreachable (hf : w.faults = []) (ha : w.store.available = false) :
    w.run n (snapshot l k).outcome = .finished w (.error (.store .unreachable)) := by
  cases k with
  | config m => exact Action.run_bind_error (Action.run_call_unreachable hf ha)
  | backends m => exact Action.run_bind_error (Action.run_call_unreachable hf ha)
  | routing => exact Action.run_bind_error (Action.run_call_unreachable hf ha)

/-- A recording session is sent the state and joins the room. -/
theorem run_subscribe {s : Session} {payload : Bytes} (hw : w.Responsive) (hs : w.hears s = true)
    (hk : (w.store.view .stale).snapshot k = .ok payload) : w.run n (subscribe l s k).outcome =
      .finished ((w.served.accept s k.message payload).joined n k.room s.conn) (.ok ()) := by
  have hsnapshot := run_snapshot (n := n) (l := l) (k := k) hw
  rw [hk] at hsnapshot
  have hserved : w.served.hears s = true := hs
  unfold subscribe deliver
  rw [Action.run_bind_ok hsnapshot, Action.run_bind_ok (Action.run_emit hserved)]
  rfl

theorem run_publish_nobody (hm : (w.node n).rooms.members k.room = []) :
    w.run n (publish l k).outcome = .finished w (.ok ()) := by
  unfold publish
  refine (Action.run_bind_ok Action.run_members).trans ?_
  rw [hm]
  rfl

/-- What is published is read first, and nothing is sent if that fails. -/
theorem run_publish_failed {e : NotifyError} (hm : (w.node n).rooms.members k.room ≠ [])
    (hs : w.run n (snapshot l k).outcome = .finished v (.error e)) :
    w.run n (publish l k).outcome = .finished v (.error e) := by
  unfold publish
  refine (Action.run_bind_ok Action.run_members).trans ?_
  rw [if_neg fun h => hm (List.isEmpty_iff.mp h)]
  exact Action.run_bind_error hs

theorem run_publish {payload : Bytes} (hm : (w.node n).rooms.members k.room ≠ [])
    (hw : w.Responsive) (hk : (w.store.view .stale).snapshot k = .ok payload) :
    w.run n (publish l k).outcome = .finished (w.queued 1 (w.notices n l k)) (.ok ()) := by
  have hs := run_snapshot (n := n) (l := l) (k := k) hw
  rw [hk] at hs
  unfold publish
  refine (Action.run_bind_ok Action.run_members).trans ?_
  rw [if_neg fun h => hm (List.isEmpty_iff.mp h)]
  refine (Action.run_bind_ok hs).trans ?_
  simp only [World.notices, hk]
  rfl

end Notification

/-- What a worker publishes is queued for everybody in the room, after a read unless that is nobody. -/
theorem Worker.run_publish {n : Nat} {w : World} {l : Limits} {k : Notification} {payload : Bytes}
    (hw : w.Responsive) (hk : (w.store.view .stale).snapshot k = .ok payload) :
    let members := (w.node n).rooms.members k.room
    w.run n (publish l k) = .finished (w.queued (if members.isEmpty then 0 else 1)
      (members.map (⟨l.emit, ·, k.message, payload⟩))) true := by
  intro members
  have hpublished : w.run n (k.publish l).outcome = .finished (w.queued (if members.isEmpty then 0 else 1)
      (members.map (⟨l.emit, ·, k.message, payload⟩))) (.ok ()) := by
    by_cases hm : members = []
    · rw [hm, List.map_nil, List.isEmpty_nil, if_pos rfl, World.queued_none]
      exact Notification.run_publish_nobody hm
    · have hsome : ¬ members.isEmpty = true := mt List.isEmpty_iff.mp hm
      have hnotices : w.notices n l k = members.map (⟨l.emit, ·, k.message, payload⟩) := by
        simp only [World.notices, hk, members]
      rw [if_neg hsome, ← hnotices]
      exact Notification.run_publish hm hw hk
  unfold publish
  rw [World.run_bind', hpublished]
  rfl

/-! ## Sending -/

/-- A message of a notification, to somebody who is in its room. -/
structure Addressed (x : RoomIndex) (k : Notification) (payload : Bytes) (d : Delivery) : Prop where
  member : x.isMember k.room d.recipient.conn = true
  session : x.session? d.recipient.conn = some d.recipient
  event : d.event = k.message
  content : d.payload = payload

namespace Simulation

variable {underway : Delivery → Prop} {n : Nat} {s : Simulation} {w : World} {l : Limits}
  {k : Notification} {payload : Bytes}

/-- When nothing is due, settling sends the outbox and does no more. -/
theorem settle_of_later (hd : ∀ x ∈ s.sleepers, s.world.time < x.due) :
    s.settle = ⟨(sendAll s.world.outbox (emptied s.world)).1,
      s.sleepers ++ (sendAll s.world.outbox (emptied s.world)).2⟩ := by
  have hnone : s.sleepers.filter (fun x => decide (x.due ≤ s.world.time)) = [] :=
    List.filter_eq_nil_iff.mpr fun x hx => by simpa using hd x hx
  have hall : s.sleepers.filter (fun x => !decide (x.due ≤ s.world.time)) = s.sleepers :=
    List.filter_eq_self.mpr fun x hx => by simpa using hd x hx
  simp only [settle, hnone, hall, wakeAll, List.append_nil, emptied]

/-- A calm simulation has settled. -/
theorem Calm.settle_eq (hs : Calm underway s) : s.settle = s := by
  have hemptied : emptied s.world = s.world := by
    unfold emptied
    rw [← hs.outbox]
  rw [settle_of_later hs.due, hs.outbox, hemptied]
  simp [sendAll]

theorem perform_finished {α : Type} {p : Prog α} {x : α} (h : s.world.run n p = .finished w x) :
    s.perform n p = (settle { s with world := w }, .returned x) := by
  unfold perform
  rw [h]
  rfl

theorem Calm.advance (hs : Calm underway s) (ms : Nat) :
    Passes underway s.world (s.advance ms).1.world := by
  have hsettled : ∀ target, Passes underway s.world (s.waitUntil target).settle.world := by
    intro target
    obtain ⟨hpasses, hlate⟩ := waitUntil_passes target hs.outbox hs.late
    have hout : (s.waitUntil target).world.outbox = [] := by
      obtain ⟨t, ps, ds, hw, -⟩ := hpasses
      rw [hw]
      exact hs.outbox
    obtain ⟨hsettles, -⟩ := settle_calm hlate (by simp [hout, Announced])
    exact hpasses.trans (hsettles.passes hout)
  unfold Simulation.advance
  split
  · exact hsettled _
  · exact hsettled _

/-- What became of a payload that was sent to a room: one read was made, every recording member has
the message once, and whatever else arrives, now or later, goes to members as well, or was under
way before. -/
structure Reached (underway : Delivery → Prop) (n : Nat) (k : Notification) (payload : Bytes)
    (s v : Simulation) : Prop where
  arrived : ∃ peers new,
    v.world = { s.world.served with peers := peers, deliveries := new ++ s.world.deliveries } ∧
    peers.map Peer.face = s.world.peers.map Peer.face ∧
    (∀ d ∈ new, Addressed (s.world.node n).rooms k payload d) ∧
    ∀ m, (s.world.node n).rooms.isMember k.room m.conn = true →
      (s.world.node n).rooms.session? m.conn = some m → s.world.hears m = true →
      new.filter (·.recipient = m) = [⟨m, k.message, payload⟩]
  later : ∀ ms, ∃ late, (v.advance ms).1.world.deliveries = late ++ v.world.deliveries ∧
    ∀ d ∈ late, s.world.hears d.recipient = false ∧
      (underway d ∨ Addressed (s.world.node n).rooms k payload d)

/-- What comes of publishing a notification, by who is in its room and what the store shows. -/
inductive Published (underway : Delivery → Prop) (n : Nat) (k : Notification) (s : Simulation) :
    Simulation × Finish (Except NotifyError Unit) → Prop
  | nobody (h : ∀ c, (s.world.node n).rooms.isMember k.room c = false) :
      Published underway n k s (s, .returned (.ok ()))
  | unreachable {c : ConnectionId} (h : (s.world.node n).rooms.isMember k.room c = true)
      (ha : s.world.store.available = false) :
      Published underway n k s (s, .returned (.error (.store .unreachable)))
  | absent {c : ConnectionId} (h : (s.world.node n).rooms.isMember k.room c = true)
      (ha : s.world.store.available = true) {m : ModuleId} (hk : k = .config m)
      (hm : (s.world.store.view .stale).activeConfig m = none) :
      Published underway n k s
        ({ s with world := s.world.served }, .returned (.error (.noActiveConfig m)))
  | reached {c : ConnectionId} (h : (s.world.node n).rooms.isMember k.room c = true)
      (ha : s.world.store.available = true) {content : Bytes}
      (hk : (s.world.store.view .stale).snapshot k = .ok content) {v : Simulation}
      (hv : Reached underway n k content s v) : Published underway n k s (v, .returned (.ok ()))

theorem addressed_iff {x : RoomIndex} {d : Delivery} : Addressed x k payload d ↔
    d ∈ (x.members k.room).map (⟨·, k.message, payload⟩) := by
  rw [List.mem_map]
  constructor
  · obtain ⟨m, event, content⟩ := d
    rintro ⟨hmember, hsession, hevent, hcontent⟩
    obtain rfl : event = k.message := hevent
    obtain rfl : content = payload := hcontent
    exact ⟨m, RoomIndex.mem_members_iff.mpr ⟨hmember, hsession⟩, rfl⟩
  · rintro ⟨m, hm, rfl⟩
    obtain ⟨hmember, hsession⟩ := RoomIndex.mem_members_iff.mp hm
    exact ⟨hmember, hsession, rfl, rfl⟩

theorem map_delivery_notices (hk : (w.store.view .stale).snapshot k = .ok payload) :
    (w.notices n l k).map Notice.delivery =
      ((w.node n).rooms.members k.room).map (⟨·, k.message, payload⟩) := by
  simp only [World.notices, hk, List.map_map]
  rfl

/-- Of the messages to the members of a room one is for each of them. -/
theorem filter_recipient {x : RoomIndex} (hx : x.Reachable) {m : Session}
    (hm : m ∈ x.members k.room) :
    ((x.members k.room).map fun a => (⟨a, k.message, payload⟩ : Delivery)).filter
      (·.recipient = m) = [⟨m, k.message, payload⟩] := by
  have hpairwise : ((x.members k.room).map fun a => (⟨a, k.message, payload⟩ : Delivery)).Pairwise
      (Delivery.recipient · ≠ Delivery.recipient ·) := List.pairwise_map.mpr (hx.nodup_members _)
  exact Table.filter_key hpairwise (List.mem_map.mpr ⟨m, hm, rfl⟩)

/-- The messages to a recording session are among those that arrive at once. -/
theorem filter_heard {m : Session} (hm : w.hears m = true) (ds : List Delivery) :
    (ds.filter fun d => w.hears d.recipient).filter (·.recipient = m) =
      ds.filter (·.recipient = m) := by
  rw [List.filter_filter]
  refine List.filter_congr fun d _ => ?_
  by_cases hd : d.recipient = m
  · simp [hd, hm]
  · simp [hd]

/-- What is sent to a room reaches its members. -/
theorem reached_settle (hs : Calm underway s) (hx : (s.world.node n).rooms.Reachable)
    (hk : (s.world.store.view .stale).snapshot k = .ok payload) :
    Reached underway n k payload s
      (settle { s with world := s.world.queued 1 (s.world.notices n l k) }) := by
  let x := (s.world.node n).rooms
  let s' : Simulation := { s with world := s.world.queued 1 (s.world.notices n l k) }
  let late := fun d => underway d ∨ Addressed x k payload d
  have hemptied : emptied s'.world = s.world.served := by
    simp only [s', emptied, World.queued, World.served]
    rw [← hs.outbox]
  have hout : s'.world.outbox = s.world.notices n l k := by
    simp only [s', World.queued, hs.outbox, List.nil_append]
  have hmessages := map_delivery_notices (n := n) (l := l) hk
  have hannounced : Announced late s'.world s'.world.outbox := by
    rw [hout]
    intro m hm _
    refine .inr (addressed_iff.mpr ?_)
    rw [← hmessages]
    exact List.mem_map_of_mem hm
  have hlate : OnlyLate late s'.world s'.sleepers :=
    fun a ha => (hs.late a ha).mono fun _ _ hd => .inl hd
  obtain ⟨-, hcalm, -⟩ := settle_calm hlate hannounced
  have hsettle : s'.settle.world = (sendAll (s.world.notices n l k) s.world.served).1 := by
    rw [settle_of_later (s := s') hs.due, hout, hemptied]
  have hsent : Sent late (s.world.notices n l k) s.world.served _ :=
    sendAll_sent (hout ▸ hannounced)
  obtain ⟨⟨peers, new, hworld, hfaces, hheard, hnew⟩, -, -⟩ := hsent
  constructor
  · refine ⟨peers, new, hsettle.trans hworld, hfaces, ?_, ?_⟩
    · intro d hd
      refine addressed_iff.mpr ?_
      rw [← hmessages]
      exact hnew d hd
    · intro m hmember hsession hears
      have hall : (((s.world.notices n l k).map Notice.delivery).filter
          fun d => s.world.hears d.recipient).filter (·.recipient = m) =
            [⟨m, k.message, payload⟩] := by
        rw [filter_heard hears, hmessages]
        exact filter_recipient hx (RoomIndex.mem_members_iff.mpr ⟨hmember, hsession⟩)
      have hsame : (new.filter fun d => s.world.hears d.recipient) =
          (((s.world.notices n l k).map Notice.delivery).filter
            fun d => s.world.hears d.recipient).reverse := hheard
      rw [← filter_heard hears, hsame, List.filter_reverse, hall]
      rfl
  · intro ms
    obtain ⟨t, ps, ds, hadvanced, -, hlater⟩ := hcalm.advance ms
    refine ⟨ds, by rw [hadvanced], fun d hd => ?_⟩
    obtain ⟨hdeaf, hunder⟩ := hlater d hd
    rw [hsettle, hworld] at hdeaf
    exact ⟨(World.hears_of_faces hfaces _).symm.trans hdeaf, hunder⟩

theorem publish_reaches (hs : Calm underway s) (hw : s.world.Responsive)
    (hx : (s.world.node n).rooms.Reachable) (hm : (s.world.node n).rooms.members k.room ≠ [])
    (hk : (s.world.store.view .stale).snapshot k = .ok payload) :
    ∃ v, s.perform n (Notification.publish l k).outcome = (v, .returned (.ok ())) ∧
      Reached underway n k payload s v :=
  ⟨_, perform_finished (Notification.run_publish hm hw hk), reached_settle hs hx hk⟩

/-- A notification is published to whoever is in its room, however the rooms came about, whatever the
store holds and however the peers behave: without members nothing is read and nothing is sent. -/
theorem published (hs : Calm underway s) (hf : s.world.faults = [])
    (hx : (s.world.node n).rooms.Reachable) (l : Limits) (k : Notification) :
    Published underway n k s (s.perform n (Notification.publish l k).outcome) := by
  have hperform : ∀ {w r}, s.world.run n (Notification.publish l k).outcome = .finished w r →
      s.perform n (Notification.publish l k).outcome = (settle { s with world := w }, .returned r) :=
    perform_finished
  by_cases hm : (s.world.node n).rooms.members k.room = []
  · rw [hperform (Notification.run_publish_nobody hm), hs.settle_eq]
    exact .nobody ((RoomIndex.members_eq_nil hx.sound).mp hm)
  · obtain ⟨c, hc⟩ : ∃ c, (s.world.node n).rooms.isMember k.room c = true := by
      simpa using mt (RoomIndex.members_eq_nil hx.sound).mpr hm
    cases ha : s.world.store.available with
    | false =>
      have hsnapshot := Notification.run_snapshot_unreachable (n := n) (l := l) (k := k) hf ha
      rw [hperform (Notification.run_publish_failed hm hsnapshot), hs.settle_eq]
      exact .unreachable hc ha
    | true =>
      have hsnapshot := Notification.run_snapshot (n := n) (l := l) (k := k) ⟨hf, ha⟩
      cases hk : (s.world.store.view .stale).snapshot k with
      | error e =>
        rw [hk] at hsnapshot
        have hserved : Calm underway { s with world := s.world.served } := ⟨hs.outbox, hs.late, hs.due⟩
        rw [hperform (Notification.run_publish_failed hm hsnapshot), hserved.settle_eq]
        obtain ⟨m, rfl, hnone, rfl⟩ := Tables.snapshot_eq_error.mp hk
        exact .absent hc ha rfl hnone
      | ok payload =>
        obtain ⟨v, hv, hreached⟩ := publish_reaches (l := l) hs ⟨hf, ha⟩ hx hm hk
        rw [hv]
        exact .reached hc ha hk hreached

/-- Four sessions were in the room of a module's config: one records, one is closed, one hangs, and
one that records has left. -/
def crowded : Simulation :=
  let sessions : List Session := [⟨0, ⟨"c1"⟩⟩, ⟨1, ⟨"c2"⟩⟩, ⟨2, ⟨"c3"⟩⟩, ⟨3, ⟨"c4"⟩⟩]
  let room := Room.configChanging default
  let registered := sessions.foldl (fun x s => x.register s) RoomIndex.empty
  let joined := sessions.foldl (fun x s => (x.join room s.conn).2) registered
  let peer : ConnectionId → Behaviour → Peer := fun c b => ⟨c, b, default, 0⟩
  { world := { World.initial default with
      store := { (World.initial default).store with
        live := { Tables.empty with
          configs := [{ (default : Config) with data := Bytes.ofText "1", active := true }] } }
      nodes := [{ (default : NodeState) with rooms := (joined.leave room ⟨"c4"⟩).2 }]
      peers := [peer ⟨"c1"⟩ .record, peer ⟨"c2"⟩ .closed, peer ⟨"c3"⟩ .hang, peer ⟨"c4"⟩ .record] }
    sleepers := [] }

/-- The one that records and is still in the room has the message once, also when the one that hangs
was given up. -/
theorem published_in_crowd :
    let s := crowded
    let k := Notification.config default
    let r := s.perform 0 (Notification.publish ⟨2000, 2000⟩ k).outcome
    r.1.world.store.reads = 1 ∧
      r.1.world.deliveries = [⟨⟨0, ⟨"c1"⟩⟩, Notification.configMessage, Bytes.ofText "1"⟩] ∧
      (r.1.advance 5000).1.world.deliveries = r.1.world.deliveries ∧
      Published (fun _ => False) 0 k s r := by
  intro s k r
  have hsent : r.1.world.store.reads = 1 ∧
      r.1.world.deliveries = [⟨⟨0, ⟨"c1"⟩⟩, Notification.configMessage, Bytes.ofText "1"⟩] ∧
      (r.1.advance 5000).1.world.deliveries = r.1.world.deliveries := by
    decide +kernel
  have hcalm : Calm (fun _ => False) s := ⟨rfl, nofun, nofun⟩
  have hrooms : (s.world.node 0).rooms.Reachable :=
    .leave _ _ (.join _ _ (.join _ _ (.join _ _ (.join _ _ (.register _ (.register _ (.register _
      (.register _ .empty))))))))
  exact ⟨hsent.1, hsent.2.1, hsent.2.2, published hcalm rfl hrooms _ _⟩

end Simulation

end ConfigRegistry
