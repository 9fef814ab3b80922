import ConfigRegistry.Proofs.OwnConfigs

/-!
# Baselines before membership

A session joins a room in one way only: it subscribes, is sent the current state, and the
message arrives (`World.Seated`). It then stays in the room for as long as it is registered.
So whoever is in a room was sent a baseline by the call that let it in, before any poll sent
it what became of the room's state (`Cluster.baseline_before_membership`).
-/

namespace ConfigRegistry

open World (Aside Settles)

/-! ## Sessions that stay themselves -/

namespace Presence

variable {p p' : Presence} {i : Cluster.Input} {o : Option i.Reply} {k n : Nat} {s : Session}
  {id : ConnectionId} {b' : Behaviour} {ctx : SessionContext} {b : Option Backend}

/-- A peer that accepts every message, refuses every one, or never answers. -/
def Steadfast (b : Behaviour) : Prop := b = .record ∨ b = .closed ∨ b = .hang

/-- No two sessions of a node have one connection id, and peers do not change their minds. -/
structure Unshared (p : Presence) : Prop where
  homes : p.homes.length = p.faces.length
  conns : ∀ j k, j < p.faces.length → k < p.faces.length → p.home j = p.home k →
    p.conn j = p.conn k → j = k
  peers : ∀ k, Steadfast (p.behaviour k)

/-- A session that connects has an id that none of its node had before. -/
def Unused (p : Presence) : Cluster.Input → Prop
  | .connect n id b _ =>
    Steadfast b ∧ ∀ k, k < p.faces.length → p.home k = n → p.conn k ≠ id
  | _ => True

theorem Unshared.opened (h : p.Unshared) (hb : Steadfast b')
    (hid : ∀ k, k < p.faces.length → p.home k = n → p.conn k ≠ id) :
    (p.opened n id b' ctx).Unshared where
  homes := by simp [Presence.opened, h.homes]
  conns := by
    intro j k hj hk hhome hconn
    rw [faces_opened] at hj hk
    rw [home_opened _ _ _ _ _ _ h.homes, home_opened _ _ _ _ _ _ h.homes] at hhome
    rw [conn_opened, conn_opened] at hconn
    by_cases hjn : j = p.faces.length <;> by_cases hkn : k = p.faces.length
    · omega
    · rw [if_pos hjn, if_neg hkn] at hhome hconn
      exact absurd hconn.symm (hid k (by omega) hhome.symm)
    · rw [if_neg hjn, if_pos hkn] at hhome hconn
      exact absurd hconn (hid j (by omega) hhome)
    · rw [if_neg hjn, if_neg hkn] at hhome hconn
      exact h.conns j k (by omega) (by omega) hhome hconn
  peers := by
    intro k
    rw [behaviour_opened]
    split
    · exact hb
    · exact h.peers k

theorem Unshared.holding (h : p.Unshared) : (p.holding k b).Unshared where
  homes := by simp [Presence.holding, h.homes]
  conns := by
    intro i j hi hj hhome hconn
    rw [faces_holding] at hi hj
    rw [conn_holding, conn_holding] at hconn
    exact h.conns i j hi hj hhome hconn
  peers := by
    intro j
    rw [behaviour_holding]
    exact h.peers j

theorem Unshared.step (h : p.Unshared) (hi : p.Unused i) (hs : Step p i o p') : p'.Unshared := by
  have hrows : ∀ {q : Presence} {rows : List Backend}, q.Unshared →
      Unshared { q with rows := rows } := fun hq => ⟨hq.homes, hq.conns, hq.peers⟩
  have hplaces : ∀ {q : Presence} {n f}, q.Unshared → (q.atNode n f).Unshared :=
    fun hq => ⟨hq.homes, hq.conns, hq.peers⟩
  cases hs with
  | keeps _ => exact h
  | switches b _ => exact ⟨h.homes, h.conns, h.peers⟩
  | refused _ => exact h.opened hi.1 hi.2
  | connects _ => exact hplaces (h.opened hi.1 hi.2)
  | unready _ => exact h
  | readies _ _ _ _ => exact hrows h.holding
  | leaves _ => exact hrows (hplaces h.holding)
  | unswept _ => exact h
  | sweeps _ => exact hrows h
  | stays _ => exact h
  | departs _ => exact hrows h

theorem Unshared.not_replaced (h : p.Unshared) (k : Nat) : ¬ p.Replaced k := by
  rintro ⟨j, hkj, hj, hhome, hconn⟩
  have hsame := h.conns j k hj (Nat.lt_trans hkj hj) hhome hconn
  omega

theorem Unshared.succeeds {gone : Nat → Prop} (h : p.Unshared) (hi : p.Unused i)
    (hm : Cluster.Managed i) : p.Succeeds gone i := by
  cases i with
  | connect n id behaviour name => exact fun k hk hhome hconn => absurd hconn (hi.2 k hk hhome)
  | configSchema k d => exact h.not_replaced k
  | call call => exact hm call rfl
  | _ => trivial

end Presence

/-! ## Subscribing -/

namespace World

variable {underway : Delivery → Prop} {shows : Notification → Bytes → Prop} {w v v' : World}
  {s s' : Session} {n i : Nat} {ks : List Notification} {k : Notification} {p : Bytes} {r : Room}

/-- A node with registered sessions exists. -/
theorem lt_of_registered (hs : s ∈ (w.node n).rooms.sessions) : n < w.nodes.length := by
  refine Nat.lt_of_not_le fun hle => ?_
  unfold node at hs
  rw [List.getElem?_eq_none hle] at hs
  cases hs

theorem rooms_joined (hn : n < w.nodes.length) (r : Room) (c : ConnectionId) :
    ((w.joined n r c).node i).rooms =
      if i = n then ((w.node n).rooms.join r c).2 else (w.node i).rooms := by
  unfold joined setRooms
  by_cases hi : i = n
  · rw [if_pos hi, hi, node_modifyNode w n _ hn]
  · rw [if_neg hi, node_modifyNode_ne w n _ hi]

theorem rooms_joined_cases (n i : Nat) (r : Room) (c : ConnectionId) :
    ((w.joined n r c).node i).rooms = (w.node i).rooms ∨
      i = n ∧ ((w.joined n r c).node i).rooms = ((w.node i).rooms.join r c).2 := by
  rcases node_setRooms n i ((w.node n).rooms.join r c).2 w with hi | ⟨rfl, hi⟩
  · exact .inl (congrArg NodeState.rooms hi)
  · exact .inr ⟨rfl, congrArg NodeState.rooms hi⟩

/-- What comes of a session that subscribes to notifications one after the other: it was sent what
`shows` says and joined the rooms, and everybody else is where they were. -/
structure Seated (n : Nat) (s : Session) (shows : Notification → Bytes → Prop) (w : World)
    (ks : List Notification) (v : World) : Prop where
  nodes : v.nodes.length = w.nodes.length
  sessions : ∀ i, (v.node i).rooms.sessions = (w.node i).rooms.sessions
  faces : v.peers.map Peer.face = w.peers.map Peer.face
  sent : ∃ new, v.deliveries = new ++ w.deliveries ∧
    ∀ k ∈ ks, ∃ p, shows k p ∧ ⟨s, k.message, p⟩ ∈ new
  hears : ks ≠ [] → w.deaf s = false
  stays : ∀ i r, ∀ s' ∈ (w.node i).rooms.members r, s' ∈ (v.node i).rooms.members r
  joined : s ∈ (w.node n).rooms.sessions → ∀ k ∈ ks, s ∈ (v.node n).rooms.members k.room
  seats : ∀ i r, ∀ s' ∈ (v.node i).rooms.members r, s' ∈ (w.node i).rooms.members r ∨
    i = n ∧ s'.conn = s.conn ∧ ∃ k ∈ ks, r = k.room

/-- What leaves nodes and peers alone and adds to the messages. -/
theorem Seated.delivers (h : w.Seated n s shows ks v) (new : List Delivery) (hn : v'.nodes = v.nodes)
    (hf : v'.peers.map Peer.face = v.peers.map Peer.face) (hd : v'.deliveries = new ++ v.deliveries) :
    w.Seated n s shows ks v' := by
  have hnode : ∀ i, v'.node i = v.node i := by
    intro i
    unfold node
    rw [hn]
  refine ⟨hn ▸ h.nodes, fun i => ?_, hf.trans h.faces, ?_, h.hears, fun i => ?_, ?_, fun i => ?_⟩
  · rw [hnode]
    exact h.sessions i
  · obtain ⟨old, hold, hsent⟩ := h.sent
    refine ⟨new ++ old, by rw [hd, hold, List.append_assoc], fun k hk => ?_⟩
    obtain ⟨p, hp, hmem⟩ := hsent k hk
    exact ⟨p, hp, List.mem_append_right _ hmem⟩
  · rw [hnode]
    exact h.stays i
  · rw [hnode]
    exact h.joined
  · rw [hnode]
    exact h.seats i

theorem Seated.start (hn : v.nodes = w.nodes) (hf : v.peers.map Peer.face = w.peers.map Peer.face)
    {new : List Delivery} (hd : v.deliveries = new ++ w.deliveries) : w.Seated n s shows [] v := by
  have hself : w.Seated n s shows [] w :=
    ⟨rfl, fun _ => rfl, rfl, ⟨[], rfl, by simp⟩, by simp, fun _ _ _ => id, by simp, fun _ _ _ => .inl⟩
  exact hself.delivers new hn hf hd

theorem Seated.aside {u : Session} (h : w.Seated n s shows ks v) (ha : Aside underway u v v') :
    w.Seated n s shows ks v' := by
  obtain ⟨t, r, i, q, ps, ds, rfl, -, -, hf, -⟩ := ha
  exact h.delivers ds rfl hf rfl

theorem Seated.joins (h : w.Seated n s shows ks v) (hsound : v.Sound) (hp : shows k p)
    (hd : v.deaf s = false) :
    w.Seated n s shows (ks ++ [k]) ((v.accept s k.message p).joined n k.room s.conn) where
  nodes := (nodes_modifyNode_length _ _ _).trans h.nodes
  sessions i := by
    rw [← h.sessions i]
    rcases rooms_joined_cases (w := v.accept s k.message p) n i k.room s.conn with hi | ⟨-, hi⟩ <;> rw [hi]
    · rfl
    · exact RoomIndex.join_sessions ..
  faces := (faces_modify_accepted _ _ _).trans h.faces
  sent := by
    obtain ⟨new, hnew, hsent⟩ := h.sent
    refine ⟨⟨s, k.message, p⟩ :: new, congrArg _ hnew, fun k' hk' => ?_⟩
    rcases List.mem_append.mp hk' with hk' | hk'
    · obtain ⟨p', hp', hmem⟩ := hsent k' hk'
      exact ⟨p', hp', List.mem_cons_of_mem _ hmem⟩
    · obtain rfl := List.mem_singleton.mp hk'
      exact ⟨p, hp, List.mem_cons_self⟩
  hears _ := (deaf_of_faces h.faces s).symm.trans hd
  stays i r s' hs' := by
    have hv := h.stays i r s' hs'
    rcases rooms_joined_cases (w := v.accept s k.message p) n i k.room s.conn with hi | ⟨-, hi⟩ <;> rw [hi]
    · exact hv
    · exact RoomIndex.members_join_of (hsound i) hv
  joined hs k' hk' := by
    have hn : n < v.nodes.length := h.nodes ▸ lt_of_registered hs
    have hroom := rooms_joined (w := v.accept s k.message p) (i := n) hn k.room s.conn
    rw [if_pos rfl] at hroom
    rw [hroom]
    rcases List.mem_append.mp hk' with hk' | hk'
    · exact RoomIndex.members_join_of (hsound n) (h.joined hs k' hk')
    · obtain rfl := List.mem_singleton.mp hk'
      exact RoomIndex.members_join_self (hsound n) (h.sessions n ▸ hs)
  seats i r s' hs' := by
    have hold : s' ∈ (v.node i).rooms.members r → s' ∈ (w.node i).rooms.members r ∨
        i = n ∧ s'.conn = s.conn ∧ ∃ k' ∈ ks ++ [k], r = k'.room := by
      refine fun hs' => (h.seats i r s' hs').imp_right ?_
      rintro ⟨hi, hconn, k', hk', hr⟩
      exact ⟨hi, hconn, k', List.mem_append_left _ hk', hr⟩
    rcases rooms_joined_cases (w := v.accept s k.message p) n i k.room s.conn with hi | ⟨hn, hi⟩
    · exact hold (hi ▸ hs')
    · rw [hi] at hs'
      rcases RoomIndex.members_join (hsound i) hs' with hs' | ⟨hr, hconn, -⟩
      · exact hold hs'
      · exact .inr ⟨hn, hconn, k, List.mem_append_right _ (List.mem_singleton_self k), hr⟩

end World

namespace Lifecycle

variable {underway : Delivery → Prop} {w v : World} {s : Session} {n : Nat} {ks : List Notification}

/-- A session that declares requirements is sent what late reads see as it does. -/
theorem Subscribing.seated (hsound : w.Sound) (h : Subscribing n underway s w ks v) :
    w.Seated n s (fun k p => (w.store.view .stale).snapshot k = .ok p) ks v ∧
      v.store.view .stale = w.store.view .stale := by
  induction h with
  | start => exact ⟨.start rfl rfl (List.nil_append _).symm, rfl⟩
  | aside _ ha ih =>
    obtain ⟨hseated, hview⟩ := ih
    refine ⟨hseated.aside ha, Eq.trans ?_ hview⟩
    unfold Store.view
    rw [ha.live, ha.frozen]
  | joins hsub hk hd ih =>
    obtain ⟨hseated, hview⟩ := ih
    rw [hview] at hk
    exact ⟨hseated.joins (Cluster.sound_subscribing hsound hsub) hk hd, hview⟩

/-- A session that declares a schema is sent the config that is active from then on, or nothing. -/
theorem Declared.seated {d : ConfigSchemaDeclaration} {o : Option (Except LifecycleError Unit)}
    (hsound : w.Sound) (h : Declared n underway s d w o v) :
    ∃ ks, (∀ k ∈ ks, ∃ m, (w.peer s).context.moduleId = some m ∧ k = .config m) ∧
      w.Seated n s (fun k p => v.store.live.snapshot k = .ok p) ks v := by
  have hwrite : ∀ {t u shows}, Aside underway s (w.write t) u → w.Seated n s shows [] u := by
    intro t u shows ha
    have hstart : w.Seated n s shows [] (w.write t) := .start rfl rfl (List.nil_append _).symm
    exact hstart.aside ha
  cases h with
  | refused ha _ =>
    have hstart : w.Seated n s (fun k p => v.store.live.snapshot k = .ok p) [] w :=
      .start rfl rfl (List.nil_append _).symm
    exact ⟨[], nofun, hstart.aside ha⟩
  | invalid _ _ _ ha _ => exact ⟨[], nofun, hwrite ha⟩
  | missed _ _ _ _ ha _ => exact ⟨[], nofun, hwrite ha⟩
  | @joins m now cf t u hm _ hc ha hd =>
    have hactive := Cluster.offering_active hc
    obtain rfl : cf.moduleId = m := (Tables.activeConfig_some hactive).2.1
    refine ⟨[.config cf.moduleId], fun k hk => ⟨_, hm, List.mem_singleton.mp hk⟩, ?_⟩
    have hsound' : u.Sound := (hsound.of_nodes (v := w.write t) rfl).aside ha
    have hdeaf : u.deaf s = false := (World.deaf_of_faces (w := w) ha.faces s).trans hd
    have hshown : u.store.live.snapshot (.config cf.moduleId) = .ok cf.data := by
      rw [ha.live]
      exact Tables.snapshot_config_ok.mpr ⟨cf, hactive, rfl⟩
    exact World.Seated.joins (hwrite ha) hsound' hshown hdeaf

end Lifecycle

/-! ## Steps -/

theorem RoomIndex.registered_of_member {x : RoomIndex} {r : Room} {s : Session}
    (hs : s ∈ x.members r) : s ∈ x.sessions := by
  obtain ⟨c, -, hfind⟩ := List.mem_filterMap.mp hs
  exact (Table.find?_some hfind).1

theorem World.presence_behaviour {w : World} {l : List Nat} (s : Session) :
    (w.presence l).behaviour s.serial = (w.peer s).behaviour := by
  unfold Presence.behaviour World.presence World.peer
  simp only [List.getElem?_map]
  cases w.peers[s.serial]? <;> rfl

namespace Cluster

variable {underway : Delivery → Prop} {c : Cluster} {i : Input} {o : Option i.Reply} {w v : World}
  {gone : Nat → Prop} {ns : List String} {k : Notification} {n : Nat}

/-- An input is a call by which a session subscribes to a notification: it names what the session
requires, or declares the schema of the session's module. -/
def Subscribes (c : Cluster) (j : Nat) (k : Notification) : Input → Prop
  | .requirements j' r => j' = j ∧ k ∈ Lifecycle.wanted r
  | .configSchema j' _ =>
    j' = j ∧ ∃ m, (c.world.peer (c.session j)).context.moduleId = some m ∧ k = .config m
  | _ => False

/-- What a subscriber is sent: the config that is active once the step is over, and of the rest what
late reads see as it is taken. -/
def Shown (w v : World) : Notification → Bytes → Prop
  | .config m, p => v.store.live.snapshot (.config m) = .ok p
  | k, p => (w.store.view .stale).snapshot k = .ok p

/-- A step lets a session into the room of a notification: the session subscribes, it is registered
and takes messages, and the current state arrives. -/
structure LetsIn (c : Cluster) (i : Input) (w : World) (n : Nat) (s : Session) (k : Notification) :
    Prop where
  subscribes : ∃ j, s = c.session j ∧ n = c.home j ∧ c.Subscribes j k i
  registered : s ∈ (c.world.node n).rooms.sessions
  hears : c.world.deaf s = false
  sent : ∃ new p, w.deliveries = new ++ c.world.deliveries ∧ Shown c.world w k p ∧
    ⟨s, k.message, p⟩ ∈ new

/-- What a step does to the members of rooms: who stays registered stays a member, and nobody becomes
one but by being let in. -/
structure Moved (c : Cluster) (i : Input) (w : World) : Prop where
  stays : ∀ n r, ∀ s ∈ (c.world.node n).rooms.members r, s ∈ (w.node n).rooms.sessions →
    s ∈ (w.node n).rooms.members r
  lets : ∀ n k, ∀ s ∈ (w.node n).rooms.members (Notification.room k),
    s ∈ (c.world.node n).rooms.members k.room ∨ c.LetsIn i w n s k

theorem Moved.of_rooms (h : ∀ n, (w.node n).rooms = (c.world.node n).rooms) : c.Moved i w where
  stays := by
    intro n r s hs _
    rw [h]
    exact hs
  lets := by
    intro n k s hs
    rw [h] at hs
    exact .inl hs

theorem Moved.of_nodes (h : w.nodes = c.world.nodes) : c.Moved i w := by
  refine .of_rooms fun n => ?_
  unfold World.node
  rw [h]

/-- The messages of broadcasts are sent when everybody is in place. -/
theorem Moved.settles (h : c.Moved i w) (hs : Settles underway w v) : c.Moved i v := by
  obtain ⟨t, ps, ds, rfl, -⟩ := hs
  refine ⟨h.stays, fun n k s hmem => (h.lets n k s hmem).imp_right fun hlets => ?_⟩
  obtain ⟨new, p, hnew, hp, hsent⟩ := hlets.sent
  refine ⟨hlets.subscribes, hlets.registered, hlets.hears, ds ++ new, p, ?_, ?_, ?_⟩
  · exact (congrArg (ds ++ ·) hnew).trans (List.append_assoc ..).symm
  · cases k <;> exact hp
  · exact List.mem_append_right _ hsent

/-- Who is registered under the id of a session is that session. -/
theorem session_unshared (hp : c.presence.Successive gone ns) (hu : c.presence.Unshared) {j : Nat}
    {s : Session} (hs : s ∈ (c.world.node (c.home j)).rooms.sessions) (hj : j < c.world.peers.length)
    (hc : s.conn = (c.session j).conn) : s = c.session j := by
  have hlt : j < c.presence.faces.length := presence_faces ▸ hj
  have hregistered : s ∈ c.presence.registered (c.presence.home j) :=
    World.presence_registered (c.home j) ▸ hs
  rw [← presence_session]
  exact hp.eq_session hregistered hlt (hu.not_replaced j) (hc.trans (presence_conn j).symm)

theorem moved_seated (hp : c.presence.Successive gone ns) (hu : c.presence.Unshared) {j : Nat}
    (hj : j < c.world.peers.length) {shows : Notification → Bytes → Prop} {ks : List Notification}
    (h : c.world.Seated (c.home j) (c.session j) shows ks w)
    (hks : ∀ k ∈ ks, c.Subscribes j k i ∧ ∀ p, shows k p → Shown c.world w k p) : c.Moved i w := by
  refine ⟨fun n r s hs _ => h.stays n r s hs, fun n k s hs => ?_⟩
  rcases h.seats n _ s hs with hold | ⟨rfl, hconn, k', hk', hroom⟩
  · exact .inl hold
  · obtain rfl := Notification.room_injective hroom
    have hregistered : s ∈ (c.world.node (c.home j)).rooms.sessions :=
      h.sessions _ ▸ RoomIndex.registered_of_member hs
    obtain rfl := session_unshared hp hu hregistered hj hconn
    obtain ⟨new, hnew, hsent⟩ := h.sent
    obtain ⟨p, hshows, hmem⟩ := hsent k hk'
    obtain ⟨hsubscribes, hshown⟩ := hks k hk'
    exact .inr ⟨⟨j, rfl, rfl, hsubscribes⟩, hregistered, h.hears (List.ne_nil_of_mem hk'), new, p,
      hnew, hshown p hshows, hmem⟩

theorem moved_connected (hsound : c.world.Sound) (hp : c.presence.Successive gone ns)
    {id : ConnectionId} {behaviour : Behaviour} {name : String}
    (hi : c.presence.Succeeds gone (.connect n id behaviour name)) :
    c.Moved i (Lifecycle.connected n ⟨c.world.peers.length, id⟩ (Text.trimmed name)
      (c.opened n id behaviour).world) := by
  have hnew : ∀ s ∈ (c.world.node n).rooms.sessions, s.conn ≠ id := by
    intro s hs
    exact hp.unregistered hi (World.presence_registered n ▸ hs)
  have hidle : (c.world.node n).rooms.isConnected id = false := by
    refine Bool.eq_false_iff.mpr fun hconn => ?_
    obtain ⟨s, hs, hid⟩ := RoomIndex.isConnected_iff.mp hconn
    exact hnew s hs hid
  refine ⟨fun m r s hs hsession => ?_, fun m k s hs => .inl ?_⟩
  · rcases World.node_setRooms n m (RoomIndex.register ⟨c.world.peers.length, id⟩
      (c.world.node n).rooms) (c.opened n id behaviour).world with hm | ⟨rfl, hm⟩
    · exact (congrArg (s ∈ ·.rooms.members r) hm).mpr hs
    · refine (congrArg (s ∈ ·.rooms.members r) hm).mpr ?_
      exact RoomIndex.members_register_of (hsound m) (hnew s (RoomIndex.registered_of_member hs)) hs
  · exact members_connected (w := (c.opened n id behaviour).world) (hsound.of_nodes rfl) hidle hs

theorem moved_left (hsound : c.world.Sound) {s : Session} {r : Except LifecycleError Unit}
    (hl : Lifecycle.Left n s c.world r w) : c.Moved i w := by
  obtain ⟨readings, t, -, -, rfl⟩ := hl.departed
  have hrooms := fun m => World.node_setRooms n m ((c.world.node n).rooms.unregister s.conn).2
    { c.world with readings := readings }
  refine ⟨fun m r s' hs hsession => ?_, fun m k s' hs => .inl ?_⟩
  · rcases hrooms m with hm | ⟨rfl, hm⟩
    · exact (congrArg (s' ∈ ·.rooms.members r) hm).mpr hs
    · have hkept := Table.mem_erase.mp ((congrArg (s' ∈ ·.rooms.sessions) hm).mp hsession)
      refine (congrArg (s' ∈ ·.rooms.members r) hm).mpr ?_
      exact RoomIndex.members_unregister_of (hsound m) hkept.2 hs
  · rcases World.members_setRooms (w := { c.world with readings := readings }) hs with hold | ⟨rfl, hmem⟩
    · exact hold
    · exact (RoomIndex.members_unregister (hsound m) hmem).1

/-- What every step does to the members of rooms. -/
theorem effect_moved (hk : c.Knows i) (hsound : c.world.Sound) (hp : c.presence.Successive gone ns)
    (hu : c.presence.Unshared) (hi : c.presence.Succeeds gone i) (heff : c.Effect underway i o w) :
    c.Moved i w := by
  by_cases hstationary : Stationary i
  · exact .of_rooms (effect_stays hstationary heff).rooms
  cases i with
  | connect n id behaviour name =>
    refine World.Attempt.elim heff (fun _ ha => ?_) ?_
    · obtain ⟨t, r, i, q, ps, ds, rfl, -⟩ := ha
      exact .of_nodes rfl
    · rintro _ _ ⟨-, -, rfl⟩
      exact moved_connected hsound hp hi
  | requirements j r =>
    obtain ⟨ks, hks, hs, -⟩ := heff
    refine moved_seated hp hu hk (hs.seated hsound).1 fun k hmem => ⟨⟨rfl, hks.subset hmem⟩, ?_⟩
    intro p hshown
    cases k with
    | config m => exact absurd rfl (wanted_no_config hks _ hmem m)
    | backends m => exact hshown
    | routing => exact hshown
  | configSchema j d =>
    obtain ⟨ks, hks, hseated⟩ := Lifecycle.Declared.seated hsound heff
    refine moved_seated hp hu hk hseated fun k hmem => ?_
    obtain ⟨m, hm, rfl⟩ := hks k hmem
    exact ⟨⟨rfl, m, hm, rfl⟩, fun p hshown => hshown⟩
  | disconnect j =>
    obtain ⟨r, -, hl⟩ := heff
    exact moved_left hsound hl
  | _ => exact absurd trivial hstationary

/-! ## Runs -/

variable {h : List Taken} {s : Session} {profiles : List Profile} {at_ : Timestamp}

/-- Connection ids of a node are given out once, peers take all messages or none, and backends are
written by nodes only. -/
def GivenOnce (_ : List Taken) (c : Cluster) (i : Input) : Prop := c.presence.Unused i ∧ Managed i

/-- How a session came into a room, as a history tells: a step let it in, it was in the room at no
moment before, and has been there at every moment since. -/
def Joined (h : List Taken) (n : Nat) (s : Session) (k : Notification) : Prop :=
  ∃ h₁ x h₂, h = h₁ ++ x :: h₂ ∧ x.before.LetsIn x.input x.after.world n s k ∧
    (∀ y ∈ h₁, ∀ m, s ∉ (y.before.world.node m).rooms.members k.room) ∧
    ∀ y ∈ h₂, s ∈ (y.before.world.node n).rooms.members k.room

theorem Joined.concat {x : Taken} (hj : Joined h n s k)
    (hx : s ∈ (x.before.world.node n).rooms.members k.room) : Joined (h ++ [x]) n s k := by
  obtain ⟨h₁, y, h₂, rfl, hlets, hbefore, hsince⟩ := hj
  refine ⟨h₁, y, h₂ ++ [x], by simp, hlets, hbefore, fun z hz => ?_⟩
  rcases List.mem_append.mp hz with hz | hz
  · exact hsince z hz
  · obtain rfl := List.mem_singleton.mp hz
    exact hx

/-- What a run keeps: members take messages, whoever was in a room is still there while it is
registered, and the history tells how every member came in. -/
structure Traced (h : List Taken) (c : Cluster) : Prop where
  steady : c.Steady fun _ => False
  sound : c.world.Sound
  successive : c.presence.Successive (Gone h) (names h)
  unshared : c.presence.Unshared
  recording : ∀ n r, ∀ s ∈ (c.world.node n).rooms.members r, c.presence.behaviour s.serial = .record
  kept : ∀ y ∈ h, ∀ n r, ∀ s ∈ (y.before.world.node n).rooms.members r,
    s.serial < c.presence.faces.length ∧ c.presence.home s.serial = n ∧
      (s ∈ (c.world.node n).rooms.sessions → s ∈ (c.world.node n).rooms.members r)
  joined : ∀ n k, ∀ s ∈ (c.world.node n).rooms.members (Notification.room k), Joined h n s k

theorem start_unshared : (Cluster.start profiles at_).presence.Unshared where
  homes := rfl
  conns := by
    intro j k hj
    cases hj
  peers := fun _ => .inl rfl

theorem start_traced : Traced [] (Cluster.start profiles at_) := by
  have hnobody : ∀ n r s, s ∉ ((Cluster.start profiles at_).world.node n).rooms.members r := by
    intro n r s hs
    rw [(start_node n).1] at hs
    cases hs
  refine ⟨start_steady _ _, start_sound _ _, start_successive, start_unshared, ?_, ?_, ?_⟩
  · exact fun n r s hs => absurd hs (hnobody n r s)
  · exact fun y hy => absurd hy List.not_mem_nil
  · exact fun n k s hs => absurd hs (hnobody n _ s)

/-- Registered sessions have opened, at the node that they are registered with. -/
theorem Traced.at_home (ht : Traced h c) (hs : s ∈ (c.world.node n).rooms.sessions) :
    s.serial < c.presence.faces.length ∧ c.presence.home s.serial = n := by
  obtain ⟨hlt, -, hhome, -⟩ := ht.successive.registered n s (World.presence_registered n ▸ hs)
  exact ⟨hlt, hhome⟩

theorem Traced.hears (ht : Traced h c) {r : Room} (hs : s ∈ (c.world.node n).rooms.members r) :
    c.world.hears s = true := by
  have hrecord := ht.recording n r s hs
  unfold World.hears
  rw [← World.presence_behaviour (l := c.homes)]
  exact decide_eq_true hrecord

/-- Polls send to sessions that take messages. -/
theorem Traced.announced (ht : Traced h c) (i : Input) : ∀ n, i = .poll n → ∀ l k,
    Simulation.Announced (fun _ => False) c.world (c.world.notices n l k) := by
  rintro n rfl l k m hm hdeaf
  obtain ⟨p, -, s, hs, rfl⟩ := World.mem_notices.mp hm
  rw [ht.hears hs] at hdeaf
  cases hdeaf

theorem exists_room (r : Room) : ∃ k : Notification, k.room = r := by
  cases r with
  | configChanging m => exact ⟨.config m, rfl⟩
  | backendsChanging m => exact ⟨.backends m, rfl⟩
  | routingChanging => exact ⟨.routing, rfl⟩

/-- A session that a step lets in takes every message. -/
theorem Traced.lets_recording (ht : Traced h c) (hl : c.LetsIn i w n s k) :
    c.presence.behaviour s.serial = .record := by
  have hdeaf := hl.hears
  unfold World.deaf at hdeaf
  rw [← World.presence_behaviour (l := c.homes)] at hdeaf
  rcases ht.unshared.peers s.serial with hrecord | hclosed | hhang
  · exact hrecord
  · exact absurd (.inl hclosed) (of_decide_eq_false hdeaf)
  · exact absurd (.inr hhang) (of_decide_eq_false hdeaf)

/-- Who is let in was in the room at no moment before. -/
theorem Traced.newcomer (ht : Traced h c) (hl : c.LetsIn i w n s k)
    (hnew : s ∉ (c.world.node n).rooms.members k.room) :
    ∀ y ∈ h, ∀ m, s ∉ (y.before.world.node m).rooms.members k.room := by
  intro y hy m hs
  obtain ⟨-, hhome, hstays⟩ := ht.kept y hy m _ s hs
  obtain rfl : n = m := (ht.at_home hl.registered).2.symm.trans hhome
  exact hnew (hstays hl.registered)

theorem Traced.moved (ht : Traced h c) (hk : c.Knows i) (hi : GivenOnce h c i)
    (hov : (c.apply i).2 ≠ .overflow) : c.Moved i (c.apply i).1.world := by
  obtain ⟨w, heff, hset, -⟩ := apply_effect ht.steady i (ht.announced i) hov
  have hsucceeds : c.presence.Succeeds (Gone h) i := ht.unshared.succeeds hi.1 hi.2
  exact (effect_moved hk ht.sound ht.successive ht.unshared hsucceeds heff).settles hset

theorem Traced.step (ht : Traced h c) (hk : c.Knows i) (hi : GivenOnce h c i)
    (hov : (c.apply i).2 ≠ .overflow) : Traced (h ++ [c.take i]) (c.apply i).1 := by
  obtain ⟨_, -, -, hsteady⟩ := apply_effect ht.steady i (ht.announced i) hov
  have hs := apply_presence ht.steady i (ht.announced i) hi.2 hov
  have hgrows := hs.grows ht.unshared.homes ht.successive.housed (presence_knows hk)
  have hmoved := ht.moved hk hi hov
  refine ⟨hsteady, apply_sound ht.steady i (ht.announced i) hov ht.sound, ?_,
    ht.unshared.step hi.1 hs, fun n r s hmem => ?_, fun y hy n r s hmem => ?_, fun n k s hmem => ?_⟩
  · rw [names_concat]
    exact ht.successive.step (presence_knows hk) (ht.unshared.succeeds hi.1 hi.2) hs fun j => gone_concat
  · obtain ⟨k, rfl⟩ := exists_room r
    rcases hmoved.lets n k s hmem with hold | hlets
    · have hlt := (ht.at_home (RoomIndex.registered_of_member hold)).1
      rw [hgrows.behaviour _ hlt]
      exact ht.recording n _ s hold
    · rw [hgrows.behaviour _ (ht.at_home hlets.registered).1]
      exact ht.lets_recording hlets
  · rcases List.mem_append.mp hy with hy | hy
    · obtain ⟨hlt, hhome, hstays⟩ := ht.kept y hy n r s hmem
      refine ⟨Nat.lt_of_lt_of_le hlt hgrows.faces, (hgrows.home _ hlt).trans hhome, fun hreg => ?_⟩
      rcases hgrows.registered n s (World.presence_registered n ▸ hreg) with hold | hopened
      · exact hmoved.stays n r s (hstays (World.presence_registered n ▸ hold)) hreg
      · exact absurd hopened (Nat.not_le_of_lt hlt)
    · obtain rfl := List.mem_singleton.mp hy
      obtain ⟨hlt, hhome⟩ := ht.at_home (RoomIndex.registered_of_member hmem)
      exact ⟨Nat.lt_of_lt_of_le hlt hgrows.faces, (hgrows.home _ hlt).trans hhome,
        hmoved.stays n r s hmem⟩
  · by_cases hold : s ∈ (c.world.node n).rooms.members k.room
    · exact (ht.joined n k s hold).concat hold
    · have hlets := (hmoved.lets n k s hmem).resolve_left hold
      exact ⟨h, c.take i, [], rfl, hlets, ht.newcomer hlets hold,
        fun y hy => absurd hy List.not_mem_nil⟩

theorem run_traced (hrun : Run GivenOnce (Cluster.start profiles at_) h c) : Traced h c := by
  induction hrun with
  | start => exact start_traced
  | step _ i hk hi hov ih => exact ih.step hk hi hov

/-! ## Broadcasts -/

/-- The messages that arrive in a step, the latest first. -/
def Taken.delivered (x : Taken) : List Delivery :=
  x.after.world.deliveries.take (x.after.world.deliveries.length - x.before.world.deliveries.length)

theorem Taken.delivered_eq {x : Taken} {new : List Delivery}
    (hx : x.after.world.deliveries = new ++ x.before.world.deliveries) : x.delivered = new := by
  unfold Taken.delivered
  rw [hx]
  simp

/-- A step is the poll of a node that sends a message to a member of the room of a notification. -/
def Taken.Broadcasts (x : Taken) (k : Notification) (d : Delivery) : Prop :=
  ∃ n l, x.input = .poll n ∧ ∃ m ∈ x.before.world.notices n l k, m.delivery = d

/-- A step is a successful declaration of requirements. -/
def Taken.Requires (j : Nat) (r : ModuleRequirements) : Taken → Prop
  | ⟨_, .requirements j' r', some (.ok ()), _⟩ => j' = j ∧ r' = r
  | _ => False

/-- A poll sends to members of the room only. -/
theorem Taken.Broadcasts.member {x : Taken} {d : Delivery} (hx : x.Broadcasts k d) :
    ∃ n, d.recipient ∈ (x.before.world.node n).rooms.members k.room := by
  obtain ⟨n, l, -, m, hm, rfl⟩ := hx
  obtain ⟨p, -, s, hs, rfl⟩ := World.mem_notices.mp hm
  exact ⟨n, hs⟩

/-- With nothing under way only the messages of the outbox arrive. -/
theorem settles_sent (hs : Settles (fun _ => False) w v) : ∃ new,
    v.deliveries = new ++ w.deliveries ∧ ∀ d ∈ new, d ∈ w.outbox.map Notice.delivery := by
  obtain ⟨t, ps, ds, rfl, -, hheard, hother⟩ := hs
  refine ⟨ds, rfl, fun d hd => ?_⟩
  cases hh : w.hears d.recipient with
  | false => exact (hother d hd hh).resolve_left id
  | true =>
    have hmem : d ∈ ds.filter fun d => w.hears d.recipient := List.mem_filter.mpr ⟨hd, hh⟩
    rw [hheard, List.mem_reverse] at hmem
    exact (List.mem_filter.mp hmem).1

/-- Whatever arrives in a poll is a broadcast. -/
theorem Traced.broadcasts (ht : Traced h c) (hi : i = .poll n) (hov : (c.apply i).2 ≠ .overflow) :
    ∀ d ∈ (c.take i).delivered, ∃ k, (c.take i).Broadcasts k d := by
  subst hi
  obtain ⟨w, heff, hset, -⟩ := apply_effect ht.steady (.poll n) (ht.announced _) hov
  obtain ⟨new, hnew, hsent⟩ := settles_sent hset
  have hquiet : w.deliveries = c.world.deliveries := by
    rcases heff with ⟨-, -, rfl⟩ | ⟨-, outcome, -, hpolled⟩
    · rfl
    · cases hpolled with
      | idle _ => rfl
      | dispatched _ failed reads => rfl
  rw [hquiet] at hnew
  intro d hd
  rw [Taken.delivered_eq (x := c.take (.poll n)) hnew] at hd
  obtain ⟨m, hm, rfl⟩ := List.mem_map.mp (hsent d hd)
  obtain ⟨n', l, k, hn', hnotice⟩ := effect_notices ht.steady.still heff hm
  exact ⟨k, n', l, hn', m, hnotice, rfl⟩

/-- A session that declares requirements with success is a member of every room that it asks for. -/
theorem Traced.required (ht : Traced h c) {j : Nat} {r : ModuleRequirements}
    (hov : (c.apply (.requirements j r)).2 ≠ .overflow)
    (ho : (c.apply (.requirements j r)).2.value? = some (.ok ()))
    (hs : c.session j ∈ (c.world.node (c.home j)).rooms.sessions) (hk : k ∈ Lifecycle.wanted r) :
    c.session j ∈ ((c.apply (.requirements j r)).1.world.node (c.home j)).rooms.members k.room := by
  obtain ⟨w, heff, hset, -⟩ := apply_effect ht.steady (.requirements j r) (ht.announced _) hov
  obtain ⟨ks, -, hsub, hall⟩ := heff
  obtain ⟨-, rfl⟩ := hall ho
  have hjoined := (hsub.seated ht.sound).1.joined hs k hk
  unfold World.node at hjoined ⊢
  rw [hset.nodes]
  exact hjoined

/-- What holds of rooms and messages in a run. -/
structure Baselined (h : List Taken) (c : Cluster) : Prop where
  /-- A member was let in by a call that sent it the current state; no poll had sent it what the room
  is about before that call, and it has been a member since. -/
  joined : ∀ n k, ∀ s ∈ (c.world.node n).rooms.members (Notification.room k),
    ∃ h₁ x h₂, h = h₁ ++ x :: h₂ ∧ x.before.LetsIn x.input x.after.world n s k ∧
      (∀ y ∈ h₁, ∀ d, y.Broadcasts k d → d.recipient ≠ s) ∧
      ∀ y ∈ h₂, s ∈ (y.before.world.node n).rooms.members k.room
  /-- Polls send nothing but broadcasts. -/
  polls : ∀ y ∈ h, ∀ n, y.input = .poll n → ∀ d ∈ y.delivered, ∃ k, y.Broadcasts k d
  /-- A registered session that declares requirements with success is in all rooms it asks for. -/
  required : ∀ y ∈ h, ∀ j r, y.Requires j r →
    y.before.session j ∈ (y.before.world.node (y.before.home j)).rooms.sessions →
    ∀ k ∈ Lifecycle.wanted r,
      y.before.session j ∈ (y.after.world.node (y.before.home j)).rooms.members k.room
  /-- Members take every message. -/
  recording : ∀ n r, ∀ s ∈ (c.world.node n).rooms.members r, (c.world.peer s).behaviour = .record

/-- Whoever is in a room was sent its state by the call that let it in, before any broadcast, over
every run in which no connection id of a node is given out twice and peers take all messages or none. -/
theorem baseline_before_membership (hrun : Run GivenOnce (Cluster.start profiles at_) h c) :
    Baselined h c where
  joined := by
    intro n k s hs
    obtain ⟨h₁, x, h₂, hh, hlets, hbefore, hsince⟩ := (run_traced hrun).joined n k s hs
    refine ⟨h₁, x, h₂, hh, hlets, ?_, hsince⟩
    rintro y hy d hd rfl
    obtain ⟨m, hm⟩ := hd.member
    exact hbefore y hy m hm
  polls := by
    intro y hy n hi
    obtain ⟨h₁, h₂, rfl, hrun₁, -, -, hov, heq⟩ := hrun.mem hy
    rw [heq]
    exact (run_traced hrun₁).broadcasts hi hov
  required := by
    rintro ⟨b, i, o, a⟩ hy j r hreq hs k hk
    obtain ⟨h₁, h₂, rfl, hrun₁, -, -, hov, heq⟩ := hrun.mem hy
    cases i with
    | requirements j' r' =>
      rcases o with _ | _ | ⟨⟩
      · exact hreq.elim
      · exact hreq.elim
      · obtain ⟨rfl, rfl⟩ := hreq
        injection heq with _ _ ho ha
        rw [ha]
        exact (run_traced hrun₁).required hov ho.symm hs hk
    | _ => exact hreq.elim
  recording := by
    intro n r s hs
    rw [← World.presence_behaviour (l := c.homes)]
    exact (run_traced hrun).recording n r s hs

/-- Two modules require each other, and one of them never answers: only the other gets into rooms. It
was sent the routes when it asked for them, and again by the poll after it became ready. -/
theorem hanging_peer_left_out :
    let c₀ := Cluster.start [⟨⟨"n1"⟩, ⟨2000, 2000⟩, ⟨100, .oldestFirst⟩⟩] default
    let c₁ := (c₀.apply (.connect 0 ⟨"c1"⟩ .record "a")).1
    let c₂ := (c₁.apply (.connect 0 ⟨"c2"⟩ .hang "b")).1
    let c₃ := (c₂.apply (.requirements 0 ⟨["b"], true⟩)).1
    let c₄ := (c₃.apply (.requirements 1 ⟨["a"], true⟩)).1
    let c₅ := (c₄.apply (.ready 0 ⟨"10.0.0.1:80", "1", "1", "http", [], [], none⟩)).1
    let c₆ := (c₅.apply (.poll 0)).1
    (c₆.world.node 0).rooms.members .routingChanging = [⟨0, ⟨"c1"⟩⟩] ∧
      (c₆.world.node 0).rooms.members (.backendsChanging (ModuleId.ofName "b")) = [⟨0, ⟨"c1"⟩⟩] ∧
      (c₆.world.node 0).rooms.members (.backendsChanging (ModuleId.ofName "a")) = [] ∧
      c₆.world.deliveries.map (fun d => (d.recipient.serial, d.event)) =
        [(0, Notification.routingMessage), (0, Notification.routingMessage),
          (0, Notification.backendsMessage)] ∧
      ∃ h, h.length = 6 ∧ Baselined h c₆ := by
  intro c₀ c₁ c₂ c₃ c₄ c₅ c₆
  have hstates : c₀.Takes [.connect 0 ⟨"c1"⟩ .record "a", .connect 0 ⟨"c2"⟩ .hang "b",
        .requirements 0 ⟨["b"], true⟩, .requirements 1 ⟨["a"], true⟩,
        .ready 0 ⟨"10.0.0.1:80", "1", "1", "http", [], [], none⟩, .poll 0] ∧
      c₁.presence.faces.length = 1 ∧ c₁.presence.conn 0 ≠ ⟨"c2"⟩ ∧
      (c₆.world.node 0).rooms.members .routingChanging = [⟨0, ⟨"c1"⟩⟩] ∧
      (c₆.world.node 0).rooms.members (.backendsChanging (ModuleId.ofName "b")) = [⟨0, ⟨"c1"⟩⟩] ∧
      (c₆.world.node 0).rooms.members (.backendsChanging (ModuleId.ofName "a")) = [] ∧
      c₆.world.deliveries.map (fun d => (d.recipient.serial, d.event)) =
        [(0, Notification.routingMessage), (0, Notification.routingMessage),
          (0, Notification.backendsMessage)] := by
    decide +kernel
  obtain ⟨htakes₀, hone, hother, hroutes, hwants, hlost, hsent⟩ := hstates
  have hrun₀ : Run GivenOnce c₀ [] c₀ := .start
  have hfirst : c₀.presence.Unused (.connect 0 ⟨"c1"⟩ .record "a") := ⟨.inl rfl, nofun⟩
  obtain ⟨hrun₁, htakes₁⟩ := hrun₀.takes htakes₀ ⟨hfirst, by rintro _ ⟨⟩⟩ c₁ rfl
  have hsecond : c₁.presence.Unused (.connect 0 ⟨"c2"⟩ .hang "b") := by
    refine ⟨.inr (.inr rfl), fun k hk _ => ?_⟩
    obtain rfl : k = 0 := by omega
    exact hother
  obtain ⟨hrun₂, htakes₂⟩ := hrun₁.takes htakes₁ ⟨hsecond, by rintro _ ⟨⟩⟩ c₂ rfl
  obtain ⟨hrun₃, htakes₃⟩ := hrun₂.takes htakes₂ ⟨trivial, by rintro _ ⟨⟩⟩ c₃ rfl
  obtain ⟨hrun₄, htakes₄⟩ := hrun₃.takes htakes₃ ⟨trivial, by rintro _ ⟨⟩⟩ c₄ rfl
  obtain ⟨hrun₅, htakes₅⟩ := hrun₄.takes htakes₄ ⟨trivial, by rintro _ ⟨⟩⟩ c₅ rfl
  obtain ⟨hrun₆, -⟩ := hrun₅.takes htakes₅ ⟨trivial, by rintro _ ⟨⟩⟩ c₆ rfl
  exact ⟨hroutes, hwants, hlost, hsent, _, rfl, baseline_before_membership hrun₆⟩

end Cluster

end ConfigRegistry
