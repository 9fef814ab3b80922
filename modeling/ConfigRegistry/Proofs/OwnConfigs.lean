import ConfigRegistry.Proofs.Convergence
import ConfigRegistry.Proofs.Reuse

/-!
# Connections get their own configs

A message with a config does not say whose it is. Its data takes two ways to a connection:
the module of the session that declares its schema, and the room of a config whose members
a poll sends to. Whoever is in such a room is of its module (`World.Guarded`), also where
connection ids come back, so no connection ever gets the config of another module
(`Cluster.only_own_configs`).
-/

namespace ConfigRegistry

open World (Aside Settles)

variable {ok : Delivery → Prop} {old : List Delivery}

namespace World

variable {w v : World} {s : Session} {n : Nat} {k : Notification} {p : Bytes}

/-- Members of the room of a config are of its module, and the messages that arrived since there were
only the old ones are all right. -/
structure Guarded (ok : Delivery → Prop) (old : List Delivery) (w : World) : Prop where
  own : ∀ n m, ∀ s ∈ (w.node n).rooms.members (.configChanging m),
    (w.peer s).context.moduleId = some m
  arrived : ∃ new, w.deliveries = new ++ old ∧ ∀ d ∈ new, ok d

/-- What neither sends messages nor adds members keeps rooms guarded. -/
theorem Guarded.frame (h : w.Guarded ok old) (hd : v.deliveries = w.deliveries)
    (hm : ∀ n r, ∀ s ∈ (v.node n).rooms.members r, s ∈ (w.node n).rooms.members r ∧
      (v.peer s).context.moduleId = (w.peer s).context.moduleId) : v.Guarded ok old where
  own := by
    intro n m s hs
    obtain ⟨hold, hmodule⟩ := hm n _ s hs
    rw [hmodule]
    exact h.own n m s hold
  arrived := hd ▸ h.arrived

/-- Messages that are all right keep rooms guarded. -/
theorem Guarded.delivers (h : w.Guarded ok old) (new : List Delivery) (hn : v.nodes = w.nodes)
    (hf : v.peers.map Peer.face = w.peers.map Peer.face) (hd : v.deliveries = new ++ w.deliveries)
    (hnew : ∀ d ∈ new, ok d) : v.Guarded ok old where
  own := by
    intro n m s hs
    have hnode : v.node n = w.node n := by
      unfold node
      rw [hn]
    rw [hnode] at hs
    rw [context_of_faces (w := w) hf]
    exact h.own n m s hs
  arrived := by
    obtain ⟨before, hbefore, hok⟩ := h.arrived
    refine ⟨new ++ before, ?_, fun d hmem => ?_⟩
    · rw [hd, hbefore, List.append_assoc]
    · rcases List.mem_append.mp hmem with hmem | hmem
      · exact hnew d hmem
      · exact hok d hmem

/-- A change of the store alone. -/
theorem Guarded.stores (h : w.Guarded ok old) (hn : v.nodes = w.nodes) (hp : v.peers = w.peers)
    (hd : v.deliveries = w.deliveries) : v.Guarded ok old :=
  h.delivers [] hn (congrArg _ hp) hd nofun

/-- A change of what a session knows besides its module. -/
theorem Guarded.modifyPeer (h : w.Guarded ok old) {f : Peer → Peer}
    (hf : ∀ p, (f p).context.moduleId = p.context.moduleId) : (w.modifyPeer s f).Guarded ok old :=
  h.frame rfl fun _ _ s' hs' => ⟨hs', peer_modifyPeer s s' f (·.context.moduleId) (.inr hf) w⟩

theorem Guarded.settles (h : w.Guarded ok old) (hout : ∀ m ∈ w.outbox, ok m.delivery)
    (hs : Settles ok w v) : v.Guarded ok old := by
  obtain ⟨t, ps, ds, rfl, hf, hheard, hother⟩ := hs
  have hsent : ∀ d ∈ w.outbox.map Notice.delivery, ok d := by
    intro d hd
    obtain ⟨m, hm, rfl⟩ := List.mem_map.mp hd
    exact hout m hm
  refine h.delivers ds rfl hf rfl fun d hd => ?_
  cases hh : w.hears d.recipient with
  | false =>
    rcases hother d hd hh with hok | hmem
    · exact hok
    · exact hsent d hmem
  | true =>
    have hmem : d ∈ ds.filter fun d => w.hears d.recipient := List.mem_filter.mpr ⟨hd, hh⟩
    rw [hheard, List.mem_reverse] at hmem
    exact hsent d (List.mem_filter.mp hmem).1

/-- A session that gets a message and joins the room is of the module of the room, if that is one of
a config. -/
theorem Guarded.joins (h : w.Guarded ok old) (hsound : w.Sound) (hok : ok ⟨s, k.message, p⟩)
    (hown : ∀ m, k = .config m → (w.peer s).context.moduleId = some m ∧
      ∀ s' ∈ (w.node n).rooms.sessions, s'.conn = s.conn → s' = s) :
    ((w.accept s k.message p).joined n k.room s.conn).Guarded ok old := by
  have hfaces : (w.accept s k.message p).peers.map Peer.face = w.peers.map Peer.face :=
    faces_modify_accepted _ _ _
  have haccept : (w.accept s k.message p).Guarded ok old := by
    refine h.delivers [⟨s, k.message, p⟩] rfl hfaces rfl fun d hd => ?_
    obtain rfl := List.mem_singleton.mp hd
    exact hok
  refine ⟨fun i m s' hs' => ?_, haccept.arrived⟩
  rcases members_setRooms hs' with hold | ⟨rfl, hmem⟩
  · exact haccept.own i m s' hold
  · rcases RoomIndex.members_join (hsound i) hmem with hold | ⟨hr, hconn, hsession⟩
    · exact haccept.own i m s' hold
    · have hk : k = .config m := Notification.room_injective hr.symm
      obtain ⟨hmodule, hsame⟩ := hown m hk
      obtain rfl := hsame s' hsession hconn
      exact (congrArg (·.moduleId) (context_of_faces (w := w) hfaces s')).trans hmodule

end World

namespace Cluster

open World (Guarded)

variable {c : Cluster} {gone : Nat → Prop} {ns : List String} {k n : Nat} {w : World} {i : Input}

/-! ## Every step -/

/-- Members of rooms are sessions that there are. -/
theorem member_old (hsound : c.world.Sound) (hp : c.presence.Successive gone ns) {r : Room}
    {s : Session} (hs : s ∈ (c.world.node n).rooms.members r) : s.serial < c.world.peers.length := by
  have hsession : s ∈ (c.world.node n).rooms.sessions :=
    ((RoomIndex.mem_members (hsound n)).mp hs).1
  have hregistered : s ∈ c.presence.registered n := World.presence_registered n ▸ hsession
  exact presence_faces ▸ (hp.registered n s hregistered).1

theorem guarded_opened (h : c.world.Guarded ok old) (hsound : c.world.Sound)
    (hp : c.presence.Successive gone ns) (n : Nat) (id : ConnectionId) (behaviour : Behaviour) :
    (c.opened n id behaviour).world.Guarded ok old := by
  refine h.frame rfl fun m r s hs => ⟨hs, ?_⟩
  rw [peer_opened (member_old hsound hp (n := m) hs)]

theorem guarded_connected (h : c.world.Guarded ok old) (hsound : c.world.Sound)
    (hp : c.presence.Successive gone ns) {id : ConnectionId} (behaviour : Behaviour) (name : String)
    (hi : c.presence.Succeeds gone (.connect n id behaviour name)) :
    (Lifecycle.connected n ⟨c.world.peers.length, id⟩ (Text.trimmed name)
      (c.opened n id behaviour).world).Guarded ok old := by
  have hnew : (c.world.node n).rooms.isConnected id = false := by
    refine Bool.eq_false_iff.mpr fun hconn => ?_
    obtain ⟨s, hs, hid⟩ := RoomIndex.isConnected_iff.mp hconn
    have hregistered : s ∈ c.presence.registered n := World.presence_registered n ▸ hs
    exact hp.unregistered hi hregistered hid
  have hopened := guarded_opened h hsound hp n id behaviour
  refine hopened.frame rfl fun m r s hs => ?_
  have hold : s ∈ (c.world.node m).rooms.members r :=
    members_connected (w := (c.opened n id behaviour).world) (hsound.of_nodes rfl) hnew hs
  refine ⟨hold, ?_⟩
  exact World.peer_modifyPeer ⟨c.world.peers.length, id⟩ s _ (·.context.moduleId)
    (.inl (Nat.ne_of_lt (member_old hsound hp hold))) ((c.opened n id behaviour).world.ticked.write _)

theorem guarded_left (h : c.world.Guarded ok old) (hsound : c.world.Sound) {s : Session}
    {r : Except LifecycleError Unit} (hl : Lifecycle.Left n s c.world r w) : w.Guarded ok old := by
  obtain ⟨readings, t, -, -, rfl⟩ := hl.departed
  have hrooms : (({ c.world with readings := readings } : World).setRooms n
      ((c.world.node n).rooms.unregister s.conn).2).Guarded ok old := by
    refine h.frame rfl fun m r s' hs' => ⟨?_, rfl⟩
    rcases World.members_setRooms hs' with hold | ⟨rfl, hmem⟩
    · exact hold
    · exact (RoomIndex.members_unregister (hsound m) hmem).1
  have hdetached := hrooms.modifyPeer (s := s)
    (f := fun p => { p with context := { p.context with backend := none } }) fun _ => rfl
  exact hdetached.stores rfl rfl rfl

section Messages

/-! Here all messages but those with configs are all right. -/

variable (hplain : ∀ d : Delivery, d.event ≠ Notification.configMessage → ok d)

include hplain

theorem guarded_stays {v : World} (h : w.Guarded ok old) (hs : w.Stays ok v) : v.Guarded ok old where
  own := by
    intro n m s hmem
    rw [hs.rooms] at hmem
    rw [hs.modules]
    exact h.own n m s hmem
  arrived := by
    obtain ⟨before, hbefore, hok⟩ := h.arrived
    obtain ⟨new, hnew, hall⟩ := hs.arrived
    refine ⟨new ++ before, by rw [hnew, hbefore, List.append_assoc], fun d hd => ?_⟩
    rcases List.mem_append.mp hd with hd | hd
    · rcases hall d hd with hd | ⟨s, e, -, rfl⟩
      · exact hd
      · exact hplain _ (by decide : Lifecycle.errorMessage ≠ Notification.configMessage)
    · exact hok d hd

theorem guarded_aside {s : Session} {v : World} (h : w.Guarded ok old) (ha : Aside ok s w v) :
    v.Guarded ok old :=
  guarded_stays hplain h (.aside ha)

theorem guarded_subscribing {s : Session} {v : World} {ks : List Notification} (h : w.Guarded ok old)
    (hsound : w.Sound) (hks : ∀ k ∈ ks, ∀ m, k ≠ .config m)
    (hsub : Lifecycle.Subscribing n ok s w ks v) : v.Guarded ok old := by
  induction hsub with
  | start => exact h
  | aside _ ha ih => exact guarded_aside hplain (ih hks) ha
  | @joins ks v k p hsub hk _ ih =>
    have hother : ∀ m, k ≠ .config m :=
      hks k (List.mem_append_right _ (List.mem_singleton_self k))
    refine (ih fun k hk => hks k (List.mem_append_left _ hk)).joins (sound_subscribing hsound hsub)
      (hplain _ ?_) fun m hm => absurd hm (hother m)
    cases k with
    | config m => exact absurd rfl (hother m)
    | backends m => exact (by decide : Notification.backendsMessage ≠ Notification.configMessage)
    | routing => exact (by decide : Notification.routingMessage ≠ Notification.configMessage)

theorem guarded_declared {s : Session} {d : ConfigSchemaDeclaration} {v : World}
    {o : Option (Except LifecycleError Unit)} (h : w.Guarded ok old) (hsound : w.Sound)
    (hs : ∀ s' ∈ (w.node n).rooms.sessions, s'.conn = s.conn → s' = s)
    (hok : ∀ m cf, (w.peer s).context.moduleId = some m → v.store.live.activeConfig m = some cf →
      ok ⟨s, Notification.configMessage, cf.data⟩)
    (hd : Lifecycle.Declared n ok s d w o v) : v.Guarded ok old := by
  have hwrite : ∀ {t u}, Aside ok s (w.write t) u → u.Guarded ok old := by
    intro t u ha
    have hwritten : (w.write t).Guarded ok old := h.stores rfl rfl rfl
    exact guarded_aside hplain hwritten ha
  cases hd with
  | refused ha _ => exact guarded_aside hplain h ha
  | invalid _ _ _ ha _ => exact hwrite ha
  | missed _ _ _ _ ha _ => exact hwrite ha
  | @joins m schema cf t v hm _ hc ha _ =>
    have hactive := offering_active hc
    obtain rfl : cf.moduleId = m := (Tables.activeConfig_some hactive).2.1
    have hstored : v.store.live.activeConfig cf.moduleId = some cf := by
      rw [ha.live]
      exact hactive
    have hsound' : v.Sound := (hsound.of_nodes (v := w.write t) rfl).aside ha
    refine (hwrite ha).joins hsound' (hok _ cf hm hstored) fun m' hm' => ⟨?_, ?_⟩
    · obtain rfl := Notification.config.inj hm'
      exact (congrArg (·.moduleId) (World.context_of_faces (w := w) ha.faces s)).trans hm
    · obtain ⟨time, r, i, q, ps, ds, rfl, -⟩ := ha
      exact hs

/-- What a step comes to keeps rooms guarded, given that a config that is offered is all right. -/
theorem effect_guarded (hk : c.Knows i) (hi : c.presence.Succeeds gone i)
    (hp : c.presence.Successive gone ns) (hsound : c.world.Sound) (h : c.world.Guarded ok old)
    {o : Option i.Reply} (heff : c.Effect ok i o w)
    (hok : ∀ k d, i = .configSchema k d → ∀ m cf,
      (c.world.peer (c.session k)).context.moduleId = some m →
      w.store.live.activeConfig m = some cf →
      ok ⟨c.session k, Notification.configMessage, cf.data⟩) : w.Guarded ok old := by
  by_cases hstationary : Stationary i
  · exact guarded_stays hplain h (effect_stays hstationary heff)
  cases i with
  | connect n id behaviour name =>
    have hopened := guarded_opened h hsound hp n id behaviour
    refine World.Attempt.elim heff (fun _ ha => guarded_aside hplain hopened ha) ?_
    rintro _ _ ⟨-, -, rfl⟩
    exact guarded_connected h hsound hp behaviour name hi
  | requirements k r =>
    obtain ⟨ks, hks, hs, -⟩ := heff
    exact guarded_subscribing hplain h hsound (wanted_no_config hks) hs
  | configSchema k d =>
    refine guarded_declared hplain h hsound (fun s hs hc => ?_) (hok k d rfl) heff
    have hlt : k < c.presence.faces.length := presence_faces ▸ hk
    have hregistered : s ∈ c.presence.registered (c.presence.home k) :=
      World.presence_registered (c.home k) ▸ hs
    rw [← presence_session]
    exact hp.eq_session hregistered hlt hi (hc.trans (presence_conn k).symm)
  | disconnect k =>
    obtain ⟨r, -, hl⟩ := heff
    exact guarded_left h hsound hl
  | _ => exact absurd trivial hstationary

end Messages

/-- Only a poll leaves messages to be sent, and these are notices of what late reads see. -/
theorem effect_notices (hw : c.world.Still) {o : Option i.Reply} (heff : c.Effect ok i o w) {m : Notice}
    (hm : m ∈ w.outbox) : ∃ n l k, i = .poll n ∧ m ∈ c.world.notices n l k := by
  by_cases hpoll : ∃ n, i = .poll n
  · obtain ⟨n, rfl⟩ := hpoll
    rcases heff with ⟨-, -, rfl⟩ | ⟨-, outcome, -, hpolled⟩
    · rw [hw.outbox] at hm
      cases hm
    · obtain ⟨k, hm⟩ := hpolled.notice hw.outbox hm
      exact ⟨n, _, k, rfl, hm⟩
  · have hstill := effect_still hw (fun n hn => hpoll ⟨n, hn⟩) heff
    rw [hstill.outbox] at hm
    cases hm

/-! ## Whose config it is -/

variable {h : List Taken} {x : Taken} {m : ModuleId} {d : Delivery} {profiles : List Profile}
  {at_ : Timestamp}

/-- The tables from which a step sends a session the config of a module: the session declares its
schema, or its node polls while it is in the room of the config, and reads what late reads see. -/
inductive Taken.Reads (x : Taken) (s : Session) (m : ModuleId) : Tables → Prop
  | offers {d : ConfigSchemaDeclaration} (hi : x.input = .configSchema s.serial d)
      (hs : x.before.session s.serial = s) : Reads x s m x.after.world.store.live
  | notifies {n : Nat} (hi : x.input = .poll n)
      (hs : s ∈ (x.before.world.node n).rooms.members (.configChanging m)) :
      Reads x s m (x.before.world.store.view .stale)

/-- A step sends a message with the data of a config of a module. -/
def Taken.SendsConfig (x : Taken) (m : ModuleId) (d : Delivery) : Prop :=
  ∃ t, x.Reads d.recipient m t ∧
    ∃ row ∈ t.configs, row.moduleId = m ∧ row.active = true ∧ row.data = d.payload

/-- The module whose name a session declared when it connected. -/
def declared (h : List Taken) (k : Nat) : Option ModuleId :=
  (names h)[k]?.map fun name => ModuleId.ofName (Text.trimmed name)

/-- If a message carries a config, then a step sent it with the data of a config of the module that
the recipient declared. -/
def OwnConfig (h : List Taken) (d : Delivery) : Prop :=
  d.event = Notification.configMessage →
    ∃ m, declared h d.recipient.serial = some m ∧ ∃ x ∈ h, x.SendsConfig m d

/-- A message that arrives in a step behind a history: if it carries a config, then this step sends it
so, or an earlier one did to a session that is not recording. -/
def Arrives (h : List Taken) (x : Taken) (d : Delivery) : Prop :=
  d.event = Notification.configMessage → ∃ m, declared h d.recipient.serial = some m ∧
    (x.SendsConfig m d ∨ x.before.world.hears d.recipient = false ∧ ∃ y ∈ h, y.SendsConfig m d)

theorem declared_concat (hm : declared h k = some m) : declared (h ++ [x]) k = some m := by
  unfold declared at hm ⊢
  obtain ⟨name, hname, rfl⟩ := Option.map_eq_some_iff.mp hm
  rw [names_concat, List.getElem?_append_left (List.getElem?_eq_some_iff.mp hname).1, hname]
  rfl

theorem OwnConfig.concat (hd : OwnConfig h d) : OwnConfig (h ++ [x]) d := by
  intro he
  obtain ⟨m, hm, y, hy, hsent⟩ := hd he
  exact ⟨m, declared_concat hm, y, List.mem_append_left _ hy, hsent⟩

theorem Arrives.own (hd : Arrives h x d) : OwnConfig (h ++ [x]) d := by
  intro he
  obtain ⟨m, hm, hsent | ⟨-, y, hy, hsent⟩⟩ := hd he
  · exact ⟨m, declared_concat hm, x, List.mem_append_right _ (List.mem_singleton_self x), hsent⟩
  · exact ⟨m, declared_concat hm, y, List.mem_append_left _ hy, hsent⟩

/-- What a step sends of the active config that tables show for the recipient's module. -/
theorem arrives_config {s : Session} {t : Tables} {row : Config} (hm : declared h s.serial = some m)
    (ht : x.Reads s m t) (hrow : t.activeConfig m = some row) :
    Arrives h x ⟨s, Notification.configMessage, row.data⟩ := by
  intro _
  obtain ⟨hmem, hmodule, hactive⟩ := Tables.activeConfig_some hrow
  exact ⟨m, hm, .inl ⟨t, ht, row, hmem, hmodule, hactive, rfl⟩⟩

/-- What a run keeps. -/
structure Discreet (h : List Taken) (c : Cluster) : Prop where
  steady : c.Steady (OwnConfig h)
  sound : c.world.Sound
  successive : c.presence.Successive (Gone h) (names h)
  own : ∀ n m, ∀ s ∈ (c.world.node n).rooms.members (.configChanging m),
    (c.world.peer s).context.moduleId = some m

theorem Discreet.declared (ht : Discreet h c) {s : Session}
    (hm : (c.world.peer s).context.moduleId = some m) : Cluster.declared h s.serial = some m := by
  rw [← World.presence_context (l := c.homes)] at hm
  obtain ⟨name, hname, rfl⟩ := ht.successive.declared s.serial m hm
  unfold Cluster.declared
  rw [hname]
  rfl

theorem Discreet.notice (ht : Discreet h c) {l : Limits} {k : Notification} {m : Notice}
    (hm : m ∈ c.world.notices n l k) : Arrives h (c.take (.poll n)) m.delivery := by
  obtain ⟨p, hp, s, hs, rfl⟩ := World.mem_notices.mp hm
  intro he
  cases k with
  | config m =>
    obtain ⟨row, hrow, rfl⟩ := Tables.snapshot_config_ok.mp hp
    exact arrives_config (ht.declared (ht.own n m s hs)) (.notifies rfl hs) hrow he
  | backends m => exact absurd he (by decide : Notification.backendsMessage ≠ Notification.configMessage)
  | routing => exact absurd he (by decide : Notification.routingMessage ≠ Notification.configMessage)

/-- What was under way to a session that is not recording may arrive in the next step. -/
theorem Discreet.late (ht : Discreet h c) (i : Input) : c.Steady (Arrives h (c.take i)) := by
  refine ht.steady.mono fun d hd hown he => ?_
  obtain ⟨m, hm, hsent⟩ := hown he
  exact ⟨m, hm, .inr ⟨hd, hsent⟩⟩

theorem Discreet.announced (ht : Discreet h c) (i : Input) :
    ∀ n, i = .poll n → ∀ l k, Simulation.Announced (Arrives h (c.take i)) c.world
      (c.world.notices n l k) := by
  rintro n rfl l k m hm -
  exact ht.notice hm

/-- What a step leaves behind is guarded: members are of the modules of their rooms, and what arrived
was sent as it should be. -/
theorem Discreet.guarded (ht : Discreet h c) (hk : c.Knows i) (hi : c.presence.Succeeds (Gone h) i)
    (hov : (c.apply i).2 ≠ .overflow) :
    (c.apply i).1.world.Guarded (Arrives h (c.take i)) c.world.deliveries := by
  obtain ⟨w, heff, hset, -⟩ := apply_effect (ht.late i) i (ht.announced i) hov
  have hplain : ∀ d : Delivery, d.event ≠ Notification.configMessage → Arrives h (c.take i) d :=
    fun d hd he => absurd he hd
  have hbefore : c.world.Guarded (Arrives h (c.take i)) c.world.deliveries :=
    ⟨ht.own, [], rfl, nofun⟩
  refine World.Guarded.settles ?_ (fun m hm => ?_) hset
  · refine effect_guarded hplain hk hi ht.successive ht.sound hbefore heff ?_
    rintro k d rfl m cf hm hactive
    rw [← hset.store] at hactive
    exact arrives_config (ht.declared hm) (.offers rfl rfl) hactive
  · obtain ⟨n, l, k, rfl, hm⟩ := effect_notices ht.steady.still heff hm
    exact ht.notice hm

theorem Discreet.step (ht : Discreet h c) (hk : c.Knows i) (hi : c.presence.Succeeds (Gone h) i)
    (hov : (c.apply i).2 ≠ .overflow) : Discreet (h ++ [c.take i]) (c.apply i).1 := by
  have hmanaged : Managed i := by
    rintro call rfl
    exact hi
  obtain ⟨_, -, -, hsteady⟩ := apply_effect (ht.late i) i (ht.announced i) hov
  have hs := apply_presence (ht.late i) i (ht.announced i) hmanaged hov
  refine ⟨hsteady.mono fun d _ hd => hd.own, apply_sound (ht.late i) i (ht.announced i) hov ht.sound,
    ?_, (ht.guarded hk hi hov).own⟩
  rw [names_concat]
  exact ht.successive.step (presence_knows hk) hi hs fun j => gone_concat

theorem start_discreet : Discreet [] (Cluster.start profiles at_) where
  steady := start_steady _ _
  sound := start_sound _ _
  successive := start_successive
  own := by
    intro n m s hs
    rw [(start_node n).1] at hs
    cases hs

/-- Connection ids of a node come back only after the sessions that had them are over, and a session
that was replaced declares no schema any more. -/
def InTurn (h : List Taken) (c : Cluster) (i : Input) : Prop := c.presence.Succeeds (Gone h) i

theorem run_discreet (hrun : Run InTurn (Cluster.start profiles at_) h c) : Discreet h c := by
  induction hrun with
  | start => exact start_discreet
  | step _ i hk hi hov ih => exact ih.step hk hi hov

theorem run_own (hrun : Run InTurn (Cluster.start profiles at_) h c) :
    ∀ d ∈ c.world.deliveries, OwnConfig h d := by
  induction hrun with
  | start => nofun
  | @step h c hrun i hk hi hov ih =>
    intro d hd
    obtain ⟨new, hnew, harrives⟩ := ((run_discreet hrun).guarded hk hi hov).arrived
    rw [hnew] at hd
    rcases List.mem_append.mp hd with hd | hd
    · exact (harrives d hd).own
    · exact (ih d hd).concat

/-- What holds of the messages with configs in a run. -/
structure OwnConfigs (h : List Taken) (c : Cluster) : Prop where
  /-- What arrived carries the data of a config of the recipient's module. -/
  received : ∀ d ∈ c.world.deliveries, OwnConfig h d
  /-- So does what is under way. -/
  underway : Simulation.OnlyLate (OwnConfig h) c.world c.sim.sleepers
  /-- The data is what it is when it is sent, and recording sessions get it in the same step. -/
  arrives : ∀ h₁ x h₂, h = h₁ ++ x :: h₂ →
    ∃ new, x.after.world.deliveries = new ++ x.before.world.deliveries ∧ ∀ d ∈ new, Arrives h₁ x d
  /-- Whom polls send the config of a module declared this module. -/
  members : ∀ n m, ∀ s ∈ (c.world.node n).rooms.members (.configChanging m),
    declared h s.serial = some m

/-- Connections only ever get the configs of their own modules, over every run in which connection ids
of a node come back only after the sessions that had them are over. -/
theorem only_own_configs (hrun : Run InTurn (Cluster.start profiles at_) h c) : OwnConfigs h c where
  received := run_own hrun
  underway := (run_discreet hrun).steady.calm.late
  arrives := by
    intro h₁ x h₂ hsplit
    obtain ⟨hrun₁, hk, hi, hov, heq⟩ := hrun.split hsplit
    have hguarded := ((run_discreet hrun₁).guarded hk hi hov).arrived
    have hafter : x.after = (x.before.apply x.input).1 := congrArg Taken.after heq
    rw [← heq] at hguarded
    rw [hafter]
    exact hguarded
  members := by
    intro n m s hs
    have ht := run_discreet hrun
    exact ht.declared (ht.own n m s hs)

/-- The last session of a cluster was not replaced. -/
theorem last_not_replaced (hk : k + 1 = c.presence.faces.length) : ¬ c.presence.Replaced k := by
  rintro ⟨j, hkj, hj, -⟩
  omega

/-- A session disconnects and its connection id is given to one of another module. Both modules' configs
change, and the poll that follows sends the session its own. -/
theorem own_configs_after_reuse :
    let c₀ := Cluster.start [⟨⟨"n1"⟩, ⟨2000, 2000⟩, ⟨100, .oldestFirst⟩⟩] default
    let c₁ := (c₀.apply (.connect 0 ⟨"c1"⟩ .record "a")).1
    let c₂ := (c₁.apply (.configSchema 0 ⟨"1", .object [], .string "x"⟩)).1
    let c₃ := (c₂.apply (.disconnect 0)).1
    let c₄ := (c₃.apply (.connect 0 ⟨"c1"⟩ .record " b ")).1
    let c₅ := (c₄.apply (.configSchema 1 ⟨"1", .object [], .string "y"⟩)).1
    let c₆ := (c₅.apply (.updateActive 0 (ModuleId.ofName "a") [0x31])).1
    let c₇ := (c₆.apply (.updateActive 0 (ModuleId.ofName "b") [0x32])).1
    let c₈ := (c₇.apply (.poll 0)).1
    c₈.world.deliveries.map (fun d => (d.recipient.serial, d.payload)) =
        [(1, [0x32]), (1, [0x22, 0x79, 0x22]), (0, [0x22, 0x78, 0x22])] ∧
      ∃ h, h.length = 8 ∧ OwnConfigs h c₈ := by
  intro c₀ c₁ c₂ c₃ c₄ c₅ c₆ c₇ c₈
  have hstates : c₀.Takes [.connect 0 ⟨"c1"⟩ .record "a", .configSchema 0 ⟨"1", .object [], .string "x"⟩,
        .disconnect 0, .connect 0 ⟨"c1"⟩ .record " b ",
        .configSchema 1 ⟨"1", .object [], .string "y"⟩, .updateActive 0 (ModuleId.ofName "a") [0x31],
        .updateActive 0 (ModuleId.ofName "b") [0x32], .poll 0] ∧
      0 + 1 = c₁.presence.faces.length ∧ c₃.presence.faces.length = 1 ∧
      1 + 1 = c₄.presence.faces.length ∧
      c₈.world.deliveries.map (fun d => (d.recipient.serial, d.payload)) =
        [(1, [0x32]), (1, [0x22, 0x79, 0x22]), (0, [0x22, 0x78, 0x22])] := by
    decide +kernel
  obtain ⟨htakes₀, hfirst, hone, hsecond, hdeliveries⟩ := hstates
  have hrun₀ : Run InTurn c₀ [] c₀ := .start
  obtain ⟨hrun₁, htakes₁⟩ := hrun₀.takes htakes₀ (by rintro k ⟨⟩) c₁ rfl
  obtain ⟨hrun₂, htakes₂⟩ := hrun₁.takes htakes₁ (last_not_replaced hfirst) c₂ rfl
  obtain ⟨hrun₃, htakes₃⟩ := hrun₂.takes htakes₂ trivial c₃ rfl
  -- The id comes back after its session disconnected.
  have hover : ∀ h, c₃.presence.Succeeds (Gone (h ++ [c₂.take (.disconnect 0)]))
      (.connect 0 ⟨"c1"⟩ .record " b ") := by
    intro h k hk _ _
    obtain rfl : k = 0 := by omega
    exact .inl (gone_concat.mpr (.inr rfl))
  obtain ⟨hrun₄, htakes₄⟩ := hrun₃.takes htakes₃ (hover _) c₄ rfl
  obtain ⟨hrun₅, htakes₅⟩ := hrun₄.takes htakes₄ (last_not_replaced hsecond) c₅ rfl
  obtain ⟨hrun₆, htakes₆⟩ := hrun₅.takes htakes₅ trivial c₆ rfl
  obtain ⟨hrun₇, htakes₇⟩ := hrun₆.takes htakes₆ trivial c₇ rfl
  obtain ⟨hrun₈, -⟩ := hrun₇.takes htakes₇ trivial c₈ rfl
  exact ⟨hdeliveries, _, rfl, only_own_configs hrun₈⟩

end Cluster

end ConfigRegistry
