import ConfigRegistry.Proofs.Sessions
import ConfigRegistry.Proofs.Subscribers

/-!
# Subscribers converge

Nodes share one store; they connect, subscribe, write, sweep and poll in any order, fail
while the store cannot be reached, read late and start over. Once a node has read the
whole log, every member of its rooms was last shown what the store now shows
(`Cluster.subscribers_converge`). Every step keeps members informed up to how far
their node has read; nothing is lost in between.
-/

namespace ConfigRegistry

open World (Aside Attempt Settles Informed)

variable {underway : Delivery → Prop} {marks : Nat → EventId}

namespace World

variable {w v : World} {s : Session} {n : Nat}

/-- A write of a node keeps members informed when it moves the tables. -/
theorem Informed.writes (h : w.Informed marks) {es : List Event} {t : Tables}
    (hm : w.store.live.Moves es t) : (w.write t).Informed marks :=
  h.stores (.moves hm rfl) rfl rfl rfl

/-- A change of what a session knows besides its module goes unnoticed. -/
theorem Informed.modifyPeer (h : w.Informed marks) {f : Peer → Peer}
    (hb : ∀ p, (f p).behaviour = p.behaviour)
    (hm : ∀ p, (f p).context.moduleId = p.context.moduleId) : (w.modifyPeer s f).Informed marks := by
  refine h.frame (.same rfl rfl) rfl (fun _ => UInt64.le_refl _) fun n r s' hs' => ⟨hs', ?_, ?_⟩
  · unfold hears
    rw [peer_modifyPeer s s' f Peer.behaviour (.inr hb)]
  · exact peer_modifyPeer s s' f (·.context.moduleId) (.inr hm) w

end World

namespace Cluster

variable {c : Cluster}

/-- What a run is made of here: connection ids and the ids of configs are not given out twice, and
besides the nodes nobody writes but variables and new inactive configs. -/
def Ordinary (c : Cluster) : Input → Prop
  | .connect _ id _ _ => ∀ k, k < c.presence.faces.length → c.presence.conn k ≠ id
  | .configSchema .. =>
    ∀ old ∈ c.world.store.live.configs, old.id ≠ .nth (c.world.issued + 1)
  | .call (.upsertVariable ..) => True
  | .call (.insertConfig cf) =>
    cf.active = false ∧ ∀ old ∈ c.world.store.live.configs, old.id ≠ cf.id
  | .call _ | .appendEventAt .. => False
  | _ => True

theorem Ordinary.managed {i : Input} (h : c.Ordinary i) : Managed i := by
  rintro call rfl
  cases call <;> first | exact trivial | exact h.elim

/-! ## Connecting and leaving -/

theorem peer_opened {n : Nat} {id : ConnectionId} {behaviour : Behaviour} {s : Session}
    (hs : s.serial < c.world.peers.length) :
    (c.opened n id behaviour).world.peer s = c.world.peer s := by
  have hget : (c.world.peers ++ [⟨id, behaviour, .empty, 0⟩])[s.serial]? =
      c.world.peers[s.serial]? := List.getElem?_append_left hs
  exact congrArg (·.getD default) hget

/-- Nobody joins a room by registering under a new id. -/
theorem members_connected {w : World} {n m : Nat} {s s' : Session} {name : String} {r : Room}
    (hsound : w.Sound) (hnew : (w.node n).rooms.isConnected s'.conn = false)
    (hs : s ∈ ((Lifecycle.connected n s' name w).node m).rooms.members r) :
    s ∈ (w.node m).rooms.members r := by
  rcases World.members_setRooms hs with hold | ⟨rfl, hmem⟩
  · exact hold
  · exact RoomIndex.members_register (hsound m) hnew hmem

theorem informed_opened (h : c.world.Informed marks) (hsound : c.world.Sound)
    (hnamed : c.presence.Named) (n : Nat) (id : ConnectionId) (behaviour : Behaviour) :
    (c.opened n id behaviour).world.Informed marks := by
  refine h.frame (.same rfl rfl) rfl (fun _ => UInt64.le_refl _) fun m r s hs => ?_
  have hlt := (registered_session hnamed ((RoomIndex.mem_members (hsound m)).mp hs).1).1
  refine ⟨hs, ?_, ?_⟩
  · unfold World.hears
    rw [peer_opened hlt]
  · rw [peer_opened hlt]

theorem informed_connected (h : c.world.Informed marks) (hsound : c.world.Sound)
    (hnamed : c.presence.Named) {n : Nat} {id : ConnectionId} {behaviour : Behaviour}
    (hid : ∀ k, k < c.presence.faces.length → c.presence.conn k ≠ id) (name : String) :
    (Lifecycle.connected n ⟨c.world.peers.length, id⟩ name
      (c.opened n id behaviour).world).Informed marks := by
  have hopened := informed_opened h hsound hnamed n id behaviour
  have hregistered : ∀ m, ∀ s ∈ (c.world.node m).rooms.sessions,
      s.serial < c.world.peers.length ∧ s = c.session s.serial :=
    fun m s hs => registered_session hnamed hs
  have hnew : (c.world.node n).rooms.isConnected id = false := by
    refine Bool.eq_false_iff.mpr fun hconn => ?_
    obtain ⟨s, hs, rfl⟩ := RoomIndex.isConnected_iff.mp hconn
    obtain ⟨hlt, heq⟩ := hregistered n s hs
    rw [← presence_faces] at hlt
    refine hid s.serial hlt ?_
    rw [presence_conn]
    exact (congrArg Session.conn heq).symm
  refine hopened.frame (.moves (Tables.moves_unshown ⟨rfl, rfl⟩ rfl rfl) rfl) rfl ?_ ?_
  · intro m
    unfold Lifecycle.connected
    rw [World.cursor_setRooms]
    exact UInt64.le_refl _
  · intro m r s hs
    have hold : s ∈ (c.world.node m).rooms.members r :=
      members_connected (w := (c.opened n id behaviour).world) (hsound.of_nodes rfl) hnew hs
    have hserial : s.serial ≠ c.world.peers.length :=
      Nat.ne_of_lt (hregistered m s ((RoomIndex.mem_members (hsound m)).mp hold).1).1
    refine ⟨hold, ?_, ?_⟩
    · unfold World.hears
      exact congrArg (decide <| · = Behaviour.record)
        (World.peer_modifyPeer ⟨c.world.peers.length, id⟩ s _ Peer.behaviour (.inl hserial)
          ((c.opened n id behaviour).world.ticked.write _))
    · exact World.peer_modifyPeer ⟨c.world.peers.length, id⟩ s _ (·.context.moduleId) (.inl hserial)
        ((c.opened n id behaviour).world.ticked.write _)

/-- A row under the connection of a session is of its module. -/
theorem row_module (hnamed : c.presence.Named) {k : Nat} (hk : k < c.world.peers.length)
    {b old : Backend} (hconn : b.connectionId = (c.session k).conn)
    (hm : (c.world.peer (c.session k)).context.moduleId = some b.moduleId)
    (hold : old ∈ c.world.store.live.backends) (hc : old.connectionId = b.connectionId) :
    old.moduleId = b.moduleId := by
  have hlt : k < c.presence.faces.length := presence_faces ▸ hk
  have hrow : (c.presence.context k).moduleId = some old.moduleId := by
    refine hnamed.row hold hlt ?_
    rw [hc, hconn, presence_conn]
  rw [presence_context, hm] at hrow
  exact (Option.some.inj hrow).symm

/-- A departure deletes no more than the backend of the session, and announces it. -/
theorem moves_departed {ctx : SessionContext} {w : World} {r : Except LifecycleError Unit} {t : Tables}
    (hd : Lifecycle.Departure ctx w r t)
    (hsame : ∀ b, ctx.backend = some b → ∀ old ∈ w.store.live.backends,
      old.connectionId = b.connectionId → old.moduleId = b.moduleId) :
    ∃ es, w.store.live.Moves es t := by
  cases hd with
  | unreachable _ _ => exact ⟨[], .refl _⟩
  | unknown _ _ => exact ⟨[], .refl _⟩
  | marks _ _ now =>
    refine ⟨[], ?_⟩
    unfold Lifecycle.marked
    split
    · exact .refl _
    · exact Tables.moves_unshown ⟨rfl, rfl⟩ rfl rfl
  | withdraws _ hb now now' ht => exact ⟨_, Tables.moves_withdrawn ht (hsame _ hb)⟩

/-- A session that leaves moves the tables. -/
theorem moves_left (hnamed : c.presence.Named) {k : Nat} (hk : k < c.world.peers.length)
    {r : Except LifecycleError Unit} {t : Tables}
    (hd : Lifecycle.Departure (c.world.peer (c.session k)).context c.world r t) :
    ∃ es, c.world.store.live.Moves es t := by
  refine moves_departed hd fun b hb old hold hc => ?_
  rw [← presence_context] at hb
  refine row_module hnamed hk ?_ ?_ hold hc
  · rw [hnamed.owned.held k b hb, presence_conn]
  · rw [← presence_context]
    exact hnamed.held k b hb

theorem informed_left (h : c.world.Informed marks) (hsound : c.world.Sound)
    (hnamed : c.presence.Named) {k n : Nat} (hk : k < c.world.peers.length) {w : World}
    {r : Except LifecycleError Unit} (hl : Lifecycle.Left n (c.session k) c.world r w) :
    w.Informed marks := by
  obtain ⟨readings, t, -, hd, rfl⟩ := hl.departed
  obtain ⟨es, hm⟩ := moves_left hnamed hk hd
  have hrooms : (({ c.world with readings := readings } : World).setRooms n
      ((c.world.node n).rooms.unregister (c.session k).conn).2).Informed marks := by
    refine h.frame (.same rfl rfl) rfl (fun m => ?_) fun m r s hs => ⟨?_, rfl, rfl⟩
    · rw [World.cursor_setRooms]
      exact UInt64.le_refl _
    · rcases World.members_setRooms hs with hold | ⟨rfl, hmem⟩
      · exact hold
      · exact (RoomIndex.members_unregister (hsound m) hmem).1
  have hpeer := hrooms.modifyPeer (s := c.session k)
    (f := fun p => { p with context := { p.context with backend := none } }) (fun _ => rfl) fun _ => rfl
  exact hpeer.writes hm

/-! ## Subscribing -/

theorem informed_subscribing {n : Nat} {s : Session} {w v : World} {ks : List Notification}
    (h : w.Informed marks) (hsound : w.Sound)
    (hs : ∀ s' ∈ (w.node n).rooms.sessions, s'.conn = s.conn → s' = s)
    (hks : ∀ k ∈ ks, ∀ m, k ≠ .config m) (hsub : Lifecycle.Subscribing n underway s w ks v) :
    v.Informed marks ∧ (v.node n).rooms.sessions = (w.node n).rooms.sessions := by
  induction hsub with
  | start => exact ⟨h, rfl⟩
  | aside _ ha ih =>
    obtain ⟨hinformed, hsessions⟩ := ih hks
    refine ⟨hinformed.aside ha, ?_⟩
    obtain ⟨t, r, i, q, ps, ds, rfl, -⟩ := ha
    exact hsessions
  | @joins ks v k p hsub hk _ ih =>
    obtain ⟨hinformed, hsessions⟩ := ih fun k hk => hks k (List.mem_append_left _ hk)
    have hfair : v.Fair s k p := hinformed.fair hk fun m hm =>
      absurd hm (hks k (List.mem_append_right _ (List.mem_singleton_self k)) m)
    refine ⟨hinformed.joins (sound_subscribing hsound hsub) hfair (hsessions ▸ hs), ?_⟩
    rw [← hsessions]
    rcases World.node_setRooms n n ((v.node n).rooms.join k.room s.conn).2 (v.accept s k.message p)
      with hnode | ⟨-, hnode⟩
    · exact congrArg (fun st : NodeState => st.rooms.sessions) hnode
    · refine (congrArg (fun st : NodeState => st.rooms.sessions) hnode).trans ?_
      exact RoomIndex.join_sessions _ _ _

theorem wanted_no_config {r : ModuleRequirements} {ks : List Notification}
    (hks : ks <+: Lifecycle.wanted r) : ∀ k ∈ ks, ∀ m, k ≠ .config m := by
  rintro k hk m rfl
  have hmem := hks.subset hk
  unfold Lifecycle.wanted Lifecycle.backendsOf at hmem
  rcases List.mem_append.mp hmem with hmem | hmem
  · obtain ⟨name, -, hname⟩ := List.mem_map.mp hmem
    cases hname
  · split at hmem <;> simp at hmem

/-! ## Declaring a config schema -/

/-- The first active config of a module is the active one. -/
theorem activeConfig_insertConfig {t : Tables} {m : ModuleId} {cf : Config}
    (hnone : t.activeConfig m = none) (hm : cf.moduleId = m) (ha : cf.active = true) :
    (t.insertConfig cf).activeConfig m = some cf := by
  have herase : (Table.erase Config.id cf.id t.configs).find?
      (fun c => decide (c.moduleId = m) && c.active) = none := by
    refine List.find?_eq_none.mpr fun c hc => ?_
    exact List.find?_eq_none.mp hnone c (Table.mem_erase.mp hc).1
  change (Table.put Config.id cf t.configs).find? _ = some cf
  rw [Table.put, List.find?_append, herase, List.find?_singleton]
  simp [hm, ha]

/-- The config that a session is offered is the active one of its module from then on. -/
theorem offering_active {m : ModuleId} {d : ConfigSchemaDeclaration} {issued : Nat} {t u : Tables}
    {cf : Config} (ho : Lifecycle.Offering m d issued t cf u) : u.activeConfig m = some cf := by
  cases ho with
  | found hactive => exact hactive
  | created hnone hc =>
    obtain ⟨names, -, -, rfl⟩ := hc.stored
    exact activeConfig_insertConfig hnone hc.isModule hc.active

/-- The config that a session is offered is shown, and storing it changes nothing else. -/
theorem moves_offered {m : ModuleId} {d : ConfigSchemaDeclaration} {issued : Nat} {t u : Tables}
    {schema : ConfigSchema} {cf : Config}
    (hfresh : ∀ old ∈ t.configs, old.id ≠ .nth (issued + 1))
    (ho : Lifecycle.Offering m d issued (t.upsertSchema schema) cf u) :
    t.Moves [] u ∧ u.snapshot (.config m) = .ok cf.data ∧ cf.moduleId = m := by
  have hactive := offering_active ho
  have hshown : u.snapshot (.config m) = .ok cf.data :=
    Tables.snapshot_config_ok.mpr ⟨cf, hactive, rfl⟩
  refine ⟨?_, hshown, (Tables.activeConfig_some hactive).2.1⟩
  cases ho with
  | found _ => exact Tables.moves_unshown ⟨rfl, rfl⟩ rfl rfl
  | created _ hc =>
    obtain ⟨names, -, -, rfl⟩ := hc.stored
    have hnew : ∀ old ∈ t.configs, old.id ≠ cf.id := by
      rw [hc.id]
      exact hfresh
    exact Tables.moves_insertConfig hnew ⟨rfl, rfl⟩ rfl rfl

theorem informed_declared {n : Nat} {s : Session} {d : ConfigSchemaDeclaration} {w v : World}
    {o : Option (Except LifecycleError Unit)} (h : w.Informed marks) (hsound : w.Sound)
    (hs : ∀ s' ∈ (w.node n).rooms.sessions, s'.conn = s.conn → s' = s)
    (hfresh : ∀ old ∈ w.store.live.configs, old.id ≠ .nth (w.issued + 1))
    (hd : Lifecycle.Declared n underway s d w o v) : v.Informed marks := by
  have hschema : ∀ schema, w.store.live.Moves [] (w.store.live.upsertSchema schema) :=
    fun _ => Tables.moves_unshown ⟨rfl, rfl⟩ rfl rfl
  cases hd with
  | refused ha _ => exact h.aside ha
  | invalid _ _ _ ha _ => exact (h.writes (hschema _)).aside ha
  | missed _ _ hc _ ha _ => exact (h.writes (moves_offered hfresh hc).1).aside ha
  | @joins m schema cf t v hm _ hc ha _ =>
    obtain ⟨hmoves, hshown, rfl⟩ := moves_offered hfresh hc
    have hwritten := h.writes hmoves
    have hlive : v.store.live = t := ha.live
    have hfair : v.Fair s (.config cf.moduleId) cf.data := by
      refine ⟨⟨t, hshown⟩, .inl (hlive ▸ hshown), fun m' hm' => ?_⟩
      obtain rfl := Notification.config.inj hm'
      rw [World.context_of_faces (w := w) ha.faces]
      exact hm
    have hsound' : v.Sound := (hsound.of_nodes (v := w.write t) rfl).aside ha
    refine (hwritten.aside ha).joins hsound' hfair ?_
    obtain ⟨time, r, i, q, ps, ds, rfl, -⟩ := ha
    exact hs

/-! ## Every step -/

theorem informed_removed (h : c.world.Informed marks) (hnamed : c.presence.Named) {checked : Nat}
    {bs : List Backend} {r : SweepReport} {w : World}
    (hbs : ∀ b ∈ bs, b ∈ c.world.store.live.backends)
    (hr : Sweep.Removed checked bs c.world.served r w) : w.Informed marks := by
  have hserved : c.world.served.Informed marks :=
    h.stores (.same rfl rfl) rfl rfl rfl
  cases hr with
  | nothing _ => exact hserved
  | some hne ht =>
    have hticked : c.world.served.ticked.Informed marks :=
      hserved.stores (.same rfl rfl) rfl rfl rfl
    exact hticked.writes (Tables.moves_removed hne hnamed.owned.keyed hbs ht)

theorem informed_called {call : Store.Call} (hi : c.Ordinary (.call call)) (h : c.world.Informed marks)
    {w : World} {r : Except StoreError call.Result} (hr : c.world.perform call = some (w, r)) :
    w.Informed marks := by
  cases World.performed hr with
  | served _ hserve =>
    cases call with
    | upsertVariable name value =>
      cases hserve
      have hmoves : c.world.store.live.Moves [] (c.world.store.live.upsertVariable name value) :=
        Tables.moves_unshown ⟨rfl, rfl⟩ rfl rfl
      exact h.writes hmoves
    | insertConfig cf =>
      cases hserve
      have hmoves : c.world.store.live.Moves [] (c.world.store.live.insertConfig cf) :=
        Tables.moves_insertConfig hi.2 ⟨rfl, rfl⟩ rfl rfl
      exact h.writes hmoves
    | _ => exact hi.elim
  | failed _ =>
    split
    · exact h.stores (.same rfl rfl) rfl rfl rfl
    · exact h

theorem informed_ready (h : c.world.Informed marks) (hnamed : c.presence.Named) {k : Nat}
    (hk : k < c.world.peers.length) {b : Backend} {w : World}
    (hx : Lifecycle.Readied (c.place (c.home k)) (c.session k) c.world b w) : w.Informed marks := by
  obtain ⟨-, hconn, -, hm, e, t, ht, rfl⟩ := hx
  have hmoves : c.world.store.live.Moves [e] t :=
    Tables.moves_insertBackend ht fun old hold hc => row_module hnamed hk hconn hm hold hc
  have hticked : c.world.ticked.ticked.Informed marks :=
    h.stores (.same rfl rfl) rfl rfl rfl
  exact (hticked.writes hmoves).modifyPeer (fun _ => rfl) fun _ => rfl

/-- A new worker starts to read from the start of the log. -/
theorem informed_restarted (h : c.world.Informed marks) (n : Nat) :
    (c.world.modifyNode n fun st => { st with cursor := 0 }).Informed marks := by
  refine h.frame (.same rfl rfl) rfl (fun m => ?_) fun m r s hs => ⟨?_, rfl, rfl⟩
  · rcases World.node_modifyNode_cases n m (fun st => { st with cursor := 0 }) c.world with
      hnode | ⟨-, hnode⟩
    · rw [hnode]
      exact UInt64.le_refl _
    · rw [hnode]
      exact UInt64.zero_le
  · have hrooms : ((c.world.modifyNode n fun st => { st with cursor := 0 }).node m).rooms =
        (c.world.node m).rooms := World.rooms_modifyNode fun _ => rfl
    exact hrooms ▸ hs

/-- What a step comes to keeps members informed, up to polls. -/
theorem effect_informed {i : Input} (hk : c.Knows i) (hi : c.Ordinary i) (hsound : c.world.Sound)
    (hnamed : c.presence.Named) (h : c.world.Informed marks) (hpoll : ∀ n, i ≠ .poll n)
    {o : Option i.Reply} {w : World} (heff : c.Effect underway i o w) : w.Informed marks := by
  -- A failure leaves asides only; a success moves the tables, and moves are announced.
  cases i with
  | connect n id behaviour name =>
    have hopened := informed_opened h hsound hnamed n id behaviour
    refine World.Attempt.elim heff (fun _ ha => hopened.aside ha) ?_
    rintro _ _ ⟨-, -, rfl⟩
    exact informed_connected h hsound hnamed hi _
  | requirements k r =>
    obtain ⟨ks, hks, hs, -⟩ := heff
    exact (informed_subscribing h hsound (fun s hs hc => session_of_conn hnamed hs hk hc)
      (wanted_no_config hks) hs).1
  | configSchema k d =>
    exact informed_declared h hsound (fun s hs hc => session_of_conn hnamed hs hk hc) hi heff
  | ready k d =>
    exact World.Attempt.elim heff (fun _ ha => h.aside ha) fun _ _ hx => informed_ready h hnamed hk hx
  | disconnect k =>
    obtain ⟨r, -, hl⟩ := heff
    exact informed_left h hsound hnamed hk hl
  | updateActive n m data =>
    refine World.Attempt.elim (heff default) (fun _ ha => h.aside ha) ?_
    rintro _ _ ⟨-, w₁, t, ha, hupdated, rfl⟩
    obtain ⟨e, hpublished⟩ := Tables.publishes_updated h.synced.live.keyed hupdated
    exact (h.aside ha).writes (ha.live ▸ hpublished.moves)
  | activate n id =>
    refine World.Attempt.elim (heff default) (fun _ ha => h.aside ha) ?_
    rintro _ _ ⟨-, w₁, t, ha, hactivated, rfl⟩
    obtain ⟨e, hpublished⟩ := Tables.publishes_activated hactivated
    exact (h.aside ha).writes (ha.live ▸ hpublished.moves)
  | clearPhantoms n =>
    refine World.Attempt.elim (heff default) (fun _ ha => h.aside ha) fun _ _ hx => ?_
    refine informed_removed h hnamed (fun b hb => ?_) hx.2
    exact (List.mem_filter.mp ((mem_owned n).mpr (List.mem_filter.mp hb).1)).1
  | deleteOwn n =>
    refine World.Attempt.elim (heff default) (fun _ ha => h.aside ha) fun _ _ hx => ?_
    exact informed_removed h hnamed (fun b hb => (List.mem_filter.mp ((mem_owned n).mpr hb)).1) hx.2
  | poll n => exact absurd rfl (hpoll n)
  | restart n =>
    obtain rfl := heff
    exact informed_restarted h n
  | call call =>
    obtain ⟨r, hr, -⟩ := heff
    exact informed_called hi h hr
  | appendEventAt p at_ => exact hi.elim
  | lag =>
    obtain rfl := heff
    exact h.stores (.views rfl (.inr rfl)) rfl rfl rfl
  | catchUp =>
    obtain rfl := heff
    exact h.stores (.views rfl (.inl rfl)) rfl rfl rfl
  | setAvailable b =>
    obtain rfl := heff
    exact h.stores (.same rfl rfl) rfl rfl rfl

/-! ## Runs -/

variable {h : List Taken} {profiles : List Profile} {at_ : Timestamp} {x : Taken} {n : Nat}

/-- How far a node ever read the log, also before its worker was replaced. -/
def reached (h : List Taken) (n : Nat) : EventId :=
  h.foldl (fun id x => max id (x.after.world.node n).cursor) 0

theorem reached_concat : reached (h ++ [x]) n = max (reached h n) (x.after.world.node n).cursor := by
  simp [reached]

theorem reached_mono (h l : List Taken) : reached h n ≤ reached (h ++ l) n := by
  induction l generalizing h with
  | nil =>
    rw [List.append_nil]
    exact UInt64.le_refl _
  | cons x rest ih =>
    have hrest := ih (h ++ [x])
    rw [List.append_assoc, List.singleton_append] at hrest
    refine UInt64.le_trans ?_ hrest
    rw [reached_concat]
    exact (Worker.le_max _ _).1

/-- A step behind which no cursor is further than any was before adds nothing. -/
theorem reached_same (hx : ∀ n, (x.after.world.node n).cursor ≤ reached h n) :
    reached (h ++ [x]) = reached h := by
  funext n
  rw [reached_concat, Worker.max_eq]
  split
  · exact UInt64.le_antisymm (hx n) ‹_›
  · rfl

/-- What a cluster keeps on its way to convergence. -/
structure Converging (profiles : List Profile) (h : List Taken) (c : Cluster) : Prop where
  steady : c.Steady fun _ => True
  sound : c.world.Sound
  named : c.presence.Named
  housed : c.presence.Housed
  profiles : c.presence.places.map Prod.fst = profiles
  informed : c.world.Informed (reached h)

theorem start_node (n : Nat) : ((Cluster.start profiles at_).world.node n).rooms = .empty ∧
    ((Cluster.start profiles at_).world.node n).cursor = 0 := by
  unfold World.node start world World.initial
  simp only [List.getElem?_map]
  cases profiles[n]? with
  | none => exact ⟨rfl, rfl⟩
  | some q => exact ⟨rfl, rfl⟩

theorem start_converging : Converging profiles [] (Cluster.start profiles at_) where
  steady := start_steady _ _
  sound := start_sound _ _
  named := start_named
  housed := start_housed
  profiles := by
    change ((profiles.map (NodeState.fresh · true)).map fun st =>
      (st.profile, st.rooms.sessions)).map Prod.fst = profiles
    simp [NodeState.fresh, Function.comp_def]
  informed := by
    have hnobody : ∀ n r, ∀ s, s ∉ ((Cluster.start profiles at_).world.node n).rooms.members r := by
      intro n r s hs
      rw [(start_node n).1] at hs
      cases hs
    constructor
    · exact Store.empty_synced
    · intro n
      rw [(start_node n).2]
      exact UInt64.le_refl _
    · exact fun n => UInt64.le_refl _
    · exact fun n m s hs => absurd hs (hnobody n _ s)
    · exact fun n k s hs => absurd hs (hnobody n _ s)

/-- The worker of a node is one of those that were set up. -/
theorem worker_mem (hp : c.presence.places.map Prod.fst = profiles) (hn : n < c.world.nodes.length) :
    c.profile n ∈ profiles := by
  rw [← hp]
  have hget : c.world.nodes[n]? = some c.world.nodes[n] := List.getElem?_eq_getElem hn
  have hprofile : c.profile n = c.world.nodes[n].profile := by
    unfold profile World.node
    rw [hget]
    rfl
  rw [hprofile]
  exact List.mem_map.mpr ⟨_, List.mem_map_of_mem (List.getElem_mem hn), rfl⟩

theorem Converging.worker (ht : Converging profiles h c) (hn : n < c.world.nodes.length) :
    c.profile n ∈ profiles := worker_mem ht.profiles hn

/-- Only the node that polls moves its mark, and no further than its cursor. -/
theorem reached_polled (hread : ∀ j, (c.world.node j).cursor ≤ reached h j)
    (hsame : ∀ j, j ≠ n → (x.after.world.node j).cursor = (c.world.node j).cursor) :
    (∀ j, (x.after.world.node j).cursor ≤ reached (h ++ [x]) j) ∧
      ∀ j id, id ≤ reached (h ++ [x]) j →
        id ≤ reached h j ∨ j = n ∧ id ≤ (x.after.world.node n).cursor := by
  constructor
  · intro j
    rw [reached_concat]
    exact (Worker.le_max _ _).2
  · intro j id hid
    rw [reached_concat, Worker.max_eq] at hid
    split at hid
    · by_cases hj : j = n
      · exact .inr ⟨hj, hj ▸ hid⟩
      · rw [hsame j hj] at hid
        exact .inl (UInt64.le_trans hid (hread j))
    · exact .inl hid

theorem Converging.informed_step (ht : Converging profiles h c)
    (horder : ∀ q ∈ profiles, q.worker.order = .oldestFirst) {i : Input} (hk : c.Knows i)
    (hi : c.Ordinary i) (hov : (c.apply i).2 ≠ .overflow) :
    (c.take i).after.world.Informed (reached (h ++ [c.take i])) := by
  obtain ⟨w, heff, hset, -⟩ := apply_effect ht.steady i (fun _ _ _ _ _ _ _ => trivial) hov
  have hstill := ht.steady.still
  generalize (c.apply i).2.value? = o at heff
  change Settles _ w (c.take i).after.world at hset
  generalize c.take i = x at hset ⊢
  -- A step without messages of broadcasts leaves all marks where they are.
  have hunmoved : w.Still → w.Informed (reached h) → x.after.world.Informed (reached (h ++ [x])) := by
    intro hw hinformed
    have hafter : x.after.world.Informed (reached h) :=
      hinformed.aside (s := default) (.passes (hset.passes hw.outbox))
    rw [reached_same hafter.read]
    exact hafter
  by_cases hpoll : ∃ n, i = .poll n
  · obtain ⟨n, rfl⟩ := hpoll
    rcases heff with ⟨-, -, rfl⟩ | ⟨-, outcome, -, hp⟩
    · exact hunmoved hstill ht.informed
    · have hsame : ∀ j, j ≠ n → (x.after.world.node j).cursor = (c.world.node j).cursor := by
        intro j hj
        have hnode : x.after.world.node j = w.node j := by
          unfold World.node
          rw [hset.nodes]
        rw [hnode]
        cases hp with
        | idle _ => rfl
        | dispatched _ failed reads =>
          rw [World.node_modifyNode_ne _ n _ hj]
          rfl
      obtain ⟨hread, hmarks⟩ := reached_polled ht.informed.read hsame
      exact ht.informed.polled hstill.outbox hk (horder _ (ht.worker hk)) hp hset hread hmarks
  · have hother : ∀ n, i ≠ .poll n := fun n hn => hpoll ⟨n, hn⟩
    exact hunmoved (effect_still hstill hother heff)
      (effect_informed hk hi ht.sound ht.named ht.informed hother heff)

theorem Converging.step (ht : Converging profiles h c)
    (horder : ∀ q ∈ profiles, q.worker.order = .oldestFirst) {i : Input} (hk : c.Knows i)
    (hi : c.Ordinary i) (hov : (c.apply i).2 ≠ .overflow) :
    Converging profiles (h ++ [c.take i]) (c.apply i).1 := by
  have hu : ∀ n, i = .poll n → ∀ l k,
      Simulation.Announced (fun _ => True) c.world (c.world.notices n l k) :=
    fun _ _ _ _ _ _ _ => trivial
  obtain ⟨-, -, -, hsteady⟩ := apply_effect ht.steady i hu hov
  have hs := apply_presence ht.steady i hu hi.managed hov
  have hknows := presence_knows hk
  refine ⟨hsteady, apply_sound ht.steady i hu hov ht.sound, ?_,
    ht.housed.step ht.named.owned hknows hs, hs.profiles.trans ht.profiles,
    ht.informed_step horder hk hi hov⟩
  refine ht.named.step ht.housed hknows ?_ hs
  rintro n id behaviour name rfl
  exact hi

theorem run_converging (horder : ∀ q ∈ profiles, q.worker.order = .oldestFirst)
    (hrun : Run (fun _ c i => c.Ordinary i) (Cluster.start profiles at_) h c) :
    Converging profiles h c := by
  induction hrun with
  | start => exact start_converging
  | step _ i hk hi hov ih => exact ih.step horder hk hi hov

/-! ## Convergence -/

/-- Whether a step is a poll of a node that succeeded and found nothing to read. -/
def Taken.idle (n : Nat) : Taken → Bool
  | ⟨_, .poll m, some (.ok outcome), _⟩ => m = n && outcome.fetched = 0
  | _ => false

/-- A node has read everything: it found nothing to read in a log that is still the whole log. So it
is when its last poll read nothing, from a store that does not lag, and nothing was written since. -/
def Caught (n : Nat) (h : List Taken) (c : Cluster) : Prop :=
  ∃ x ∈ h, x.idle n = true ∧
    (x.before.world.store.view .stale).events = c.world.store.live.events

/-- A poll that found nothing had nothing to fetch. -/
theorem fetched_of_idle {i : Input} (hc : c.Steady fun _ => True) (hk : c.Knows i)
    (hov : (c.apply i).2 ≠ .overflow) (hidle : (c.take i).idle n = true) :
    n < c.world.nodes.length ∧ Worker.fetched n (c.profile n).worker c.world = [] := by
  obtain ⟨w, heff, -⟩ := apply_effect hc i (fun _ _ _ _ _ _ _ => trivial) hov
  cases i with
  | poll m =>
    unfold take at hidle
    generalize (c.apply (.poll m)).2.value? = o at heff hidle
    rcases heff with ⟨-, rfl, -⟩ | ⟨-, outcome, rfl, hp⟩
    · cases hidle
    · obtain ⟨rfl, hzero⟩ : m = n ∧ outcome.fetched = 0 := by
        simpa [Taken.idle] using hidle
      refine ⟨hk, ?_⟩
      cases hp with
      | idle hnone => exact hnone
      | dispatched _ _ _ => exact List.length_eq_zero_iff.mp hzero
  | _ => cases hidle

/-- Nothing is pending behind the cursor of a poll that found nothing. -/
theorem idle_pending {i : Input} (hc : c.Steady fun _ => True) (hk : c.Knows i)
    (hworker : n < c.world.nodes.length →
      (c.profile n).worker.order = .oldestFirst ∧ 1 ≤ (c.profile n).worker.limit)
    (hov : (c.apply i).2 ≠ .overflow) (hidle : (c.take i).idle n = true) {e : Event}
    (he : e ∈ (c.world.store.view .stale).events) : e.id ≤ (c.world.node n).cursor := by
  obtain ⟨hn, hnone⟩ := fetched_of_idle hc hk hov hidle
  obtain ⟨-, hlimit⟩ := hworker hn
  refine UInt64.not_lt.mp fun hlt => ?_
  have hpending : e ∈ (c.world.store.view .stale).pending (c.world.node n).cursor :=
    Tables.mem_pending.mpr ⟨he, hlt⟩
  rw [Worker.fetched, Tables.eventsAfter_eq_nil hlimit,
    Tables.due_eq_pending (succ_lt_size hlt)] at hnone
  rw [hnone] at hpending
  cases hpending

/-- Subscribers converge: in every run, once a node has read everything, what each recording member
of one of its rooms was shown last is what the store shows. -/
theorem subscribers_converge
    (hworkers : ∀ q ∈ profiles, q.worker.order = .oldestFirst ∧ 1 ≤ q.worker.limit)
    (hrun : Run (fun _ c i => c.Ordinary i) (Cluster.start profiles at_) h c)
    (hcaught : Caught n h c) {k : Notification} {s : Session}
    (hs : s ∈ (c.world.node n).rooms.members k.room) (hh : c.world.hears s = true) :
    ∃ p, c.world.store.live.snapshot k = .ok p ∧ LastShown s k c.world.deliveries p := by
  have horder : ∀ q ∈ profiles, q.worker.order = .oldestFirst := fun q hq => (hworkers q hq).1
  obtain ⟨p, hlast, hp⟩ := (run_converging horder hrun).informed.shown n k s hs hh
  refine ⟨p, hp.resolve_right ?_, hlast⟩
  rintro ⟨e, he, -, hlt⟩
  obtain ⟨x, hx, hidle, hlog⟩ := hcaught
  obtain ⟨h₁, h₂, rfl, hrun₁, hk, -, hov, heq⟩ := hrun.mem hx
  have ht := run_converging horder hrun₁
  rw [heq] at hidle
  rw [← hlog] at he
  have hcursor : e.id ≤ (x.before.world.node n).cursor :=
    idle_pending ht.steady hk (fun hn => hworkers _ (ht.worker hn)) hov hidle he
  have hmark : (x.before.world.node n).cursor ≤ reached (h₁ ++ x :: h₂) n :=
    UInt64.le_trans (ht.informed.read n) (reached_mono h₁ _)
  exact UInt64.not_le.mpr hlt (UInt64.le_trans hcursor hmark)

/-- A session of one node requires a module and the routes; the module becomes ready on another
node; the first node polls until it finds nothing. -/
theorem subscriber_shown_ready :
    let c₀ := Cluster.start [⟨⟨"n1"⟩, ⟨2000, 2000⟩, ⟨1, .oldestFirst⟩⟩,
      ⟨⟨"n2"⟩, ⟨2000, 2000⟩, ⟨1, .oldestFirst⟩⟩] default
    let c₁ := (c₀.apply (.connect 0 ⟨"c1"⟩ .record "a")).1
    let c₂ := (c₁.apply (.requirements 0 ⟨["b"], true⟩)).1
    let c₃ := (c₂.apply (.connect 1 ⟨"c2"⟩ .record "b")).1
    let c₄ := (c₃.apply (.ready 1 ⟨"10.0.0.1:80", "", "", "", [], [], none⟩)).1
    let c₅ := (c₄.apply (.poll 0)).1
    let c₆ := (c₅.apply (.poll 0)).1
    c₆.world.store.live.backends.length = 1 ∧
      ∃ p, c₆.world.store.live.snapshot (.backends (ModuleId.ofName "b")) = .ok p ∧
        LastShown (c₆.session 0) (.backends (ModuleId.ofName "b")) c₆.world.deliveries p := by
  intro c₀ c₁ c₂ c₃ c₄ c₅ c₆
  have hstates : c₀.Takes [.connect 0 ⟨"c1"⟩ .record "a", .requirements 0 ⟨["b"], true⟩,
        .connect 1 ⟨"c2"⟩ .record "b", .ready 1 ⟨"10.0.0.1:80", "", "", "", [], [], none⟩, .poll 0,
        .poll 0] ∧
      (∀ k, k < c₂.presence.faces.length → c₂.presence.conn k ≠ ⟨"c2"⟩) ∧
      c₆.world.store.live.backends.length = 1 ∧
      (c₅.take (.poll 0)).idle 0 = true ∧
      ((c₅.take (.poll 0)).before.world.store.view .stale).events = c₆.world.store.live.events ∧
      c₆.session 0 ∈
        (c₆.world.node 0).rooms.members (Notification.backends (ModuleId.ofName "b")).room ∧
      c₆.world.hears (c₆.session 0) = true := by
    decide +kernel
  obtain ⟨htakes₀, hnew, hstored, hidle, hlog, hmember, hhears⟩ := hstates
  have hrun₀ : Run (fun _ c i => c.Ordinary i) c₀ [] c₀ := .start
  have hfirst : c₀.Ordinary (.connect 0 ⟨"c1"⟩ .record "a") := by rintro k ⟨⟩
  obtain ⟨hrun₁, htakes₁⟩ := hrun₀.takes htakes₀ hfirst c₁ rfl
  obtain ⟨hrun₂, htakes₂⟩ := hrun₁.takes htakes₁ trivial c₂ rfl
  obtain ⟨hrun₃, htakes₃⟩ := hrun₂.takes htakes₂ hnew c₃ rfl
  obtain ⟨hrun₄, htakes₄⟩ := hrun₃.takes htakes₃ trivial c₄ rfl
  obtain ⟨hrun₅, htakes₅⟩ := hrun₄.takes htakes₄ trivial c₅ rfl
  obtain ⟨hrun₆, -⟩ := hrun₅.takes htakes₅ trivial c₆ rfl
  refine ⟨hstored, subscribers_converge (n := 0) (by decide) hrun₆ ?_ hmember hhears⟩
  exact ⟨c₅.take (.poll 0), List.mem_append_right _ (List.mem_singleton_self _), hidle, hlog⟩

end Cluster

end ConfigRegistry
