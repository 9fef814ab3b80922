import ConfigRegistry.Proofs.Ownership

/-!
# Connections that name their sessions

While no connection id is given out twice in a cluster, a connection id tells the session
that registered under it, and a row the session and the module that it belongs to
(`Presence.Named`). Every step keeps this, also those of sessions that disconnected.

Even where ids are given out again, a session keeps its serial number, its connection id, its node
and its peer (`Presence.Grows`), and is registered at its node only (`Presence.Rooted`).
-/

namespace ConfigRegistry

namespace Presence

variable {p p' : Presence} {i : Cluster.Input} {o : Option i.Reply} {k n : Nat} {b : Backend}
  {id : ConnectionId} {behaviour : Behaviour} {ctx : SessionContext}

/-- No two sessions have one connection id. -/
def Distinct (p : Presence) : Prop :=
  ∀ j k, j < p.faces.length → k < p.faces.length → p.conn j = p.conn k → j = k

theorem faces_opened : (p.opened n id behaviour ctx).faces.length = p.faces.length + 1 := by
  simp [Presence.opened]

theorem faces_holding {b : Option Backend} : (p.holding k b).faces.length = p.faces.length := by
  simp [Presence.holding]

/-- A session that is not the last one is as it was before that one opened. -/
theorem session_opened (hk : k ≠ p.faces.length) :
    (p.opened n id behaviour ctx).session k = p.session k := by
  unfold session
  rw [conn_opened, if_neg hk]

theorem session_holding {j : Nat} {b : Option Backend} :
    (p.holding k b).session j = p.session j := by
  unfold session
  rw [conn_holding]

theorem moduleId_holding {j : Nat} (hk : k < p.faces.length) {b : Option Backend} :
    ((p.holding k b).context j).moduleId = (p.context j).moduleId := by
  rw [context_holding p k j b hk]
  split
  · rename_i hj
    rw [hj]
  · rfl

theorem Distinct.opened (h : p.Distinct) (hid : ∀ k, k < p.faces.length → p.conn k ≠ id) :
    (p.opened n id behaviour ctx).Distinct := by
  intro j k hj hk hconn
  rw [faces_opened] at hj hk
  rw [conn_opened, conn_opened] at hconn
  by_cases hjn : j = p.faces.length <;> by_cases hkn : k = p.faces.length
  · omega
  · rw [if_pos hjn, if_neg hkn] at hconn
    exact absurd hconn.symm (hid k (by omega))
  · rw [if_neg hjn, if_pos hkn] at hconn
    exact absurd hconn (hid j (by omega))
  · rw [if_neg hjn, if_neg hkn] at hconn
    exact h j k (by omega) (by omega) hconn

theorem Distinct.holding (h : p.Distinct) (b : Option Backend) : (p.holding k b).Distinct := by
  intro i j hi hj hconn
  rw [faces_holding] at hi hj
  rw [conn_holding, conn_holding] at hconn
  exact h i j hi hj hconn

/-- A connection id tells its session. -/
theorem Distinct.eq_session (h : p.Distinct) {s : Session} (hlt : s.serial < p.faces.length)
    (heq : s = p.session s.serial) (hk : k < p.faces.length) (hc : s.conn = p.conn k) :
    s = p.session k := by
  have hserial : s.serial = k := by
    rw [heq] at hc
    exact h s.serial k hlt hk hc
  rw [heq, hserial]

/-- Connection ids tell sessions apart, a session holds backends of its own module, and sessions
that opened are registered as what they are. -/
structure Named (p : Presence) : Prop where
  owned : p.Owned
  conns : p.Distinct
  held : ∀ k b, (p.context k).backend = some b → (p.context k).moduleId = some b.moduleId
  registered : ∀ n, ∀ s ∈ p.registered n, s.serial < p.faces.length ∧ s = p.session s.serial

/-- The row of a connection is one of the module of its session. -/
theorem Named.row (h : p.Named) (hb : b ∈ p.rows) (hk : k < p.faces.length)
    (hc : b.connectionId = p.conn k) : (p.context k).moduleId = some b.moduleId := by
  obtain ⟨j, hj, hconn, -, hm⟩ := h.owned.owner b hb
  obtain rfl := h.conns j k hj hk (hconn.trans hc)
  exact hm

/-! ## Steps -/

theorem Named.opened (h : p.Named) (hid : ∀ k, k < p.faces.length → p.conn k ≠ id)
    (hctx : ctx.backend = none) : (p.opened n id behaviour ctx).Named where
  owned := h.owned.opened n id behaviour hctx
  conns := h.conns.opened hid
  held := by
    intro k b hb
    rw [context_opened] at hb ⊢
    by_cases hk : k = p.faces.length
    · rw [if_pos hk, hctx] at hb
      cases hb
    · rw [if_neg hk] at hb ⊢
      exact h.held k b hb
  registered := by
    intro m s hs
    obtain ⟨hlt, heq⟩ := h.registered m s hs
    rw [faces_opened, session_opened (Nat.ne_of_lt hlt)]
    exact ⟨Nat.lt_succ_of_lt hlt, heq⟩

theorem Named.atNode (h : p.Named) (hn : n < p.places.length) {f : List Session → List Session}
    (hf : ∀ s ∈ f (p.registered n), s.serial < p.faces.length ∧ s = p.session s.serial) :
    (p.atNode n f).Named where
  owned := h.owned.atNode n f
  conns := h.conns
  held := h.held
  registered := by
    intro m s hs
    rw [registered_atNode _ _ _ _ hn] at hs
    by_cases hm : m = n
    · rw [if_pos hm] at hs
      exact hf s hs
    · rw [if_neg hm] at hs
      exact h.registered m s hs

theorem Named.holding (h : p.Named) (hk : k < p.faces.length) {b : Option Backend}
    (hc : ∀ x, b = some x → x.connectionId = p.conn k)
    (hm : ∀ x, b = some x → (p.context k).moduleId = some x.moduleId) : (p.holding k b).Named where
  owned := h.owned.holding hk hc
  conns := h.conns.holding b
  held := by
    intro j x hx
    rw [moduleId_holding hk]
    rcases (backend_holding hk).mp hx with ⟨rfl, hnew⟩ | ⟨-, hold⟩
    · exact hm x hnew
    · exact h.held j x hold
  registered := by
    intro m s hs
    rw [faces_holding, session_holding]
    exact h.registered m s hs

theorem Named.withRows (h : p.Named) {rows : List Backend} (ho : Owned { p with rows := rows }) :
    Named { p with rows := rows } where
  owned := ho
  conns := h.conns
  held := h.held
  registered := h.registered

/-- The node that a session connected to exists. -/
def Housed (p : Presence) : Prop := ∀ k, k < p.faces.length → p.home k < p.places.length

theorem Named.step (h : p.Named) (hhoused : p.Housed) (hk : p.Knows i)
    (hid : ∀ n id behaviour name, i = .connect n id behaviour name →
      ∀ k, k < p.faces.length → p.conn k ≠ id)
    (hs : Step p i o p') : p'.Named := by
  cases hs with
  | keeps _ => exact h
  | switches b _ => exact ⟨⟨h.owned.keyed, h.owned.homes, h.owned.held, h.owned.owner⟩, h.conns,
      h.held, h.registered⟩
  | refused _ => exact h.opened (hid _ _ _ _ rfl) rfl
  | @connects n id behaviour name _ =>
    have hopened : (p.opened n id behaviour ⟨some (ModuleId.ofName (Text.trimmed name)),
        some (Text.trimmed name), none⟩).Named := h.opened (hid _ _ _ _ rfl) rfl
    refine hopened.atNode hk fun s hs => ?_
    rcases Table.mem_put.mp hs with ⟨hs, -⟩ | rfl
    · exact hopened.registered _ s hs
    · refine ⟨faces_opened ▸ Nat.lt_succ_self _, ?_⟩
      unfold session
      rw [conn_opened, if_pos rfl]
  | unready _ => exact h
  | @readies k _ b _ hc hn hm =>
    have hput : Owned { p with rows := Table.put Backend.connectionId b p.rows } :=
      h.owned.put hk hc hn hm
    exact (h.withRows hput).holding (b := some b) hk (fun x hx => Option.some.inj hx ▸ hc)
      fun x hx => Option.some.inj hx ▸ hm
  | @leaves k r rows hd =>
    have hheld : (p.holding k none).Named := h.holding hk (by simp) (by simp)
    have hleft : ((p.holding k none).atNode (p.home k) (Table.erase Session.conn (p.conn k))).Named :=
      hheld.atNode (hhoused k hk) fun s hs => hheld.registered _ s (Table.mem_erase.mp hs).1
    exact hleft.withRows (hleft.owned.fewer hd.sublist)
  | unswept _ => exact h
  | sweeps _ => exact h.withRows (h.owned.fewer List.filter_sublist)
  | stays _ => exact h
  | departs _ => exact h.withRows (h.owned.fewer List.filter_sublist)

/-- Sessions stay at home, and nodes stay. -/
theorem Housed.step (h : p.Housed) (ho : p.Owned) (hk : p.Knows i) (hs : Step p i o p') :
    p'.Housed := by
  have hopened : ∀ {n id behaviour ctx}, n < p.places.length →
      (p.opened n id behaviour ctx).Housed := by
    intro n id behaviour ctx hn k hk
    rw [faces_opened] at hk
    rw [home_opened _ _ _ _ _ _ ho.homes]
    split
    · exact hn
    · exact h k (by omega)
  have hplaces : ∀ {q : Presence} {n f}, (q.atNode n f).places.length = q.places.length := by
    intro q n f
    simp [Presence.atNode]
  cases hs with
  | refused _ => exact hopened hk
  | connects _ =>
    intro j hj
    rw [hplaces]
    exact hopened hk j hj
  | readies _ _ _ _ =>
    intro j hj
    exact h j (faces_holding ▸ hj)
  | leaves _ =>
    intro j hj
    refine Nat.lt_of_lt_of_eq (h j (faces_holding ▸ hj)) ?_
    exact hplaces.symm
  | _ => exact h

/-- Nodes and their profiles stay. -/
theorem Step.profiles (hs : Step p i o p') : p'.places.map Prod.fst = p.places.map Prod.fst := by
  have hplaces : ∀ (q : Presence) (n : Nat) (f : List Session → List Session),
      (q.atNode n f).places.map Prod.fst = q.places.map Prod.fst := by
    intro q n f
    apply List.ext_getElem?
    intro j
    unfold Presence.atNode
    simp only [List.getElem?_map, List.getElem?_modify]
    cases q.places[j]? with
    | none => rfl
    | some x => by_cases hj : n = j <;> simp [hj]
  cases hs with
  | connects _ => exact hplaces _ _ _
  | leaves _ => exact hplaces (p.holding _ none) _ _
  | _ => rfl

/-! ## Sessions that stay themselves -/

/-- Sessions keep their ids and their peers and stay where they connected to, and a session is
registered only as it opens. -/
structure Grows (p p' : Presence) : Prop where
  faces : p.faces.length ≤ p'.faces.length
  conn : ∀ k, k < p.faces.length → p'.conn k = p.conn k
  home : ∀ k, k < p.faces.length → p'.home k = p.home k
  behaviour : ∀ k, k < p.faces.length → p'.behaviour k = p.behaviour k
  registered : ∀ n, ∀ s ∈ p'.registered n, s ∈ p.registered n ∨ p.faces.length ≤ s.serial

theorem Grows.refl (p : Presence) : p.Grows p :=
  ⟨Nat.le_refl _, fun _ _ => rfl, fun _ _ => rfl, fun _ _ => rfl, fun _ _ => .inl⟩

theorem Grows.trans {p'' : Presence} (h : p.Grows p') (h' : p'.Grows p'') : p.Grows p'' where
  faces := Nat.le_trans h.faces h'.faces
  conn := fun k hk => (h'.conn k (Nat.lt_of_lt_of_le hk h.faces)).trans (h.conn k hk)
  home := fun k hk => (h'.home k (Nat.lt_of_lt_of_le hk h.faces)).trans (h.home k hk)
  behaviour := fun k hk => (h'.behaviour k (Nat.lt_of_lt_of_le hk h.faces)).trans (h.behaviour k hk)
  registered := by
    intro n s hs
    rcases h'.registered n s hs with hs | hnew
    · exact h.registered n s hs
    · exact .inr (Nat.le_trans h.faces hnew)

theorem Grows.opened (h : p.homes.length = p.faces.length) :
    p.Grows (p.opened n id behaviour ctx) where
  faces := by
    rw [faces_opened]
    exact Nat.le_succ _
  conn := by
    intro k hk
    rw [conn_opened, if_neg (Nat.ne_of_lt hk)]
  home := by
    intro k hk
    rw [home_opened _ _ _ _ _ _ h, if_neg (Nat.ne_of_lt hk)]
  behaviour := by
    intro k hk
    rw [behaviour_opened, if_neg (Nat.ne_of_lt hk)]
  registered := fun _ _ => .inl

theorem Grows.atNode (h : p.Grows p') (hn : n < p'.places.length) {f : List Session → List Session}
    (hf : ∀ s ∈ f (p'.registered n), s ∈ p'.registered n ∨ p.faces.length ≤ s.serial) :
    p.Grows (p'.atNode n f) where
  faces := h.faces
  conn := h.conn
  home := h.home
  behaviour := h.behaviour
  registered := by
    intro m s hs
    rw [registered_atNode _ _ _ _ hn] at hs
    split at hs
    · rename_i hm
      rcases hf s hs with hold | hnew
      · exact hm ▸ h.registered n s hold
      · exact .inr hnew
    · exact h.registered m s hs

theorem Grows.withRows (h : p.Grows p') {rows : List Backend} : p.Grows { p' with rows := rows } :=
  ⟨h.faces, h.conn, h.home, h.behaviour, h.registered⟩

theorem Grows.holding (p : Presence) (k : Nat) (b : Option Backend) : p.Grows (p.holding k b) where
  faces := Nat.le_of_eq faces_holding.symm
  conn := fun _ _ => conn_holding ..
  home := fun _ _ => rfl
  behaviour := fun _ _ => behaviour_holding ..
  registered := fun _ _ => .inl

theorem Step.grows (h : p.homes.length = p.faces.length) (hhoused : p.Housed) (hk : p.Knows i)
    (hs : Step p i o p') : p.Grows p' := by
  cases hs with
  | keeps _ => exact .refl p
  | switches b _ => exact ⟨Nat.le_refl _, fun _ _ => rfl, fun _ _ => rfl, fun _ _ => rfl, fun _ _ => .inl⟩
  | refused _ => exact .opened h
  | connects _ =>
    refine (Grows.opened h).atNode hk fun s hs => ?_
    rcases Table.mem_put.mp hs with ⟨hold, -⟩ | rfl
    · exact .inl hold
    · exact .inr (Nat.le_refl _)
  | unready _ => exact .refl p
  | readies _ _ _ _ => exact (Grows.holding p _ _).withRows
  | @leaves k r rows _ =>
    have hleft : p.Grows ((p.holding k none).atNode (p.home k) (Table.erase Session.conn (p.conn k))) :=
      (Grows.holding p k none).atNode (hhoused k hk) fun s hs => .inl (Table.mem_erase.mp hs).1
    exact hleft.withRows
  | unswept _ => exact .refl p
  | sweeps _ => exact (Grows.refl p).withRows
  | stays _ => exact .refl p
  | departs _ => exact (Grows.refl p).withRows

/-- Who is registered with a node is a session that connected to it. -/
structure Rooted (p : Presence) : Prop where
  homes : p.homes.length = p.faces.length
  housed : p.Housed
  registered : ∀ n, ∀ s ∈ p.registered n, s.serial < p.faces.length ∧ s = p.session s.serial ∧
    p.home s.serial = n

theorem Rooted.opened (h : p.Rooted) (hn : n < p.places.length) :
    (p.opened n id behaviour ctx).Rooted where
  homes := by simp [Presence.opened, h.homes]
  housed := by
    intro k hk
    rw [faces_opened] at hk
    rw [home_opened _ _ _ _ _ _ h.homes]
    split
    · exact hn
    · exact h.housed k (by omega)
  registered := by
    intro m s hs
    obtain ⟨hlt, heq, hhome⟩ := h.registered m s hs
    have hold : s.serial ≠ p.faces.length := Nat.ne_of_lt hlt
    rw [faces_opened, session_opened hold, home_opened _ _ _ _ _ _ h.homes, if_neg hold]
    exact ⟨Nat.lt_succ_of_lt hlt, heq, hhome⟩

theorem Rooted.atNode (h : p.Rooted) (hn : n < p.places.length) {f : List Session → List Session}
    (hf : ∀ s ∈ f (p.registered n), s.serial < p.faces.length ∧ s = p.session s.serial ∧
      p.home s.serial = n) : (p.atNode n f).Rooted where
  homes := h.homes
  housed := by
    intro k hk
    refine Nat.lt_of_lt_of_eq (h.housed k hk) ?_
    simp [Presence.atNode]
  registered := by
    intro m s hs
    rw [registered_atNode _ _ _ _ hn] at hs
    by_cases hm : m = n
    · rw [if_pos hm] at hs
      exact hm ▸ hf s hs
    · rw [if_neg hm] at hs
      exact h.registered m s hs

theorem Rooted.holding (h : p.Rooted) (b : Option Backend) : (p.holding k b).Rooted where
  homes := by simp [Presence.holding, h.homes]
  housed := fun j hj => h.housed j (faces_holding ▸ hj)
  registered := by
    intro m s hs
    rw [faces_holding, session_holding]
    exact h.registered m s hs

theorem Rooted.withRows (h : p.Rooted) {rows : List Backend} : Rooted { p with rows := rows } :=
  ⟨h.homes, h.housed, h.registered⟩

theorem Rooted.leaves (h : p.Rooted) (hk : k < p.faces.length) :
    ((p.holding k none).atNode (p.home k) (Table.erase Session.conn (p.conn k))).Rooted :=
  (h.holding none).atNode (h.housed k hk) fun _ hs =>
    (h.holding none).registered _ _ (Table.mem_erase.mp hs).1

theorem Rooted.step (h : p.Rooted) (hk : p.Knows i) (hs : Step p i o p') : p'.Rooted := by
  cases hs with
  | keeps _ => exact h
  | switches b _ => exact ⟨h.homes, h.housed, h.registered⟩
  | refused _ => exact h.opened hk
  | connects _ =>
    refine (h.opened hk).atNode hk fun s hs => ?_
    rcases Table.mem_put.mp hs with ⟨hs, -⟩ | rfl
    · exact (h.opened hk).registered _ s hs
    · unfold session
      rw [faces_opened, conn_opened, home_opened _ _ _ _ _ _ h.homes, if_pos rfl, if_pos rfl]
      exact ⟨Nat.lt_succ_self _, rfl, rfl⟩
  | unready _ => exact h
  | readies _ _ _ _ => exact (h.holding _).withRows
  | leaves _ => exact (h.leaves hk).withRows
  | unswept _ => exact h
  | sweeps _ => exact h.withRows
  | stays _ => exact h
  | departs _ => exact h.withRows

end Presence

namespace Cluster

open Presence (Named Housed)

variable {c : Cluster} {profiles : List Profile} {at_ : Timestamp}

theorem start_named : (Cluster.start profiles at_).presence.Named where
  owned := start_owned
  conns := nofun
  held := by
    intro k b hb
    have hnone : ((Cluster.start profiles at_).presence.context k).backend = none := rfl
    rw [hnone] at hb
    cases hb
  registered := by
    intro n s hs
    change s ∈ (((profiles.map (NodeState.fresh · true)).map fun st =>
      (st.profile, st.rooms.sessions))[n]?.getD default).2 at hs
    rw [List.map_map, List.getElem?_map] at hs
    cases hn : profiles[n]? <;> rw [hn] at hs <;> cases hs

theorem start_housed : (Cluster.start profiles at_).presence.Housed := nofun

theorem start_rooted : (Cluster.start profiles at_).presence.Rooted where
  homes := rfl
  housed := start_housed
  registered := fun n s hs => absurd (start_named.registered n s hs).1 (Nat.not_lt_zero _)

/-- Who is registered with a node is a session of the cluster. -/
theorem registered_session (h : c.presence.Named) {n : Nat} {s : Session}
    (hs : s ∈ (c.world.node n).rooms.sessions) :
    s.serial < c.world.peers.length ∧ s = c.session s.serial := by
  have hregistered : s ∈ c.presence.registered n := World.presence_registered n ▸ hs
  obtain ⟨hlt, heq⟩ := h.registered n s hregistered
  rw [presence_session] at heq
  rw [presence_faces] at hlt
  exact ⟨hlt, heq⟩

/-- Who is registered under the connection id of a session is that session. -/
theorem session_of_conn (h : c.presence.Named) {n k : Nat} {s : Session}
    (hs : s ∈ (c.world.node n).rooms.sessions) (hk : k < c.world.peers.length)
    (hconn : s.conn = (c.session k).conn) : s = c.session k := by
  obtain ⟨hlt, heq⟩ := registered_session h hs
  rw [← presence_faces] at hlt hk
  rw [← presence_session] at heq ⊢
  rw [← presence_conn] at hconn
  exact h.conns.eq_session hlt heq hk hconn

end Cluster

end ConfigRegistry
