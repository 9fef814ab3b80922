import ConfigRegistry.Proofs.Leaks

/-!
# Connection ids that come back

A transport may give out a connection id of a node again once the session that had it is
over. Then an id still tells the session that is registered under it, and every session is
of the module whose name it declared (`Presence.Successive`).
-/

namespace ConfigRegistry

/-- The name that is declared with an input. -/
def Cluster.Input.name? : Cluster.Input → Option String
  | .connect _ _ _ name => some name
  | _ => none

namespace Presence

variable {gone gone' : Nat → Prop} {names : List String} {p p' : Presence} {k n : Nat}
  {id : ConnectionId} {behaviour : Behaviour} {ctx : SessionContext} {b : Option Backend}
  {i : Cluster.Input} {o : Option i.Reply}

/-- A session disconnected, or was never registered. -/
def Over (gone : Nat → Prop) (p : Presence) (k : Nat) : Prop :=
  gone k ∨ (p.context k).moduleId = none

/-- The node of a session gave the session's connection id to a later one. -/
def Replaced (p : Presence) (k : Nat) : Prop :=
  ∃ j, k < j ∧ j < p.faces.length ∧ p.home j = p.home k ∧ p.conn j = p.conn k

/-- Connection ids come back only when the sessions that had them are over, and a session that was
replaced declares no schema any more. Backends are written by nodes only. -/
def Succeeds (gone : Nat → Prop) (p : Presence) : Cluster.Input → Prop
  | .connect n id _ _ => ∀ k, k < p.faces.length → p.home k = n → p.conn k = id → p.Over gone k
  | .configSchema k _ => ¬ p.Replaced k
  | .call call => Apart (.call call)
  | _ => True

/-- What is kept of sessions while ids come back: each is of the module of its name, and of those
that had an id of a node all but the last are over. -/
structure Successive (gone : Nat → Prop) (names : List String) (p : Presence) : Prop where
  owned : p.Owned
  housed : p.Housed
  length : names.length = p.faces.length
  declared : ∀ k m, (p.context k).moduleId = some m →
    ∃ name, names[k]? = some name ∧ m = ModuleId.ofName (Text.trimmed name)
  left : ∀ k, gone k → k < p.faces.length
  registered : ∀ n, ∀ s ∈ p.registered n, s.serial < p.faces.length ∧ s = p.session s.serial ∧
    p.home s.serial = n ∧ ¬ p.Over gone s.serial
  replaced : ∀ k, p.Replaced k → p.Over gone k

/-- Who is registered under the connection id of a session that was not replaced is that session. -/
theorem Successive.eq_session (h : p.Successive gone names) {s : Session}
    (hs : s ∈ p.registered (p.home k)) (hk : k < p.faces.length) (hr : ¬ p.Replaced k)
    (hc : s.conn = p.conn k) : s = p.session k := by
  obtain ⟨hlt, heq, hhome, hover⟩ := h.registered _ s hs
  have hconn : p.conn s.serial = p.conn k := (congrArg Session.conn heq).symm.trans hc
  have hearlier : ¬ s.serial < k :=
    fun hlt' => hover (h.replaced _ ⟨k, hlt', hk, hhome.symm, hconn.symm⟩)
  have hlater : ¬ k < s.serial := fun hlt' => hr ⟨s.serial, hlt', hlt, hhome, hconn⟩
  have hserial : s.serial = k := by omega
  rw [heq, hserial]

/-- An id that is given out is not registered. -/
theorem Successive.unregistered (h : p.Successive gone names)
    (hid : ∀ k, k < p.faces.length → p.home k = n → p.conn k = id → p.Over gone k) {s : Session}
    (hs : s ∈ p.registered n) : s.conn ≠ id := by
  intro hc
  obtain ⟨hlt, heq, hhome, hover⟩ := h.registered n s hs
  exact hover (hid _ hlt hhome ((congrArg Session.conn heq).symm.trans hc))

/-! ## Steps -/

theorem Successive.opened (h : p.Successive gone names) (hn : n < p.places.length)
    (hid : ∀ k, k < p.faces.length → p.home k = n → p.conn k = id → p.Over gone k) {name : String}
    (hm : ∀ m, ctx.moduleId = some m → m = ModuleId.ofName (Text.trimmed name))
    (hb : ctx.backend = none) :
    (p.opened n id behaviour ctx).Successive gone (names ++ [name]) := by
  have hhome := fun k => home_opened p n k id behaviour ctx h.owned.homes
  -- Sessions that there were are over when they were.
  have hover : ∀ k, k < p.faces.length →
      ((p.opened n id behaviour ctx).Over gone k ↔ p.Over gone k) := by
    intro k hk
    unfold Over
    rw [context_opened, if_neg (Nat.ne_of_lt hk)]
  constructor
  · exact h.owned.opened n id behaviour hb
  · intro k hk
    rw [faces_opened] at hk
    rw [hhome]
    split
    · exact hn
    · exact h.housed k (by omega)
  · rw [List.length_append, faces_opened, h.length]
    rfl
  · intro k m hmodule
    rw [context_opened] at hmodule
    by_cases hk : k = p.faces.length
    · rw [if_pos hk] at hmodule
      refine ⟨name, ?_, hm m hmodule⟩
      rw [hk, ← h.length, List.getElem?_concat_length]
    · rw [if_neg hk] at hmodule
      obtain ⟨name', hname, rfl⟩ := h.declared k m hmodule
      refine ⟨name', ?_, rfl⟩
      rw [List.getElem?_append_left (List.getElem?_eq_some_iff.mp hname).1]
      exact hname
  · intro k hk
    rw [faces_opened]
    exact Nat.lt_succ_of_lt (h.left k hk)
  · intro n' s hs
    obtain ⟨hlt, heq, hat, hlive⟩ := h.registered n' s hs
    have hold : s.serial ≠ p.faces.length := Nat.ne_of_lt hlt
    rw [faces_opened, session_opened hold, hhome, if_neg hold, hover _ hlt]
    exact ⟨Nat.lt_succ_of_lt hlt, heq, hat, hlive⟩
  · rintro k ⟨j, hkj, hj, hsame, hconn⟩
    rw [faces_opened] at hj
    have hk : k < p.faces.length := by omega
    rw [hhome, hhome, if_neg (Nat.ne_of_lt hk)] at hsame
    rw [conn_opened, conn_opened, if_neg (Nat.ne_of_lt hk)] at hconn
    rw [hover k hk]
    by_cases hnew : j = p.faces.length
    · rw [if_pos hnew] at hsame hconn
      exact hid k hk hsame.symm hconn.symm
    · rw [if_neg hnew] at hsame hconn
      exact h.replaced k ⟨j, hkj, by omega, hsame, hconn⟩

theorem Successive.atNode (h : p.Successive gone names) (hn : n < p.places.length)
    {f : List Session → List Session}
    (hf : ∀ s ∈ f (p.registered n), s.serial < p.faces.length ∧ s = p.session s.serial ∧
      p.home s.serial = n ∧ ¬ p.Over gone s.serial) : (p.atNode n f).Successive gone names where
  owned := h.owned.atNode n f
  housed := by
    intro k hk
    refine Nat.lt_of_lt_of_eq (h.housed k hk) ?_
    simp [Presence.atNode]
  length := h.length
  declared := h.declared
  left := h.left
  registered := by
    intro n' s hs
    rw [registered_atNode _ _ _ _ hn] at hs
    by_cases hn' : n' = n
    · rw [if_pos hn'] at hs
      exact hn' ▸ hf s hs
    · rw [if_neg hn'] at hs
      exact h.registered n' s hs
  replaced := h.replaced

theorem Successive.holding (h : p.Successive gone names) (hk : k < p.faces.length)
    (hc : ∀ x, b = some x → x.connectionId = p.conn k) : (p.holding k b).Successive gone names := by
  have hmodule : ∀ j, ((p.holding k b).context j).moduleId = (p.context j).moduleId :=
    fun j => moduleId_holding hk
  have hover : ∀ j, (p.holding k b).Over gone j ↔ p.Over gone j := by
    intro j
    unfold Over
    rw [hmodule]
  constructor
  · exact h.owned.holding hk hc
  · intro j hj
    exact h.housed j (faces_holding ▸ hj)
  · exact h.length.trans faces_holding.symm
  · intro j m hm
    exact h.declared j m (hmodule j ▸ hm)
  · intro j hj
    rw [faces_holding]
    exact h.left j hj
  · intro n s hs
    rw [faces_holding, session_holding, hover]
    exact h.registered n s hs
  · rintro j ⟨l, hjl, hl, hhome, hconn⟩
    rw [faces_holding] at hl
    rw [conn_holding, conn_holding] at hconn
    exact (hover j).mpr (h.replaced j ⟨l, hjl, hl, hhome, hconn⟩)

theorem Successive.withRows (h : p.Successive gone names) {rows : List Backend}
    (ho : Owned { p with rows := rows }) : Successive gone names { p with rows := rows } where
  owned := ho
  housed := h.housed
  length := h.length
  declared := h.declared
  left := h.left
  registered := h.registered
  replaced := h.replaced

/-- A session that disconnected is not registered, so it may count as gone. -/
theorem Successive.disconnected (h : p.Successive gone names) (hk : k < p.faces.length)
    (hg : ∀ j, gone' j ↔ gone j ∨ j = k) (hs : ∀ n, ∀ s ∈ p.registered n, s.serial ≠ k) :
    p.Successive gone' names where
  owned := h.owned
  housed := h.housed
  length := h.length
  declared := h.declared
  left := by
    intro j hj
    rcases (hg j).mp hj with hj | rfl
    · exact h.left j hj
    · exact hk
  registered := by
    intro n s hs'
    obtain ⟨hlt, heq, hhome, hlive⟩ := h.registered n s hs'
    refine ⟨hlt, heq, hhome, ?_⟩
    rintro (hgone | hnone)
    · rcases (hg _).mp hgone with hgone | hself
      · exact hlive (.inl hgone)
      · exact hs n s hs' hself
    · exact hlive (.inr hnone)
  replaced := fun j hj => (h.replaced j hj).imp_left fun hgone => (hg j).mpr (.inl hgone)

theorem Successive.leaves (h : p.Successive gone names) (hk : k < p.faces.length)
    (hg : ∀ j, gone' j ↔ gone j ∨ j = k) :
    ((p.holding k none).atNode (p.home k) (Table.erase Session.conn (p.conn k))).Successive gone'
      names := by
  have hheld : (p.holding k none).Successive gone names := h.holding hk (by simp)
  have hleft : ((p.holding k none).atNode (p.home k) (Table.erase Session.conn (p.conn k))).Successive
      gone names :=
    hheld.atNode (h.housed k hk) fun s hs => hheld.registered _ s (Table.mem_erase.mp hs).1
  refine hleft.disconnected (faces_holding.symm ▸ hk) hg fun n s hs hself => ?_
  -- It could be registered at its home only, and under its own id, which was taken out there.
  obtain ⟨-, heq, hhome, -⟩ := hleft.registered n s hs
  rw [hself] at heq hhome
  obtain rfl : p.home k = n := hhome
  have hplace : p.home k < (p.holding k none).places.length := h.housed k hk
  rw [registered_atNode _ _ _ _ hplace, if_pos rfl] at hs
  refine (Table.mem_erase.mp hs).2 ?_
  rw [heq]
  exact conn_holding p k k none

theorem Successive.step (h : p.Successive gone names) (hk : p.Knows i) (hi : p.Succeeds gone i)
    (hs : Step p i o p') (hg : ∀ j, gone' j ↔ gone j ∨ i = .disconnect j) :
    p'.Successive gone' (names ++ i.name?.toList) := by
  -- What neither connects nor disconnects adds no name, and nobody is gone.
  have hsame : ∀ {q : Presence}, i.name? = none → (∀ j, i ≠ .disconnect j) →
      q.Successive gone names → q.Successive gone' (names ++ i.name?.toList) := by
    intro q hname hd hq
    have hgone : gone' = gone := funext fun j => propext ((hg j).trans (or_iff_left (hd j)))
    rw [hname, hgone, Option.toList_none, List.append_nil]
    exact hq
  have hconnect : ∀ {n id behaviour name}, i = .connect n id behaviour name → gone' = gone := by
    rintro n id behaviour name rfl
    exact funext fun j => propext ((hg j).trans (or_iff_left (by simp)))
  cases hs with
  | keeps hapart =>
    refine hsame ?_ ?_ h
    · cases i <;> first | exact hapart.elim | rfl
    · rintro j rfl
      exact hapart
  | switches b _ =>
    have howned : Owned { p with available := b } :=
      ⟨h.owned.keyed, h.owned.homes, h.owned.held, h.owned.owner⟩
    exact hsame rfl (by simp) ⟨howned, h.housed, h.length, h.declared, h.left, h.registered, h.replaced⟩
  | refused _ =>
    rw [hconnect rfl]
    exact h.opened hk hi (by simp [SessionContext.empty]) rfl
  | @connects n id behaviour name _ =>
    rw [hconnect rfl]
    have hopened : (p.opened n id behaviour ⟨some (ModuleId.ofName (Text.trimmed name)),
        some (Text.trimmed name), none⟩).Successive gone (names ++ [name]) :=
      h.opened hk hi (fun m hm => (Option.some.inj hm).symm) rfl
    refine hopened.atNode hk fun s hs => ?_
    rcases Table.mem_put.mp hs with ⟨hs, -⟩ | rfl
    · exact hopened.registered n s hs
    · refine ⟨faces_opened ▸ Nat.lt_succ_self _, ?_, ?_, ?_⟩
      · unfold session
        rw [conn_opened, if_pos rfl]
      · rw [home_opened _ _ _ _ _ _ h.owned.homes, if_pos rfl]
      · rintro (hgone | hnone)
        · exact Nat.lt_irrefl _ (h.left _ hgone)
        · rw [context_opened, if_pos rfl] at hnone
          cases hnone
  | unready _ => exact hsame rfl (by simp) h
  | @readies k _ b _ hc hn hm =>
    have hput := h.withRows (h.owned.put hk hc hn hm)
    exact hsame rfl (by simp) (hput.holding (b := some b) hk fun x hx => Option.some.inj hx ▸ hc)
  | @leaves k r rows hd =>
    have hleft := h.leaves hk fun j => (hg j).trans (by simp [eq_comm])
    rw [show Cluster.Input.name? (.disconnect k) = none from rfl, Option.toList_none, List.append_nil]
    exact hleft.withRows (hleft.owned.fewer hd.sublist)
  | unswept _ => exact hsame rfl (by simp) h
  | sweeps _ => exact hsame rfl (by simp) (h.withRows (h.owned.fewer List.filter_sublist))
  | stays _ => exact hsame rfl (by simp) h
  | departs _ => exact hsame rfl (by simp) (h.withRows (h.owned.fewer List.filter_sublist))

end Presence

namespace Cluster

variable {profiles : List Profile} {at_ : Timestamp} {h : List Taken} {x : Taken}

/-- The names that the sessions declared as they connected, in their order. -/
def names (h : List Taken) : List String := h.filterMap fun x => x.input.name?

theorem names_concat : names (h ++ [x]) = names h ++ x.input.name?.toList := by
  unfold names
  rw [List.filterMap_append]
  cases hx : x.input.name? <;> simp [hx]

theorem start_successive : (Cluster.start profiles at_).presence.Successive (Gone []) (names []) where
  owned := start_owned
  housed := start_housed
  length := rfl
  declared := nofun
  left := by
    rintro k ⟨x, hx, -⟩
    cases hx
  registered := by
    intro n s hs
    have hnamed : (Cluster.start profiles at_).presence.Named := start_named
    obtain ⟨hlt, -⟩ := hnamed.registered n s hs
    cases hlt
  replaced := by
    rintro k ⟨j, -, hj, -⟩
    cases hj

end Cluster

end ConfigRegistry
