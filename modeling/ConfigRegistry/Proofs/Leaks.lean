import ConfigRegistry.Proofs.Sessions

/-!
# No backend leaks, and no live one is swept

On one node three places know of a backend: the row, the context of its session and the
registered sessions. Every transition moves all three, or leaves a trace of what it could
not do: a disconnect that failed. What is kept of them (`Presence.Kept`,
`Presence.Enrolled`) is proved step by step; the sweep then finds exactly what such
disconnects left behind.
-/

namespace ConfigRegistry

namespace Presence

variable {gone failed : Nat → Prop} {p : Presence} {k : Nat} {b : Backend} {q : Profile}

theorem context_of_le (hk : p.faces.length ≤ k) : p.context k = default := by
  unfold context
  rw [List.getElem?_eq_none hk]
  rfl

/-- Only sessions that opened hold backends. -/
theorem lt_of_backend (hb : (p.context k).backend = some b) : k < p.faces.length := by
  refine Nat.lt_of_not_le fun hk => ?_
  rw [context_of_le hk] at hb
  cases hb

/-- What one node keeps of the backends of its sessions, given which sessions disconnected and
which of these in vain. -/
structure Kept (q : Profile) (gone failed : Nat → Prop) (p : Presence) : Prop where
  owned : p.Owned
  places : p.places.length = 1
  profile : p.profile 0 = q
  home : ∀ k, p.home k = 0
  conns : p.Distinct
  left : ∀ k, gone k → k < p.faces.length ∧ (p.context k).backend = none
  missed : ∀ k, failed k → gone k
  identified : ∀ k b, (p.context k).backend = some b → (p.context k).moduleId ≠ none
  stored : ∀ k b, (p.context k).backend = some b → b ∈ p.rows
  explained : ∀ b ∈ p.rows, ∃ k, k < p.faces.length ∧ p.conn k = b.connectionId ∧
    ((p.context k).backend = some b ∨ failed k)

/-- The registered sessions are those that connected and did not disconnect. -/
def Enrolled (gone : Nat → Prop) (p : Presence) : Prop :=
  ∀ s, s ∈ p.registered 0 ↔ s.serial < p.faces.length ∧ s = p.session s.serial ∧
    (p.context s.serial).moduleId ≠ none ∧ ¬ gone s.serial

/-! ## Connecting -/

theorem Kept.opened (h : p.Kept q gone failed) {id : ConnectionId}
    (hid : ∀ k, k < p.faces.length → p.conn k ≠ id) (behaviour : Behaviour) {ctx : SessionContext}
    (hctx : ctx.backend = none) : (p.opened 0 id behaviour ctx).Kept q gone failed := by
  -- Who holds a backend held it before, in the context that it had.
  have hbackend : ∀ k b, ((p.opened 0 id behaviour ctx).context k).backend = some b →
      (p.context k).backend = some b ∧ (p.opened 0 id behaviour ctx).context k = p.context k := by
    intro k b hb
    rw [context_opened] at hb ⊢
    by_cases hk : k = p.faces.length
    · rw [if_pos hk, hctx] at hb
      cases hb
    · rw [if_neg hk] at hb ⊢
      exact ⟨hb, rfl⟩
  constructor
  · exact h.owned.opened 0 id behaviour hctx
  · exact h.places
  · exact h.profile
  · intro k
    rw [home_opened _ _ _ _ _ _ h.owned.homes]
    split
    · rfl
    · exact h.home k
  · exact h.conns.opened hid
  · intro k hk
    obtain ⟨hlt, hnone⟩ := h.left k hk
    rw [faces_opened, context_opened, if_neg (Nat.ne_of_lt hlt)]
    exact ⟨by omega, hnone⟩
  · exact h.missed
  · intro k b hb
    obtain ⟨hold, hcontext⟩ := hbackend k b hb
    rw [hcontext]
    exact h.identified k b hold
  · intro k b hb
    exact h.stored k b (hbackend k b hb).1
  · intro b hb
    obtain ⟨k, hlt, hconn, hwhy⟩ := h.explained b hb
    have hold : k ≠ p.faces.length := Nat.ne_of_lt hlt
    refine ⟨k, ?_, ?_, ?_⟩
    · rw [faces_opened]
      omega
    · rw [conn_opened, if_neg hold]
      exact hconn
    · rw [context_opened, if_neg hold]
      exact hwhy

theorem Kept.atNode (h : p.Kept q gone failed) (f : List Session → List Session) :
    (p.atNode 0 f).Kept q gone failed where
  owned := h.owned.atNode 0 f
  places := by simpa [Presence.atNode] using h.places
  profile := (profile_atNode ..).trans h.profile
  home := h.home
  conns := h.conns
  left := h.left
  missed := h.missed
  identified := h.identified
  stored := h.stored
  explained := h.explained

theorem Enrolled.refused (h : p.Enrolled gone) (id : ConnectionId) (behaviour : Behaviour) :
    (p.opened 0 id behaviour .empty).Enrolled gone := by
  intro s
  change s ∈ p.registered 0 ↔ _
  rw [h s, faces_opened, context_opened]
  by_cases hs : s.serial = p.faces.length
  · rw [if_pos hs]
    constructor
    · rintro ⟨hlt, -⟩
      omega
    · rintro ⟨-, -, hm, -⟩
      exact absurd rfl hm
  · rw [if_neg hs, session_opened hs]
    constructor
    · rintro ⟨hlt, hrest⟩
      exact ⟨by omega, hrest⟩
    · rintro ⟨hlt, hrest⟩
      exact ⟨by omega, hrest⟩

theorem Enrolled.connects (h : p.Enrolled gone) (hk : p.Kept q gone failed) {id : ConnectionId}
    (hid : ∀ k, k < p.faces.length → p.conn k ≠ id) (behaviour : Behaviour) {ctx : SessionContext}
    (hm : ctx.moduleId ≠ none) :
    ((p.opened 0 id behaviour ctx).atNode 0 (Table.put Session.conn ⟨p.faces.length, id⟩)).Enrolled
      gone := by
  intro s
  have hplace : 0 < (p.opened 0 id behaviour ctx).places.length := by
    have h1 : (p.opened 0 id behaviour ctx).places.length = 1 := hk.places
    omega
  rw [registered_atNode _ _ _ _ hplace, if_pos rfl]
  change s ∈ Table.put Session.conn ⟨p.faces.length, id⟩ (p.registered 0) ↔
    s.serial < (p.opened 0 id behaviour ctx).faces.length ∧
      s = (p.opened 0 id behaviour ctx).session s.serial ∧
      ((p.opened 0 id behaviour ctx).context s.serial).moduleId ≠ none ∧ ¬ gone s.serial
  rw [Table.mem_put, h s, faces_opened, context_opened]
  by_cases hs : s.serial = p.faces.length
  · rw [if_pos hs]
    have hsession : (p.opened 0 id behaviour ctx).session s.serial = ⟨p.faces.length, id⟩ := by
      unfold session
      rw [conn_opened, if_pos hs, hs]
    rw [hsession]
    constructor
    · rintro (⟨⟨hlt, -⟩, -⟩ | rfl)
      · omega
      · exact ⟨Nat.lt_succ_self _, rfl, hm, fun hg => Nat.lt_irrefl _ (hk.left _ hg).1⟩
    · rintro ⟨-, heq, -⟩
      exact .inr heq
  · rw [if_neg hs, session_opened hs]
    constructor
    · rintro (⟨⟨hlt, hrest⟩, -⟩ | rfl)
      · exact ⟨by omega, hrest⟩
      · exact absurd rfl hs
    · rintro ⟨hlt, heq, hrest⟩
      have hold : s.serial < p.faces.length := by omega
      refine .inl ⟨⟨hold, heq, hrest⟩, ?_⟩
      rw [heq]
      exact hid s.serial hold

/-! ## Becoming ready and disconnecting -/

/-- The rows of two sessions are those of two connections. -/
theorem Kept.apart (h : p.Kept q gone failed) {j k : Nat} {x y : Backend} (hjk : j ≠ k)
    (hx : (p.context j).backend = some x) (hk : k < p.faces.length) (hy : y.connectionId = p.conn k) :
    x.connectionId ≠ y.connectionId := by
  rw [h.owned.held j x hx, hy]
  exact fun heq => hjk (h.conns j k (lt_of_backend hx) hk heq)

theorem Kept.readies (h : p.Kept q gone failed) (hk : k < p.faces.length) (hg : ¬ gone k)
    (hc : b.connectionId = p.conn k) (hn : b.nodeId = (p.profile (p.home k)).nodeId)
    (hm : (p.context k).moduleId = some b.moduleId) :
    ({ p.holding k (some b) with rows := Table.put Backend.connectionId b p.rows } :
      Presence).Kept q gone failed := by
  constructor
  · exact (h.owned.put hk hc hn hm).holding (b := some b) hk fun x hx => Option.some.inj hx ▸ hc
  · exact h.places
  · exact h.profile
  · exact h.home
  · exact h.conns.holding (some b)
  · intro j hj
    obtain ⟨hlt, hnone⟩ := h.left j hj
    have hne : j ≠ k := fun heq => hg (heq ▸ hj)
    change j < (p.holding k (some b)).faces.length ∧
      ((p.holding k (some b)).context j).backend = none
    rw [faces_holding, context_holding _ _ _ _ hk, if_neg hne]
    exact ⟨hlt, hnone⟩
  · exact h.missed
  · intro j x hx
    change ((p.holding k (some b)).context j).moduleId ≠ none
    rw [moduleId_holding hk]
    rcases (backend_holding hk).mp hx with ⟨rfl, -⟩ | ⟨-, hold⟩
    · simp [hm]
    · exact h.identified j x hold
  · intro j x hx
    rcases (backend_holding hk).mp hx with ⟨-, hb⟩ | ⟨hj, hold⟩
    · obtain rfl := Option.some.inj hb
      exact Table.mem_put.mpr (.inr rfl)
    · exact Table.mem_put.mpr (.inl ⟨h.stored j x hold, h.apart hj hold hk hc⟩)
  · intro x hx
    change ∃ j, j < (p.holding k (some b)).faces.length ∧ (p.holding k (some b)).conn j = _ ∧
      (((p.holding k (some b)).context j).backend = some x ∨ failed j)
    rcases Table.mem_put.mp hx with ⟨hx, hne⟩ | rfl
    · obtain ⟨j, hj, hconn, hwhy⟩ := h.explained x hx
      have hjk : j ≠ k := by
        rintro rfl
        exact hne (hconn.symm.trans hc.symm)
      refine ⟨j, ?_⟩
      rw [faces_holding, conn_holding]
      exact ⟨hj, hconn, hwhy.imp_left fun hold => (backend_holding hk).mpr (.inr ⟨hjk, hold⟩)⟩
    · refine ⟨k, ?_⟩
      rw [faces_holding, conn_holding]
      exact ⟨hk, hc.symm, .inl ((backend_holding hk).mpr (.inl ⟨rfl, rfl⟩))⟩

/-- A disconnect leaves the rows of the other sessions. -/
theorem Kept.leaves_others (h : p.Kept q gone failed) (hk : k < p.faces.length)
    {r : Except LifecycleError Unit} {rows : List Backend} (hd : Departs k p r rows) {j : Nat}
    {x : Backend} (hjk : j ≠ k) (hx : (p.context j).backend = some x) : x ∈ rows := by
  have hrow := h.stored j x hx
  cases hd with
  | unreachable _ _ => exact hrow
  | empty _ => exact hrow
  | withdraws _ hheld =>
    exact Table.mem_erase.mpr ⟨hrow, h.apart hjk hx hk (h.owned.held k _ hheld)⟩

/-- The row of the session itself is left only by a store that cannot be reached. -/
theorem Departs.unreached {r : Except LifecycleError Unit} {rows : List Backend} (hd : Departs k p r rows)
    {x : Backend} (hx : (p.context k).backend = some x) (hrow : x ∈ rows) :
    r = .error (.store .unreachable) := by
  cases hd with
  | unreachable _ _ => rfl
  | empty hnone => exact nomatch hnone.symm.trans hx
  | withdraws _ hb =>
    obtain rfl := Option.some.inj (hx.symm.trans hb)
    exact absurd rfl (Table.mem_erase.mp hrow).2

/-- A disconnect takes the backend from its session; the row stays behind only if the store could
not be reached, which is answered. -/
theorem Kept.leaves (h : p.Kept q gone failed) (hk : k < p.faces.length)
    {r : Except LifecycleError Unit} {rows : List Backend} (hd : Departs k p r rows)
    {gone' failed' : Nat → Prop} (hg : ∀ j, gone' j ↔ gone j ∨ j = k)
    (hf : ∀ j, failed' j ↔ failed j ∨ j = k ∧ r = .error (.store .unreachable)) :
    ({ (p.holding k none).atNode 0 (Table.erase Session.conn (p.conn k)) with rows := rows } :
      Presence).Kept q gone' failed' := by
  have hbackend : ∀ j x, ((p.holding k none).context j).backend = some x →
      j ≠ k ∧ (p.context j).backend = some x := by
    intro j x hx
    exact ((backend_holding hk).mp hx).resolve_left fun hself => nomatch hself.2
  constructor
  · exact ((h.owned.holding hk (by simp)).atNode 0 _).fewer hd.sublist
  · exact (List.length_modify ..).trans h.places
  · exact (profile_atNode ..).trans h.profile
  · exact h.home
  · exact h.conns.holding none
  · intro j hj
    change j < (p.holding k none).faces.length ∧ ((p.holding k none).context j).backend = none
    rw [faces_holding, context_holding _ _ _ _ hk]
    by_cases hjk : j = k
    · rw [if_pos hjk, hjk]
      exact ⟨hk, rfl⟩
    · rw [if_neg hjk]
      exact h.left j (((hg j).mp hj).resolve_right hjk)
  · intro j hj
    refine (hg j).mpr ?_
    rcases (hf j).mp hj with hj | ⟨hj, -⟩
    · exact .inl (h.missed j hj)
    · exact .inr hj
  · intro j x hx
    change ((p.holding k none).context j).moduleId ≠ none
    rw [moduleId_holding hk]
    exact h.identified j x (hbackend j x hx).2
  · intro j x hx
    obtain ⟨hjk, hold⟩ := hbackend j x hx
    exact h.leaves_others hk hd hjk hold
  · intro x hx
    change ∃ j, j < (p.holding k none).faces.length ∧ (p.holding k none).conn j = _ ∧
      (((p.holding k none).context j).backend = some x ∨ failed' j)
    obtain ⟨j, hj, hconn, hwhy⟩ := h.explained x (hd.sublist.subset hx)
    refine ⟨j, ?_⟩
    rw [faces_holding, conn_holding, backend_holding hk]
    refine ⟨hj, hconn, ?_⟩
    rcases hwhy with hheld | hmissed
    · by_cases hjk : j = k
      · subst hjk
        exact .inr ((hf j).mpr (.inr ⟨rfl, hd.unreached hheld hx⟩))
      · exact .inl (.inr ⟨hjk, hheld⟩)
    · exact .inr ((hf j).mpr (.inl hmissed))

theorem Enrolled.holding (h : p.Enrolled gone) (hk : k < p.faces.length) (b : Option Backend) :
    (p.holding k b).Enrolled gone := by
  intro s
  rw [faces_holding, session_holding, moduleId_holding hk]
  exact h s

theorem Enrolled.leaves (h : p.Enrolled gone) (hp : 0 < p.places.length)
    (hconns : p.Distinct) (hk : k < p.faces.length)
    {gone' : Nat → Prop} (hg : ∀ j, gone' j ↔ gone j ∨ j = k) :
    (p.atNode 0 (Table.erase Session.conn (p.conn k))).Enrolled gone' := by
  intro s
  rw [registered_atNode _ _ _ _ hp, if_pos rfl, Table.mem_erase, h s, hg]
  change _ ↔ s.serial < p.faces.length ∧ s = p.session s.serial ∧
    (p.context s.serial).moduleId ≠ none ∧ ¬ (gone s.serial ∨ s.serial = k)
  constructor
  · rintro ⟨⟨hlt, heq, hm, hng⟩, hne⟩
    refine ⟨hlt, heq, hm, ?_⟩
    rintro (hgone | hself)
    · exact hng hgone
    · rw [heq, hself] at hne
      exact hne rfl
  · rintro ⟨hlt, heq, hm, hng⟩
    refine ⟨⟨hlt, heq, hm, fun hgone => hng (.inl hgone)⟩, fun hconn => hng (.inr ?_)⟩
    rw [heq] at hconn
    exact hconns s.serial k hlt hk hconn

/-! ## Sweeping -/

/-- A session that holds a backend is registered. -/
theorem Kept.holder_registered (h : p.Kept q gone failed) (he : p.Enrolled gone)
    (hb : (p.context k).backend = some b) : p.session k ∈ p.registered 0 := by
  refine (he _).mpr ⟨lt_of_backend hb, rfl, h.identified k b hb, fun hg => ?_⟩
  rw [(h.left k hg).2] at hb
  cases hb

/-- A connection id tells the session that registered under it. -/
theorem Kept.serial_of_conn (h : p.Kept q gone failed) (he : p.Enrolled gone) {s : Session}
    (hs : s ∈ p.registered 0) (hk : k < p.faces.length) (hc : s.conn = p.conn k) :
    s.serial = k := by
  obtain ⟨hlt, heq, -, -⟩ := (he s).mp hs
  exact congrArg Session.serial (h.conns.eq_session hlt heq hk hc)

theorem mem_phantoms {n : Nat} : b ∈ p.phantoms n ↔ b ∈ p.rows ∧
    b.nodeId = (p.profile n).nodeId ∧ ∀ s ∈ p.registered n, s.conn ≠ b.connectionId := by
  unfold phantoms owned
  simp only [List.mem_filter, decide_eq_true_eq, Bool.not_eq_true', List.any_eq_false]
  exact and_assoc

/-- All rows are those of the node. -/
theorem Kept.rows_owned (h : p.Kept q gone failed) (hb : b ∈ p.rows) : b.nodeId = q.nodeId := by
  obtain ⟨k, -, -, hnode, -⟩ := h.owned.owner b hb
  rw [← hnode, h.home, h.profile]

/-- The sweep leaves the rows of sessions that hold them, and no others. -/
theorem Kept.mem_swept (h : p.Kept q gone failed) (he : p.Enrolled gone) :
    b ∈ (p.without (p.phantoms 0)).rows ↔
      ∃ s ∈ p.registered 0, (p.context s.serial).backend = some b := by
  rw [mem_without]
  constructor
  · rintro ⟨hb, hlive⟩
    obtain ⟨k, hlt, hconn, hwhy⟩ := h.explained b hb
    have hnot : b ∉ p.phantoms 0 := fun hphantom => hlive b hphantom rfl
    have hregistered : ∃ s ∈ p.registered 0, s.conn = b.connectionId := by
      refine Classical.byContradiction fun hnone => hnot (mem_phantoms.mpr ⟨hb, ?_, ?_⟩)
      · rw [h.profile]
        exact h.rows_owned hb
      · exact fun s hs heq => hnone ⟨s, hs, heq⟩
    obtain ⟨s, hs, hsconn⟩ := hregistered
    obtain ⟨-, -, -, hng⟩ := (he s).mp hs
    have hsk : s.serial = k := h.serial_of_conn he hs hlt (hsconn.trans hconn.symm)
    rcases hwhy with hheld | hmissed
    · exact ⟨s, hs, hsk ▸ hheld⟩
    · exact absurd (h.missed k hmissed) (hsk ▸ hng)
  · rintro ⟨s, hs, hb⟩
    refine ⟨h.stored _ b hb, fun x hx hconn => ?_⟩
    obtain ⟨-, heq, -, -⟩ := (he s).mp hs
    refine (mem_phantoms.mp hx).2.2 s hs ?_
    rw [hconn, h.owned.held _ b hb, heq]
    rfl

theorem Kept.swept (h : p.Kept q gone failed) (he : p.Enrolled gone) :
    (p.without (p.phantoms 0)).Kept q gone failed where
  owned := h.owned.fewer List.filter_sublist
  places := h.places
  profile := h.profile
  home := h.home
  conns := h.conns
  left := h.left
  missed := h.missed
  identified := h.identified
  stored := by
    intro k b hb
    exact (h.mem_swept he).mpr ⟨p.session k, h.holder_registered he hb, hb⟩
  explained := fun b hb => h.explained b (mem_without.mp hb).1

/-- Without a disconnect in vain there is nothing to sweep. -/
theorem Kept.no_phantoms (h : p.Kept q gone failed) (he : p.Enrolled gone)
    (hf : ∀ k, ¬ failed k) : p.phantoms 0 = [] := by
  refine List.eq_nil_iff_forall_not_mem.mpr fun b hb => ?_
  obtain ⟨hrow, -, hnone⟩ := mem_phantoms.mp hb
  obtain ⟨k, -, hconn, hwhy⟩ := h.explained b hrow
  rcases hwhy with hheld | hmissed
  · exact hnone _ (h.holder_registered he hheld) hconn
  · exact hf k hmissed

/-! ## Steps -/

/-- Transitions, sweeps and outages. Connection ids are never used again, and a session that
disconnected does nothing but disconnect again. -/
def Allows (gone : Nat → Prop) (p : Presence) : Cluster.Input → Prop
  | .connect _ id _ _ => ∀ k, k < p.faces.length → p.conn k ≠ id
  | .requirements k _ | .configSchema k _ | .ready k _ => ¬ gone k
  | .disconnect _ | .clearPhantoms _ | .setAvailable _ => True
  | _ => False

theorem Kept.step {p' : Presence} {i : Cluster.Input} {o : Option i.Reply}
    (h : p.Kept q gone failed) (he : p.Enrolled gone) (hs : Step p i o p') (hk : p.Knows i)
    (hi : p.Allows gone i) (hd : ∀ k, i ≠ .disconnect k) :
    p'.Kept q gone failed ∧ p'.Enrolled gone := by
  -- There is only one node.
  have hnode : ∀ {n : Nat}, n < p.places.length → n = 0 := by
    intro n hn
    rw [h.places] at hn
    omega
  cases hs with
  | keeps _ => exact ⟨h, he⟩
  | switches b _ =>
    refine ⟨⟨⟨h.owned.keyed, h.owned.homes, h.owned.held, h.owned.owner⟩, h.places, h.profile,
      h.home, h.conns, h.left, h.missed, h.identified, h.stored, h.explained⟩, he⟩
  | @refused n id behaviour _ _ _ =>
    obtain rfl := hnode hk
    exact ⟨h.opened hi behaviour rfl, he.refused id behaviour⟩
  | @connects n id behaviour name _ =>
    obtain rfl := hnode hk
    exact ⟨(h.opened hi behaviour rfl).atNode _, he.connects h hi behaviour (by simp)⟩
  | unready _ => exact ⟨h, he⟩
  | @readies k _ b _ hc hn hm => exact ⟨h.readies hk hi hc hn hm, he.holding hk (some b)⟩
  | @leaves k _ _ _ => exact absurd rfl (hd k)
  | unswept _ => exact ⟨h, he⟩
  | @sweeps n _ _ =>
    obtain rfl := hnode hk
    exact ⟨h.swept he, he⟩
  | stays _ => exact hi.elim
  | departs _ => exact hi.elim

theorem Kept.disconnect {p' : Presence} {o : Option (Except LifecycleError Unit)}
    (h : p.Kept q gone failed) (he : p.Enrolled gone) (hs : Step p (.disconnect k) o p')
    (hk : k < p.faces.length) {gone' failed' : Nat → Prop} (hg : ∀ j, gone' j ↔ gone j ∨ j = k)
    (hf : ∀ j r rows, o = some r → Departs k p r rows →
      (failed' j ↔ failed j ∨ j = k ∧ r = .error (.store .unreachable))) :
    p'.Kept q gone' failed' ∧ p'.Enrolled gone' := by
  cases hs with
  | keeps hapart => exact hapart.elim
  | @leaves _ r rows hd =>
    rw [h.home]
    refine ⟨h.leaves hk hd hg fun j => hf j r rows rfl hd, ?_⟩
    have hplaces : 0 < p.places.length := by
      rw [h.places]
      exact Nat.one_pos
    have hholding : k < (p.holding k none).faces.length := by
      rw [faces_holding]
      exact hk
    have hleaves := (he.holding hk none).leaves hplaces (h.conns.holding none) hholding hg
    rw [conn_holding] at hleaves
    exact hleaves

end Presence

/-! ## Repeating a disconnect -/

/-- A module but for the time at which it disconnected. -/
def Module.unmarked (m : Module) : Module := { m with lastDisconnectedAt := none }

/-- Only the times at which modules disconnected differ, and how often the clock was read. -/
structure World.OnlyMarked (w v : World) : Prop where
  store : ∃ modules, v.store = { w.store with live := { w.store.live with modules := modules } } ∧
    modules.map Module.unmarked = w.store.live.modules.map Module.unmarked
  nodes : v.nodes = w.nodes
  faces : v.peers.map Peer.face = w.peers.map Peer.face
  issued : v.issued = w.issued
  deliveries : v.deliveries = w.deliveries
  outbox : v.outbox = w.outbox

theorem World.nodes_setRooms_self (w : World) (n : Nat) :
    (w.setRooms n (w.node n).rooms).nodes = w.nodes := by
  apply List.ext_getElem?
  intro i
  unfold setRooms modifyNode
  rw [List.getElem?_modify]
  by_cases hi : n = i
  · subst hi
    unfold node
    cases w.nodes[n]? <;> simp
  · cases w.nodes[i]? <;> simp [hi]

theorem World.faces_detach {w : World} {s : Session} (hb : (w.peer s).context.backend = none) :
    (w.modifyPeer s fun p => { p with context := { p.context with backend := none } }).peers.map
      Peer.face = w.peers.map Peer.face := by
  apply List.ext_getElem?
  intro i
  unfold modifyPeer
  simp only [List.getElem?_map, List.getElem?_modify]
  by_cases hi : s.serial = i
  · subst hi
    unfold peer at hb
    cases hp : w.peers[s.serial]? with
    | none => rfl
    | some p =>
      rw [hp] at hb
      have hface : { p.context with backend := none } = p.context := by
        rw [← show p.context.backend = none from hb]
      simp [Peer.face, hface]
  · cases w.peers[i]? <;> simp [hi]

/-- Without a backend a disconnect writes nothing but the time. -/
theorem Lifecycle.Departure.modules {ctx : SessionContext} {w : World}
    {r : Except LifecycleError Unit} {t : Tables} (h : Departure ctx w r t)
    (hb : ctx.backend = none) : ∃ modules, t = { w.store.live with modules := modules } ∧
      modules.map Module.unmarked = w.store.live.modules.map Module.unmarked := by
  cases h with
  | unreachable _ _ => exact ⟨_, rfl, rfl⟩
  | unknown _ _ => exact ⟨_, rfl, rfl⟩
  | marks _ _ now =>
    unfold marked
    cases ctx.moduleId with
    | none => exact ⟨_, rfl, rfl⟩
    | some m =>
      refine ⟨_, rfl, ?_⟩
      unfold Table.modify
      rw [List.map_map]
      refine List.map_congr_left fun x _ => ?_
      by_cases hx : x.id = m <;> simp [hx, Module.unmarked]
  | withdraws _ hheld _ _ _ =>
    rw [hb] at hheld
    cases hheld

namespace Cluster

variable {underway : Delivery → Prop} {h : List Taken} {c : Cluster} {k : Nat}

/-- A session that is not registered and holds no backend disconnects once more. -/
theorem disconnect_repeated (hc : c.Steady fun _ => False) (hs : c.world.Sound)
    (hov : (c.apply (.disconnect k)).2 ≠ .overflow)
    (hr : (c.world.node (c.home k)).rooms.isConnected (c.session k).conn = false)
    (hb : (c.world.peer (c.session k)).context.backend = none) :
    c.world.OnlyMarked (c.apply (.disconnect k)).1.world := by
  obtain ⟨w, ⟨r, -, hleft⟩, hset, -⟩ := apply_effect hc (.disconnect k) (by simp) hov
  obtain ⟨readings, t, -, hd, rfl⟩ := hleft.departed
  obtain ⟨modules, rfl, hmodules⟩ := hd.modules hb
  obtain ⟨time, ps, ds, hworld, hfaces, hds⟩ := hset.passes hc.calm.outbox
  have hnone : ds = [] := List.eq_nil_iff_forall_not_mem.mpr fun d hd => (hds d hd).2
  rw [RoomIndex.unregister_idle (hs _) hr] at hworld hfaces
  rw [hworld, hnone]
  constructor
  · exact ⟨modules, rfl, hmodules⟩
  · exact World.nodes_setRooms_self c.world (c.home k)
  · exact hfaces.trans (World.faces_detach hb)
  · rfl
  · rfl
  · rfl

/-! ## Runs on one node -/

/-- A session disconnected during a run. -/
def Gone (h : List Taken) (k : Nat) : Prop := ∃ x ∈ h, x.input = .disconnect k

/-- A step in which a session disconnected and a store error was answered. -/
def Taken.Fails (k : Nat) : Taken → Prop
  | ⟨_, .disconnect j, some (.error (.store _)), _⟩ => j = k
  | _ => False

/-- A session disconnected, and a store error was answered. -/
def Failed (h : List Taken) (k : Nat) : Prop := ∃ x ∈ h, x.Fails k

/-- What a sweep reported that succeeded. -/
def Taken.swept : Taken → Option SweepReport
  | ⟨_, .clearPhantoms _, some (.ok r), _⟩ => some r
  | _ => none

/-- What the node is asked for in an orderly way, by the sessions that disconnected so far. -/
def Orderly (h : List Taken) (c : Cluster) (i : Input) : Prop := c.presence.Allows (Gone h) i

theorem gone_concat {x : Taken} : Gone (h ++ [x]) k ↔ Gone h k ∨ x.input = .disconnect k := by
  simp [Gone, or_and_right, exists_or]

theorem failed_concat {x : Taken} : Failed (h ++ [x]) k ↔ Failed h k ∨ x.Fails k := by
  simp [Failed, or_and_right, exists_or]

/-- What a run on one node keeps. -/
structure Tidy (q : Profile) (h : List Taken) (c : Cluster) : Prop where
  steady : c.Steady fun _ => False
  sound : c.world.Sound
  kept : c.presence.Kept q (Gone h) (Failed h)
  enrolled : c.presence.Enrolled (Gone h)

theorem start_tidy (q : Profile) (at_ : Timestamp) : Tidy q [] (Cluster.start [q] at_) where
  steady := start_steady _ _
  sound := start_sound _ _
  kept := by
    have hnone : ∀ k, ((Cluster.start [q] at_).presence.context k).backend = none := fun _ => rfl
    constructor
    · exact start_owned
    · rfl
    · rfl
    · exact fun _ => rfl
    · intro j k hj
      exact absurd hj (Nat.not_lt_zero j)
    · rintro k ⟨x, hx, -⟩
      cases hx
    · rintro k ⟨x, hx, -⟩
      cases hx
    · intro k b hb
      rw [hnone] at hb
      cases hb
    · intro k b hb
      rw [hnone] at hb
      cases hb
    · nofun
  enrolled := by
    intro s
    constructor
    · intro hs
      cases hs
    · rintro ⟨hlt, -⟩
      exact absurd hlt (Nat.not_lt_zero _)

theorem gone_same {x : Taken} (hx : ∀ k, x.input ≠ .disconnect k) : Gone (h ++ [x]) = Gone h := by
  funext k
  refine propext (gone_concat.trans (or_iff_left (hx k)))

theorem failed_same {x : Taken} (hx : ∀ k, x.input ≠ .disconnect k) : Failed (h ++ [x]) = Failed h := by
  funext k
  refine propext (failed_concat.trans (or_iff_left fun hf => ?_))
  obtain ⟨before, i, o, after⟩ := x
  cases i with
  | disconnect j => exact hx j rfl
  | _ => exact hf

/-- A disconnect answers a store error only if the store could not be reached. -/
theorem fails_iff {p : Presence} {r : Except LifecycleError Unit} {rows : List Backend} {j : Nat}
    {before after : Cluster} (hd : p.Departs k r rows) :
    Taken.Fails j ⟨before, .disconnect k, some r, after⟩ ↔ j = k ∧ r = .error (.store .unreachable) := by
  cases hd with
  | unreachable _ _ => simp [Taken.Fails, eq_comm]
  | empty _ => simp [Taken.Fails]
  | withdraws _ _ => simp [Taken.Fails]

theorem orderly_managed {i : Input} (hi : Orderly h c i) : Managed i := by
  rintro call rfl
  exact hi.elim

theorem orderly_no_poll {i : Input} (hi : Orderly h c i) (n : Nat) (hp : i = .poll n) (l : Limits)
    (k : Notification) :
    Simulation.Announced (fun _ => False) c.world (c.world.notices n l k) := by
  subst hp
  exact hi.elim

/-- What a step does to the presence of the node. -/
theorem Tidy.presence_step {q : Profile} (ht : Tidy q h c) {i : Input} (hi : Orderly h c i)
    (hov : (c.apply i).2 ≠ .overflow) :
    c.presence.Step i (c.apply i).2.value? (c.apply i).1.presence :=
  apply_presence ht.steady i (orderly_no_poll hi) (orderly_managed hi) hov

theorem Tidy.step {q : Profile} (ht : Tidy q h c) {i : Input} (hk : c.Knows i) (hi : Orderly h c i)
    (hov : (c.apply i).2 ≠ .overflow) : Tidy q (h ++ [c.take i]) (c.apply i).1 := by
  have hs := ht.presence_step hi hov
  have hknows := presence_knows hk
  obtain ⟨_, -, -, hsteady⟩ := apply_effect ht.steady i (orderly_no_poll hi) hov
  have hsound := apply_sound ht.steady i (orderly_no_poll hi) hov ht.sound
  by_cases hd : ∃ k, i = .disconnect k
  · obtain ⟨k, rfl⟩ := hd
    have hg : ∀ j, Gone (h ++ [c.take (.disconnect k)]) j ↔ Gone h j ∨ j = k := by
      intro j
      rw [gone_concat]
      simp [Cluster.take, eq_comm]
    have hf : ∀ j r rows, (c.apply (.disconnect k)).2.value? = some r →
        c.presence.Departs k r rows → (Failed (h ++ [c.take (.disconnect k)]) j ↔
          Failed h j ∨ j = k ∧ r = .error (.store .unreachable)) := by
      intro j r rows ho hdeparts
      rw [failed_concat, Cluster.take, ho, fails_iff hdeparts]
    obtain ⟨hkept, henrolled⟩ := ht.kept.disconnect ht.enrolled hs hknows hg hf
    exact ⟨hsteady, hsound, hkept, henrolled⟩
  · have hne : ∀ k, i ≠ .disconnect k := fun k hk => hd ⟨k, hk⟩
    obtain ⟨hkept, henrolled⟩ := ht.kept.step ht.enrolled hs hknows hi hne
    refine ⟨hsteady, hsound, ?_, ?_⟩
    · rw [gone_same hne, failed_same hne]
      exact hkept
    · rw [gone_same hne]
      exact henrolled

theorem run_tidy {q : Profile} {at_ : Timestamp}
    (hrun : Run Orderly (Cluster.start [q] at_) h c) : Tidy q h c := by
  induction hrun with
  | start => exact start_tidy q at_
  | step hrun i hk hi hov ih => exact ih.step hk hi hov

/-! ## The law of backends -/

/-- A sweep that finds no phantom writes nothing. -/
theorem sweep_idle (hc : c.Steady underway) {n : Nat} (hov : (c.apply (.clearPhantoms n)).2 ≠ .overflow)
    (hp : c.presence.phantoms n = []) :
    (c.apply (.clearPhantoms n)).1.world.store.live = c.world.store.live ∧
      ∀ r, (c.take (.clearPhantoms n)).swept = some r → r.deleted = 0 := by
  obtain ⟨w, heff, hset, -⟩ := apply_effect hc (.clearPhantoms n) (by simp) hov
  have hnone : Sweep.phantoms (c.profile n).nodeId (c.world.node n).rooms c.world.store.live = [] := by
    refine List.eq_nil_iff_forall_not_mem.mpr fun b hb => ?_
    have hphantom := (mem_phantoms n).mpr hb
    rw [hp] at hphantom
    cases hphantom
  have hattempt := heff default
  rw [hset.store]
  unfold Cluster.take
  generalize (c.apply (.clearPhantoms n)).2.value? = o at hattempt ⊢
  cases hattempt with
  | failed ha ho =>
    obtain ⟨t, r, i, q, ps, ds, rfl, -⟩ := ha
    refine ⟨rfl, fun r hr => ?_⟩
    rcases o with _ | _ | x
    · cases hr
    · cases hr
    · exact absurd rfl (ho x)
  | succeeded h =>
    obtain ⟨-, hremoved⟩ := h
    cases hremoved with
    | nothing _ =>
      refine ⟨rfl, fun r hr => ?_⟩
      obtain rfl := Option.some.inj hr
      rfl
    | some hne _ => exact absurd hnone hne

/-- While the store can be reached, every disconnect takes its row along. -/
theorem run_available {q : Profile} {at_ : Timestamp}
    (hrun : Run Orderly (Cluster.start [q] at_) h c) (hup : ∀ x ∈ h, x.input ≠ .setAvailable false) :
    c.presence.available = true ∧ ∀ k, ¬ Failed h k := by
  induction hrun with
  | start =>
    refine ⟨rfl, ?_⟩
    rintro k ⟨x, hx, -⟩
    cases hx
  | @step h c hrun i hk hi hov ih =>
    obtain ⟨havailable, hnever⟩ := ih fun x hx => hup x (List.mem_append_left _ hx)
    have hs := (run_tidy hrun).presence_step hi hov
    have hinput : i ≠ .setAvailable false := hup (c.take i) (by simp)
    -- Of all steps only a disconnect can fail so, and only where the store is not reached.
    have hfails : ∀ k, ¬ (c.take i).Fails k := by
      intro k hf
      unfold Cluster.take at hf
      generalize (c.apply i).1.presence = p at hs
      generalize (c.apply i).2.value? = o at hs hf
      cases hs with
      | leaves hd =>
        rw [fails_iff hd] at hf
        obtain ⟨-, rfl⟩ := hf
        cases hd with
        | unreachable ha _ =>
          rw [havailable] at ha
          cases ha
      | keeps hapart => cases i <;> first | exact hapart.elim | exact hf.elim
      | _ => simp [Taken.Fails] at hf
    refine ⟨?_, fun k hf => (failed_concat.mp hf).elim (hnever k) (hfails k)⟩
    generalize (c.apply i).1.presence = p at hs ⊢
    generalize (c.apply i).2.value? = o at hs
    cases hs with
    | switches b _ =>
      cases b with
      | true => rfl
      | false => exact absurd rfl hinput
    | _ => exact havailable

/-- What holds of backends in every state that one node reaches. -/
structure NoLeaks (node : NodeId) (h : List Taken) (c : Cluster) : Prop where
  /-- A registered session that holds a backend has exactly its row. -/
  stored : ∀ s ∈ c.presence.registered 0, ∀ b, (c.presence.context s.serial).backend = some b →
    c.presence.rows.filter (·.connectionId = s.conn) = [b]
  /-- A row is held by a registered session, or was left behind by a disconnect that failed. -/
  explained : ∀ b ∈ c.presence.rows, b.nodeId = node →
    (∃ s ∈ c.presence.registered 0, s.conn = b.connectionId ∧
      (c.presence.context s.serial).backend = some b) ∨
    ∃ k, c.presence.conn k = b.connectionId ∧ Failed h k
  /-- After a sweep the rows are the backends of the registered sessions. -/
  swept : ∀ x ∈ h, x.swept.isSome → ∀ b, (b ∈ x.after.presence.rows ∧ b.nodeId = node ↔
    ∃ s ∈ x.after.presence.registered 0, (x.after.presence.context s.serial).backend = some b)
  /-- With a store that was always there a sweep finds nothing. -/
  idle : (∀ x ∈ h, x.input ≠ .setAvailable false) → ∀ x ∈ h, x.input = .clearPhantoms 0 →
    x.after.world.store.live = x.before.world.store.live ∧ ∀ r, x.swept = some r → r.deleted = 0
  /-- To disconnect again changes the time of that at most. -/
  repeated : ∀ h₁ x h₂ k, h = h₁ ++ x :: h₂ → x.input = .disconnect k → Gone h₁ k →
    x.before.world.OnlyMarked x.after.world

/-- A row of a registered session that holds a backend is the only one of its connection. -/
theorem Tidy.stored {q : Profile} (ht : Tidy q h c) {s : Session}
    (hs : s ∈ c.presence.registered 0) {b : Backend}
    (hb : (c.presence.context s.serial).backend = some b) :
    c.presence.rows.filter (·.connectionId = s.conn) = [b] := by
  obtain ⟨-, heq, -, -⟩ := (ht.enrolled s).mp hs
  have hrow := ht.kept.stored _ b hb
  have hconn : b.connectionId = s.conn := by
    rw [ht.kept.owned.held _ b hb, heq]
    rfl
  rw [← hconn]
  exact Table.filter_key ht.kept.owned.keyed hrow

theorem Tidy.explained {q : Profile} (ht : Tidy q h c) {b : Backend} (hb : b ∈ c.presence.rows) :
    (∃ s ∈ c.presence.registered 0, s.conn = b.connectionId ∧
      (c.presence.context s.serial).backend = some b) ∨
    ∃ k, c.presence.conn k = b.connectionId ∧ Failed h k := by
  obtain ⟨k, -, hconn, hheld | hmissed⟩ := ht.kept.explained b hb
  · exact .inl ⟨c.presence.session k, ht.kept.holder_registered ht.enrolled hheld, hconn, hheld⟩
  · exact .inr ⟨k, hconn, hmissed⟩

theorem Tidy.swept {q : Profile} (ht : Tidy q h c) {i : Input} (hk : c.Knows i)
    (hi : Orderly h c i) (hov : (c.apply i).2 ≠ .overflow) (hx : (c.take i).swept.isSome)
    (b : Backend) : b ∈ (c.apply i).1.presence.rows ∧ b.nodeId = q.nodeId ↔
      ∃ s ∈ (c.apply i).1.presence.registered 0,
        ((c.apply i).1.presence.context s.serial).backend = some b := by
  have hs := ht.presence_step hi hov
  have hknows := presence_knows hk
  unfold Cluster.take at hx
  generalize (c.apply i).1.presence = p at hs ⊢
  generalize (c.apply i).2.value? = o at hs hx
  cases hs with
  | @sweeps n _ _ =>
    have hn : n = 0 := by
      have hlt : n < c.presence.places.length := hknows
      rw [ht.kept.places] at hlt
      omega
    subst hn
    refine Iff.trans ⟨And.left, fun hb => ⟨hb, ?_⟩⟩ (ht.kept.mem_swept ht.enrolled)
    exact ht.kept.rows_owned (Presence.mem_without.mp hb).1
  | keeps hapart => cases i <;> first | exact hapart.elim | cases hx
  | @unswept n o ho =>
    rcases o with _ | _ | r
    · simp [Taken.swept] at hx
    · simp [Taken.swept] at hx
    · exact absurd rfl (ho r)
  | _ => simp [Taken.swept] at hx

/-- A session that disconnected is not registered. -/
theorem Tidy.disconnected {q : Profile} (ht : Tidy q h c) (hg : Gone h k) :
    (c.world.node (c.home k)).rooms.isConnected (c.session k).conn = false := by
  cases hc : (c.world.node (c.home k)).rooms.isConnected (c.session k).conn with
  | false => rfl
  | true =>
    obtain ⟨s, hs, hconn⟩ := RoomIndex.isConnected_iff.mp hc
    rw [← World.presence_registered (l := c.homes)] at hs
    change s ∈ c.presence.registered (c.presence.home k) at hs
    rw [ht.kept.home] at hs
    rw [← presence_conn] at hconn
    obtain ⟨-, -, -, hng⟩ := (ht.enrolled s).mp hs
    have hsk : s.serial = k :=
      ht.kept.serial_of_conn ht.enrolled hs (ht.kept.left k hg).1 hconn
    exact absurd (hsk ▸ hg) hng

/-- No backend leaks, and no live one is swept: over every run of transitions, sweeps and outages
on one node. -/
theorem no_backend_leaks {q : Profile} {at_ : Timestamp}
    (hrun : Run Orderly (Cluster.start [q] at_) h c) : NoLeaks q.nodeId h c := by
  have ht := run_tidy hrun
  constructor
  · exact fun s hs b hb => ht.stored hs hb
  · exact fun b hb _ => ht.explained hb
  · intro x hx hswept b
    obtain ⟨h₁, h₂, -, hrun₁, hk, hi, hov, heq⟩ := hrun.mem hx
    rw [heq] at hswept ⊢
    exact (run_tidy hrun₁).swept hk hi hov hswept b
  · intro hup x hx hinput
    obtain ⟨h₁, h₂, rfl, hrun₁, -, -, hov, heq⟩ := hrun.mem hx
    have ht₁ := run_tidy hrun₁
    obtain ⟨-, hnever⟩ := run_available hrun₁ fun y hy => hup y (List.mem_append_left _ hy)
    rw [heq, hinput]
    rw [hinput] at hov
    exact sweep_idle ht₁.steady hov (ht₁.kept.no_phantoms ht₁.enrolled hnever)
  · intro h₁ x h₂ k hsplit hinput hg
    obtain ⟨hrun₁, -, -, hov, heq⟩ := hrun.split hsplit
    have ht₁ := run_tidy hrun₁
    rw [heq, hinput]
    rw [hinput] at hov
    refine disconnect_repeated ht₁.steady ht₁.sound hov (ht₁.disconnected hg) ?_
    rw [← presence_context]
    exact (ht₁.kept.left k hg).2

/-- A session becomes ready and disconnects while the store cannot be reached; a sweep deletes what
it left behind, and it disconnects again. -/
theorem no_leak_after_outage :
    let c₀ := Cluster.start [⟨⟨"n1"⟩, ⟨2000, 2000⟩, ⟨100, .oldestFirst⟩⟩] default
    let connect : Input := .connect 0 ⟨"c1"⟩ .record "a"
    let ready : Input := .ready 0 ⟨"10.0.0.1:80", "", "", "", [], [], none⟩
    let c₁ := (c₀.apply connect).1
    let c₂ := (c₁.apply ready).1
    let c₃ := (c₂.apply (.setAvailable false)).1
    let c₄ := (c₃.apply (.disconnect 0)).1
    let c₅ := (c₄.apply (.setAvailable true)).1
    let c₆ := (c₅.apply (.clearPhantoms 0)).1
    let h := [c₀.take connect, c₁.take ready, c₂.take (.setAvailable false),
      c₃.take (.disconnect 0), c₄.take (.setAvailable true), c₅.take (.clearPhantoms 0),
      c₆.take (.disconnect 0)]
    (c₅.take (.clearPhantoms 0)).swept.map (·.deleted) = some 1 ∧
      NoLeaks ⟨"n1"⟩ h (c₆.apply (.disconnect 0)).1 := by
  intro c₀ connect ready c₁ c₂ c₃ c₄ c₅ c₆ h
  have hstates : c₀.Takes [connect, ready, .setAvailable false, .disconnect 0, .setAvailable true,
        .clearPhantoms 0, .disconnect 0] ∧
      (c₅.take (.clearPhantoms 0)).swept.map (·.deleted) = some 1 := by
    decide +kernel
  obtain ⟨htakes₀, hswept⟩ := hstates
  have hrun₀ : Run Orderly c₀ [] c₀ := .start
  have hnew : Orderly [] c₀ connect := by rintro k ⟨⟩
  have hready : ¬ Gone [c₀.take connect] 0 := by
    rintro ⟨x, hx, hd⟩
    obtain rfl := List.mem_singleton.mp hx
    cases hd
  obtain ⟨hrun₁, htakes₁⟩ := hrun₀.takes htakes₀ hnew c₁ rfl
  obtain ⟨hrun₂, htakes₂⟩ := hrun₁.takes htakes₁ hready c₂ rfl
  obtain ⟨hrun₃, htakes₃⟩ := hrun₂.takes htakes₂ trivial c₃ rfl
  obtain ⟨hrun₄, htakes₄⟩ := hrun₃.takes htakes₃ trivial c₄ rfl
  obtain ⟨hrun₅, htakes₅⟩ := hrun₄.takes htakes₄ trivial c₅ rfl
  obtain ⟨hrun₆, htakes₆⟩ := hrun₅.takes htakes₅ trivial c₆ rfl
  obtain ⟨hrun₇, -⟩ := hrun₆.takes htakes₆ trivial _ rfl
  have hrun : Run Orderly c₀ h (c₆.apply (.disconnect 0)).1 := hrun₇
  exact ⟨hswept, no_backend_leaks hrun⟩

end Cluster

end ConfigRegistry
