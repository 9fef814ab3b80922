import ConfigRegistry.Proofs.Presence

/-!
# Whose backends are whose

A row names the node it belongs to, but it is stored and deleted by its connection id
alone, and connection ids are unique on their node only. A step therefore leaves the
rows of other nodes alone unless it is the step of a session that shares its connection
id with the session of the row (`foreign_row_lost_iff`); two nodes that gave out one id
take each other's rows away (`foreign_row_replaced`).
-/

namespace ConfigRegistry

namespace Presence

variable {p p' : Presence} {i : Cluster.Input} {o : Option i.Reply} {b : Backend}

/-- Every row belongs to a session of its node and module, and no two rows are of one connection. -/
structure Owned (p : Presence) : Prop where
  keyed : p.rows.Pairwise (Backend.connectionId · ≠ Backend.connectionId ·)
  homes : p.homes.length = p.faces.length
  held : ∀ k b, (p.context k).backend = some b → b.connectionId = p.conn k
  owner : ∀ b ∈ p.rows, ∃ k, k < p.faces.length ∧ p.conn k = b.connectionId ∧
    (p.profile (p.home k)).nodeId = b.nodeId ∧ (p.context k).moduleId = some b.moduleId

theorem Owned.opened (h : p.Owned) (n : Nat) (id : ConnectionId) (behaviour : Behaviour)
    {ctx : SessionContext} (hb : ctx.backend = none) : (p.opened n id behaviour ctx).Owned where
  keyed := h.keyed
  homes := by simp [Presence.opened, h.homes]
  held := by
    intro k b hk
    rw [context_opened] at hk
    rw [conn_opened]
    by_cases hnew : k = p.faces.length
    · rw [if_pos hnew, hb] at hk
      simp at hk
    · rw [if_neg hnew] at hk ⊢
      exact h.held k b hk
  owner := by
    intro b hb
    obtain ⟨k, hk, hconn, hnode, hmodule⟩ := h.owner b hb
    have hold : k ≠ p.faces.length := Nat.ne_of_lt hk
    refine ⟨k, ?_, ?_, ?_, ?_⟩
    · simp only [Presence.opened, List.length_append]
      omega
    · rw [conn_opened, if_neg hold]
      exact hconn
    · rw [home_opened _ _ _ _ _ _ h.homes, if_neg hold]
      exact hnode
    · rw [context_opened, if_neg hold]
      exact hmodule

theorem Owned.atNode (h : p.Owned) (n : Nat) (f : List Session → List Session) :
    (p.atNode n f).Owned where
  keyed := h.keyed
  homes := h.homes
  held := h.held
  owner := by
    intro b hb
    obtain ⟨k, hk, hconn, hnode, hmodule⟩ := h.owner b hb
    refine ⟨k, hk, hconn, ?_, hmodule⟩
    rw [profile_atNode]
    exact hnode

theorem Owned.holding (h : p.Owned) {k : Nat} (hk : k < p.faces.length) {b : Option Backend}
    (hb : ∀ x, b = some x → x.connectionId = p.conn k) : (p.holding k b).Owned where
  keyed := h.keyed
  homes := by simp [Presence.holding, h.homes]
  held := by
    intro j x hx
    rw [conn_holding]
    rcases (backend_holding hk).mp hx with ⟨rfl, hnew⟩ | ⟨-, hold⟩
    · exact hb x hnew
    · exact h.held j x hold
  owner := by
    intro x hx
    obtain ⟨j, hj, hconn, hnode, hmodule⟩ := h.owner x hx
    refine ⟨j, by simpa [Presence.holding] using hj, (conn_holding ..).trans hconn, hnode, ?_⟩
    rw [context_holding _ _ _ _ hk]
    split
    · rename_i hjk
      exact hjk ▸ hmodule
    · exact hmodule

theorem Owned.fewer (h : p.Owned) {rows : List Backend} (hr : rows.Sublist p.rows) :
    Owned { p with rows := rows } where
  keyed := h.keyed.sublist hr
  homes := h.homes
  held := h.held
  owner := fun b hb => h.owner b (hr.subset hb)

theorem Owned.put (h : p.Owned) {k : Nat} {b : Backend} (hk : k < p.faces.length)
    (hc : b.connectionId = p.conn k) (hn : b.nodeId = (p.profile (p.home k)).nodeId)
    (hm : (p.context k).moduleId = some b.moduleId) :
    Owned { p with rows := Table.put Backend.connectionId b p.rows } where
  keyed := Table.keyed_put h.keyed b
  homes := h.homes
  held := h.held
  owner := by
    intro x hx
    rcases Table.mem_put.mp hx with ⟨hx, -⟩ | rfl
    · exact h.owner x hx
    · exact ⟨k, hk, hc.symm, hn.symm, hm⟩

theorem Departs.sublist {k : Nat} {r : Except LifecycleError Unit} {rows : List Backend}
    (h : Departs k p r rows) : rows.Sublist p.rows := by
  cases h with
  | unreachable _ _ => exact .refl _
  | empty _ => exact .refl _
  | withdraws _ _ => exact List.filter_sublist

theorem Owned.step (h : p.Owned) (hk : p.Knows i) (hs : Step p i o p') : p'.Owned := by
  cases hs with
  | keeps _ => exact h
  | switches b _ => exact ⟨h.keyed, h.homes, h.held, h.owner⟩
  | refused _ => exact h.opened _ _ _ rfl
  | connects _ => exact (h.opened _ _ _ rfl).atNode _ _
  | unready _ => exact h
  | @readies k _ b _ hc hn hm =>
    have hput := h.put hk hc hn hm
    exact hput.holding (b := some b) hk fun x hx => Option.some.inj hx ▸ hc
  | leaves hd => exact ((h.holding hk (by simp)).atNode _ _).fewer hd.sublist
  | unswept _ => exact h
  | sweeps _ => exact h.fewer List.filter_sublist
  | stays _ => exact h
  | departs _ => exact h.fewer List.filter_sublist

/-- A step of a session with the connection id of a row that stores or deletes a row: the session
becomes ready, or leaves with a backend. -/
def Reaches (p : Presence) (b : Backend) : (i : Cluster.Input) → Option i.Reply → Prop
  | .ready k _, some (.ok _) => p.conn k = b.connectionId
  | .disconnect k, _ => p.available = true ∧ (p.context k).backend ≠ none ∧ p.conn k = b.connectionId
  | _, _ => False

theorem mem_without {bs : List Backend} :
    b ∈ (p.without bs).rows ↔ b ∈ p.rows ∧ ∀ x ∈ bs, x.connectionId ≠ b.connectionId := by
  simp [without]

/-- Deleting rows of a node by their connections deletes no row of another node. -/
theorem Owned.foreign_kept (h : p.Owned) {n : Nat} {bs : List Backend} (hb : b ∈ p.rows)
    (hforeign : b.nodeId ≠ (p.profile n).nodeId) (hbs : ∀ x ∈ bs, x ∈ p.owned n) :
    b ∈ (p.without bs).rows := by
  refine mem_without.mpr ⟨hb, fun x hx hconn => ?_⟩
  obtain ⟨hrow, hnode⟩ := List.mem_filter.mp (hbs x hx)
  obtain rfl := Table.keyed_unique h.keyed hrow hb hconn
  exact hforeign (of_decide_eq_true hnode)

/-- What becomes of the row of another node in a step. -/
theorem Owned.foreign_lost_iff (h : p.Owned) (hs : Step p i o p') {n : Nat} (hn : p.actor i = some n)
    (hb : b ∈ p.rows) (hforeign : b.nodeId ≠ (p.profile n).nodeId) :
    b ∉ p'.rows ↔ p.Reaches b i o := by
  have hkept : b ∈ p'.rows → ¬ p.Reaches b i o → (b ∉ p'.rows ↔ p.Reaches b i o) :=
    fun hmem hr => iff_of_false (not_not_intro hmem) hr
  -- Two steps go by the connection id alone; sweeps go by the node.
  cases hs with
  | keeps hi => exact hkept hb (by cases i <;> first | exact hi.elim | exact id)
  | switches _ _ => simp [actor] at hn
  | refused _ => exact hkept hb id
  | connects _ => exact hkept hb id
  | @unready k _ o ho =>
    refine hkept hb ?_
    rcases o with _ | _ | x
    · exact id
    · exact id
    · exact absurd rfl (ho x)
  | @readies k d x ha hc hnode hm =>
    change b ∉ Table.put Backend.connectionId x p.rows ↔ p.conn k = b.connectionId
    obtain rfl := Option.some.inj hn
    have hne : b ≠ x := by
      rintro rfl
      exact hforeign hnode
    rw [Table.mem_put, hc]
    by_cases hconn : b.connectionId = p.conn k
    · simp [hconn, hne]
    · simp [hconn, hb, Ne.symm hconn]
  | @leaves k r rows hd =>
    change b ∉ rows ↔ p.available = true ∧ (p.context k).backend ≠ none ∧ p.conn k = b.connectionId
    cases hd with
    | unreachable ha _ => simp [ha, hb]
    | empty hnone => simp [hnone, hb]
    | withdraws ha hheld =>
      rw [Table.mem_erase, h.held k _ hheld, ha, hheld]
      by_cases hconn : b.connectionId = p.conn k
      · simp [hconn]
      · simp [hconn, hb, Ne.symm hconn]
  | unswept _ => exact hkept hb id
  | sweeps _ =>
    obtain rfl := Option.some.inj hn
    exact hkept (h.foreign_kept hb hforeign fun x hx => (List.mem_filter.mp hx).1) id
  | stays _ => exact hkept hb id
  | departs _ =>
    obtain rfl := Option.some.inj hn
    exact hkept (h.foreign_kept hb hforeign fun x hx => hx) id

end Presence

namespace Cluster

variable {profiles : List Profile} {at_ : Timestamp} {h : List Taken} {c : Cluster} {x : Taken}

/-- Backends are written by steps of nodes only. -/
def Managed (i : Input) : Prop := ∀ call, i = .call call → Presence.Apart i

theorem start_owned : (Cluster.start profiles at_).presence.Owned where
  keyed := .nil
  homes := rfl
  held := by
    intro k b hb
    have hnone : ((Cluster.start profiles at_).presence.context k).backend = none := rfl
    rw [hnone] at hb
    cases hb
  owner := nofun

theorem run_owned (hrun : Run (fun _ _ i => Managed i) (Cluster.start profiles at_) h c) :
    c.Steady (fun _ => True) ∧ c.presence.Owned := by
  induction hrun with
  | start => exact ⟨start_steady _ _, start_owned⟩
  | @step h c hrun i hk hi hov ih =>
    obtain ⟨hsteady, howned⟩ := ih
    have hu : ∀ n, i = .poll n → ∀ l k,
        Simulation.Announced (fun _ => True) c.world (c.world.notices n l k) :=
      fun _ _ _ _ _ _ _ => trivial
    obtain ⟨_, -, -, hsteady'⟩ := apply_effect hsteady i hu hov
    exact ⟨hsteady', howned.step (presence_knows hk) (apply_presence hsteady i hu hi hov)⟩

/-- Over every run in which backends are written by nodes only, a step of a node loses the row of
another node just when it is the step of a session with the connection id of the row that stores or
deletes a row. The row then belongs to a session that got the same id from the other node. -/
theorem foreign_row_lost_iff (hrun : Run (fun _ _ i => Managed i) (Cluster.start profiles at_) h c)
    (hx : x ∈ h) {n : Nat} (hn : x.before.presence.actor x.input = some n) {b : Backend}
    (hb : b ∈ x.before.presence.rows)
    (hforeign : b.nodeId ≠ (x.before.presence.profile n).nodeId) :
    (b ∉ x.after.presence.rows ↔ x.before.presence.Reaches b x.input x.reply) ∧
    ∃ k, k < x.before.presence.faces.length ∧ x.before.presence.home k ≠ n ∧
      x.before.presence.conn k = b.connectionId ∧
      (x.before.presence.profile (x.before.presence.home k)).nodeId = b.nodeId := by
  obtain ⟨h₁, h₂, rfl, hrun₁, hk, hi, hov, heq⟩ := hrun.mem hx
  obtain ⟨hsteady, howned⟩ := run_owned hrun₁
  have hs : x.before.presence.Step x.input x.reply x.after.presence := by
    rw [heq]
    exact apply_presence hsteady _ (fun _ _ _ _ _ _ _ => trivial) hi hov
  refine ⟨howned.foreign_lost_iff hs hn hb hforeign, ?_⟩
  obtain ⟨k, hlt, hconn, hnode, -⟩ := howned.owner b hb
  refine ⟨k, hlt, ?_, hconn, hnode⟩
  rintro rfl
  exact hforeign hnode.symm

/-! ## Two nodes that give out one connection id -/

/-- Transitions and sweeps, with connection ids that are unique on their node. -/
def UniqueOnNode (c : Cluster) : Input → Prop
  | .connect n id _ _ => ∀ k, k < c.homes.length → c.home k = n → c.presence.conn k ≠ id
  | .ready .. | .disconnect _ | .clearPhantoms _ | .deleteOwn _ => True
  | _ => False

/-- Two nodes around one store. -/
def twin₀ : Cluster :=
  .start [⟨⟨"n1"⟩, ⟨2000, 2000⟩, ⟨100, .oldestFirst⟩⟩, ⟨⟨"n2"⟩, ⟨2000, 2000⟩, ⟨100, .oldestFirst⟩⟩] default

/-- Their transports give out the same connection id. -/
def twin₁ : Cluster := (twin₀.apply (.connect 0 ⟨"c1"⟩ .record "first")).1
def twin₂ : Cluster := (twin₁.apply (.connect 1 ⟨"c1"⟩ .record "second")).1

def twinAddress : BackendDeclaration := ⟨"10.0.0.1:80", "", "", "", [], [], none⟩

/-- The session of the first node is ready. -/
def twin₃ : Cluster := (twin₂.apply (.ready 0 twinAddress)).1

def twinHistory : List Taken :=
  [twin₀.take (.connect 0 ⟨"c1"⟩ .record "first"), twin₁.take (.connect 1 ⟨"c1"⟩ .record "second"),
    twin₂.take (.ready 0 twinAddress), twin₃.take (.ready 1 twinAddress)]

theorem twin_run (admits : List Taken → Cluster → Input → Prop)
    (h₀ : admits [] twin₀ (.connect 0 ⟨"c1"⟩ .record "first"))
    (h₁ : ∀ h, admits h twin₁ (.connect 1 ⟨"c1"⟩ .record "second"))
    (h₂ : ∀ h, admits h twin₂ (.ready 0 twinAddress))
    (h₃ : ∀ h, admits h twin₃ (.ready 1 twinAddress)) :
    Run admits twin₀ twinHistory (twin₃.apply (.ready 1 twinAddress)).1 := by
  have hrun₁ : Run admits twin₀ [twin₀.take (.connect 0 ⟨"c1"⟩ .record "first")] twin₁ :=
    .step .start _ (Nat.zero_lt_succ _) h₀ (ne_overflow (by decide +kernel))
  have hrun₂ : Run admits twin₀ _ twin₂ :=
    hrun₁.step _ (Nat.lt_succ_self 1) (h₁ _) (ne_overflow (by decide +kernel))
  have hrun₃ : Run admits twin₀ _ twin₃ :=
    hrun₂.step (.ready 0 twinAddress) (by change 0 < twin₂.world.peers.length; decide +kernel) (h₂ _)
      (ne_overflow (by decide +kernel))
  exact hrun₃.step (.ready 1 twinAddress) (by change 1 < twin₃.world.peers.length; decide +kernel)
    (h₃ _) (ne_overflow (by decide +kernel))

/-- The backend of the first node is stored, then the one of the second node is in its place. -/
theorem twin_rows : ∃ b, b.nodeId = ⟨"n1"⟩ ∧ b ∈ twin₃.presence.rows ∧
    b ∉ (twin₃.take (.ready 1 twinAddress)).after.presence.rows := by
  have hbefore : twin₃.presence.rows.map (·.nodeId) = [⟨"n1"⟩] := by decide +kernel
  have hafter : (twin₃.take (.ready 1 twinAddress)).after.presence.rows.map (·.nodeId) = [⟨"n2"⟩] := by
    decide +kernel
  have hmem : (⟨"n1"⟩ : NodeId) ∈ twin₃.presence.rows.map (·.nodeId) := by simp [hbefore]
  obtain ⟨b, hb, hnode⟩ := List.mem_map.mp hmem
  refine ⟨b, hnode, hb, fun hb' => ?_⟩
  have hnode' := List.mem_map_of_mem (f := (·.nodeId)) hb'
  rw [hafter, hnode] at hnode'
  exact absurd hnode' (by decide)

/-- Nodes with different names do lose rows to each other. -/
theorem foreign_row_replaced :
    ¬ ∀ (profiles : List Profile) (at_ : Timestamp) (h : List Taken) (c : Cluster),
      profiles.Pairwise (·.nodeId ≠ ·.nodeId) →
      Run (fun _ c i => UniqueOnNode c i) (Cluster.start profiles at_) h c →
      ∀ x ∈ h, ∀ n b, x.before.presence.actor x.input = some n → b ∈ x.before.presence.rows →
        b.nodeId ≠ (x.before.presence.profile n).nodeId → b ∈ x.after.presence.rows := by
  intro hclaim
  have hrun := twin_run (fun _ c i => UniqueOnNode c i) (by rintro k ⟨⟩)
    (fun _ => by change ∀ k, k < twin₁.homes.length → twin₁.home k = 1 → _; decide +kernel)
    (fun _ => trivial) fun _ => trivial
  obtain ⟨b, hnode, hb, hlost⟩ := twin_rows
  refine hlost (hclaim _ _ _ _ (by decide) hrun _ (by simp [twinHistory]) 1 b (by decide +kernel) hb ?_)
  rw [hnode]
  decide +kernel

/-- The step that takes the row away is one of a session with the connection id of the row. -/
theorem row_lost_to_same_id : ∃ b ∈ twin₃.presence.rows,
    twin₃.presence.Reaches b (.ready 1 twinAddress) (twin₃.take (.ready 1 twinAddress)).reply := by
  obtain ⟨b, hnode, hb, hlost⟩ := twin_rows
  have hrun := twin_run (fun _ _ i => Managed i) nofun (fun _ => nofun) (fun _ => nofun)
    fun _ => nofun
  have hforeign : b.nodeId ≠ (twin₃.presence.profile 1).nodeId := by
    rw [hnode]
    decide +kernel
  have hiff := foreign_row_lost_iff (x := twin₃.take (.ready 1 twinAddress)) hrun
    (by simp [twinHistory]) (n := 1) (by decide +kernel) hb hforeign
  exact ⟨b, hb, hiff.1.mp hlost⟩

end Cluster

end ConfigRegistry
