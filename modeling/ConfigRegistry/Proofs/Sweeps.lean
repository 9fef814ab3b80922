import ConfigRegistry.Proofs.Failures
import ConfigRegistry.Proofs.Outcomes
import Mathlib.Data.List.Dedup
import Mathlib.Data.List.Induction

/-!
# What a sweep does

A sweep deletes backends of its own node and nothing else: those whose connections are not
registered, or on leaving all of them (`Sweep.Kind.Deletes`). Every module that loses backends
is announced once, in ascending order (`Sweep.Swept`). Behind a sweep the same sweep finds
nothing, and sweeps of different nodes do not get in each other's way.
-/

namespace ConfigRegistry

/-! ## Modules in order -/

theorem Uuid.compare_eq_lex (a b : Uuid) :
    a.compare b = List.compareLex Ord.compare a.toBytes b.toBytes := by
  have hlex : ∀ as bs : Bytes,
      Uuid.compare.compareLex as bs = List.compareLex Ord.compare as bs := by
    intro as
    induction as with
    | nil => intro bs; cases bs <;> rfl
    | cons a as ih =>
      intro bs
      cases bs with
      | nil => rfl
      | cons b bs =>
        rw [Uuid.compare.compareLex, List.compareLex_cons_cons, ih]
  exact hlex a.toBytes b.toBytes

instance : Std.TransCmp Uuid.compare where
  eq_swap := by
    intro a b
    rw [Uuid.compare_eq_lex, Uuid.compare_eq_lex]
    exact Std.OrientedCmp.eq_swap
  isLE_trans := by
    intro a b c
    rw [Uuid.compare_eq_lex, Uuid.compare_eq_lex, Uuid.compare_eq_lex]
    exact Std.TransCmp.isLE_trans

namespace Sweep

/-- Ids in ascending order, each once. -/
def Ascending (ms : List ModuleId) : Prop := ms.Pairwise fun a b => a.uuid.compare b.uuid = .lt

variable {m x : ModuleId} {ms : List ModuleId} {bs : List Backend}

theorem Ascending.nodup (h : Ascending ms) : ms.Nodup := by
  refine h.imp fun {a b} hlt => ?_
  rintro rfl
  have hself : a.uuid.compare a.uuid = .eq := Std.ReflCmp.compare_self
  rw [hself] at hlt
  cases hlt

theorem mem_insertId_iff : x ∈ insertId m ms ↔ x = m ∨ x ∈ ms := by
  constructor
  · intro hx
    induction ms with
    | nil => exact .inl (List.mem_singleton.mp hx)
    | cons y rest ih =>
      unfold insertId at hx
      split at hx
      · exact List.mem_cons.mp hx
      · exact .inr hx
      · rcases List.mem_cons.mp hx with rfl | hx
        · exact .inr List.mem_cons_self
        · exact (ih hx).imp_right (List.mem_cons_of_mem y)
  · obtain ⟨hself, hold⟩ := mem_insertId m ms
    rintro (rfl | hx)
    · exact hself
    · exact hold x hx

theorem ascending_insertId (h : Ascending ms) : Ascending (insertId m ms) := by
  induction ms with
  | nil => exact List.pairwise_singleton _ _
  | cons y rest ih =>
    obtain ⟨hy, hrest⟩ := List.pairwise_cons.mp h
    unfold insertId
    split
    · rename_i hlt
      refine List.pairwise_cons.mpr ⟨fun z hz => ?_, h⟩
      rcases List.mem_cons.mp hz with rfl | hz
      · exact hlt
      · exact Std.TransCmp.lt_trans hlt (hy z hz)
    · exact h
    · rename_i hgt
      refine List.pairwise_cons.mpr ⟨fun z hz => ?_, ih hrest⟩
      rcases mem_insertId_iff.mp hz with rfl | hz
      · exact Std.OrientedCmp.gt_iff_lt.mp hgt
      · exact hy z hz

theorem modulesOf_concat (bs : List Backend) (b : Backend) :
    modulesOf (bs ++ [b]) = insertId b.moduleId (modulesOf bs) := by
  simp [modulesOf]

theorem ascending_modulesOf (bs : List Backend) : Ascending (modulesOf bs) := by
  induction bs using List.reverseRecOn with
  | nil => exact .nil
  | append_singleton bs b ih => exact modulesOf_concat bs b ▸ ascending_insertId ih

theorem mem_modulesOf_iff : m ∈ modulesOf bs ↔ m ∈ bs.map (·.moduleId) := by
  induction bs using List.reverseRecOn with
  | nil => rfl
  | append_singleton bs b ih =>
    rw [modulesOf_concat, mem_insertId_iff, ih, List.map_append, List.mem_append, or_comm]
    simp

/-- Each module of some backends is listed once. -/
theorem modulesOf_perm (bs : List Backend) : (modulesOf bs).Perm (bs.map (·.moduleId)).dedup := by
  refine (List.perm_ext_iff_of_nodup (ascending_modulesOf bs).nodup (List.nodup_dedup _)).mpr ?_
  intro m
  rw [mem_modulesOf_iff, List.mem_dedup]

/-! ## What is deleted -/

/-- Which of its own backends a node deletes: those whose connections are gone, or all when it
leaves. -/
inductive Kind where
  | phantoms
  | leaving
  deriving DecidableEq

namespace Kind

def action (node : NodeId) (l : Limits) : Kind → Action HousekeepingError SweepReport
  | .phantoms => clearPhantoms node l
  | .leaving => deleteOwn node l

/-- Whether a sweep deletes a backend, for a node with these rooms. -/
def Deletes (k : Kind) (node : NodeId) (rooms : RoomIndex) (b : Backend) : Prop :=
  b.nodeId = node ∧ (k = .phantoms → rooms.isConnected b.connectionId = false)

instance (k : Kind) (node : NodeId) (rooms : RoomIndex) : DecidablePred (k.Deletes node rooms) :=
  fun b => inferInstanceAs
    (Decidable (b.nodeId = node ∧ (k = .phantoms → rooms.isConnected b.connectionId = false)))

/-- The backends that a sweep finds to delete. -/
def targets (node : NodeId) (rooms : RoomIndex) (t : Tables) : Kind → List Backend
  | .phantoms => Sweep.phantoms node rooms t
  | .leaving => t.backendsByNode node

/-- The modules that lose backends in a sweep, each once. -/
def lost (k : Kind) (node : NodeId) (rooms : RoomIndex) (t : Tables) : List ModuleId :=
  ((t.backends.filter (k.Deletes node rooms ·)).map (·.moduleId)).dedup

/-- The tables without the backends that a sweep deletes. -/
def clear (k : Kind) (node : NodeId) (rooms : RoomIndex) (t : Tables) : Tables :=
  { t with backends := t.backends.filter fun b => ¬ k.Deletes node rooms b }

end Kind

variable {k : Kind} {node : NodeId} {rooms : RoomIndex} {t : Tables}

theorem Kind.targets_perm :
    (k.targets node rooms t).Perm (t.backends.filter (k.Deletes node rooms ·)) := by
  have howned : (t.backendsByNode node).Perm (t.backends.filter (·.nodeId = node)) :=
    List.mergeSort_perm _ _
  cases k with
  | phantoms =>
    refine (howned.filter _).trans (.of_eq ?_)
    rw [List.filter_filter]
    refine List.filter_congr fun b _ => ?_
    simp [Kind.Deletes, Bool.and_comm]
  | leaving =>
    refine howned.trans (.of_eq (List.filter_congr fun b _ => ?_))
    simp [Kind.Deletes]

theorem Kind.mem_targets {b : Backend} :
    b ∈ k.targets node rooms t ↔ b ∈ t.backends ∧ k.Deletes node rooms b := by
  rw [Kind.targets_perm.mem_iff, List.mem_filter, decide_eq_true_iff]

theorem Kind.modulesOf_targets (k : Kind) (node : NodeId) (rooms : RoomIndex) (t : Tables) :
    (modulesOf (k.targets node rooms t)).Perm (k.lost node rooms t) :=
  (modulesOf_perm _).trans ((Kind.targets_perm.map _).dedup)

/-- Deleting by connection takes as many backends as there are connections, if each has one. -/
theorem length_deleteBackends {cs : List ConnectionId} (hcs : cs.Nodup)
    (hmem : ∀ c ∈ cs, ∃ b ∈ t.backends, b.connectionId = c) :
    (Tables.deleteBackends cs t).1.length = cs.length := by
  induction cs generalizing t with
  | nil => rfl
  | cons c rest ih =>
    obtain ⟨hc, hrest⟩ := List.nodup_cons.mp hcs
    obtain ⟨b, hb, hbc⟩ := hmem c List.mem_cons_self
    have hfound : (t.deleteBackend c).1.toList.length = 1 := by
      have hsome : (Table.find? Backend.connectionId c t.backends).isSome :=
        List.find?_isSome.mpr ⟨b, hb, decide_eq_true hbc⟩
      obtain ⟨x, hx⟩ := Option.isSome_iff_exists.mp hsome
      rw [Tables.deleteBackend, hx]
      rfl
    have hothers : ∀ c' ∈ rest, ∃ b ∈ (t.deleteBackend c).2.backends, b.connectionId = c' := by
      intro c' hc'
      obtain ⟨b', hb', rfl⟩ := hmem c' (List.mem_cons_of_mem c hc')
      exact ⟨b', Table.mem_erase.mpr ⟨hb', fun h => hc (h ▸ hc')⟩, rfl⟩
    rw [Tables.deleteBackends, List.length_append, hfound, ih hrest hothers, List.length_cons,
      Nat.add_comm]

section Keyed

variable (hkeyed : t.backends.Pairwise (Backend.connectionId · ≠ Backend.connectionId ·))

include hkeyed

/-- The connections of what a sweep deletes belong to no other backend. -/
theorem Kind.deleteBackends_targets :
    (Tables.deleteBackends ((k.targets node rooms t).map (·.connectionId)) t).2 =
      k.clear node rooms t := by
  rw [Tables.deleteBackends_eq, Kind.clear]
  congr 1
  refine List.filter_congr fun b hb => ?_
  rw [decide_eq_decide, not_iff_not, List.mem_map]
  constructor
  · rintro ⟨x, hx, hid⟩
    obtain ⟨hmem, hdeletes⟩ := Kind.mem_targets.mp hx
    exact Table.keyed_unique hkeyed hmem hb hid ▸ hdeletes
  · exact fun hdeletes => ⟨b, Kind.mem_targets.mpr ⟨hb, hdeletes⟩, rfl⟩

theorem Kind.length_deleted :
    (Tables.deleteBackends ((k.targets node rooms t).map (·.connectionId)) t).1.length =
      t.backends.countP (k.Deletes node rooms ·) := by
  have hnodup : ((t.backends.filter (k.Deletes node rooms ·)).map (·.connectionId)).Nodup :=
    List.pairwise_map.mpr (hkeyed.filter _)
  have hcs : ((k.targets node rooms t).map (·.connectionId)).Nodup :=
    (Kind.targets_perm.map _).nodup_iff.mpr hnodup
  rw [length_deleteBackends hcs, List.length_map, Kind.targets_perm.length_eq,
    List.countP_eq_length_filter]
  rintro c hc
  obtain ⟨b, hb, rfl⟩ := List.mem_map.mp hc
  exact ⟨b, (Kind.mem_targets.mp hb).1, rfl⟩

end Keyed

/-! ## Running a sweep -/

variable {l : Limits} {n checked : Nat} {w v : World} {r : SweepReport} {es : List Event}

theorem run_remove (hw : w.Responsive) (hbs : bs ≠ []) :
    w.run n (remove l checked bs).outcome =
      match Tables.appendAll? w.reading ((modulesOf bs).map fun m => ⟨.moduleDisconnected, m⟩)
        (Tables.deleteBackends (bs.map (·.connectionId)) w.store.live).2 with
      | some (_, t) => .finished (w.ticked.write t) (.ok ⟨checked,
          (Tables.deleteBackends (bs.map (·.connectionId)) w.store.live).1.length, modulesOf bs⟩)
      | none => .overflow := by
  unfold remove
  rw [if_neg (mt List.isEmpty_iff.mp hbs)]
  refine (Action.run_bind_ok (Action.run_call_ok hw rfl)).trans ?_
  cases h : Tables.appendAll? w.reading ((modulesOf bs).map fun m => ⟨.moduleDisconnected, m⟩)
      (Tables.deleteBackends (bs.map (·.connectionId)) w.store.live).2 with
  | none => exact Action.run_bind_overflow (Action.run_write_overflow (hw.write _) rfl h)
  | some x => exact (Action.run_bind_ok (Action.run_write (hw.write _) rfl h)).trans rfl

/-- What a sweep does: the backends it deletes are gone, and each module that lost some is announced.
Nothing else changes but that a read was served and the clock was read. -/
structure Swept (k : Kind) (n : Nat) (node : NodeId) (w : World) (r : SweepReport) (es : List Event)
    (v : World) : Prop where
  log : (k.clear node (w.node n).rooms w.store.live).Extends es v.store.live
  announced : es.map (·.payload) = r.modules.map fun m => ⟨.moduleDisconnected, m⟩
  ascending : Ascending r.modules
  modules : r.modules.Perm (k.lost node (w.node n).rooms w.store.live)
  checked : r.checked = w.store.live.backends.countP (·.nodeId = node)
  deleted : r.deleted = w.store.live.backends.countP (k.Deletes node (w.node n).rooms ·)
  rest : v = { w with
    readings := v.readings
    store := { w.store with live := v.store.live, reads := w.store.reads + 1 } }

/-- There are event ids left to announce so many modules. -/
def Announceable (t : Tables) (count : Nat) : Prop := t.lastEventId.toNat + count < UInt64.size

instance (t : Tables) (count : Nat) : Decidable (Announceable t count) :=
  inferInstanceAs (Decidable (t.lastEventId.toNat + count < UInt64.size))

theorem length_backendsByNode (node : NodeId) (t : Tables) :
    (t.backendsByNode node).length = t.backends.countP (·.nodeId = node) := by
  rw [Tables.backendsByNode, List.length_mergeSort, List.countP_eq_length_filter]

/-- A sweep looks at the backends of its node and removes those it is to delete. -/
theorem run_action (hw : w.Responsive) : w.run n (k.action node l).outcome =
    w.served.run n (remove l (w.store.live.backends.countP (·.nodeId = node))
      (k.targets node (w.node n).rooms w.store.live)).outcome := by
  rw [← length_backendsByNode]
  cases k with
  | phantoms =>
    refine (Action.run_bind_ok (Action.run_call_ok hw rfl)).trans ?_
    refine (Action.run_bind_ok (Action.run_ask rfl)).trans ?_
    rw [Kind.targets, ← phantoms_eq]
    rfl
  | leaving => exact (Action.run_bind_ok (Action.run_call_ok hw rfl)).trans rfl

theorem run_nothing (hw : w.Responsive)
    (hnone : k.targets node (w.node n).rooms w.store.live = []) :
    w.run n (k.action node l).outcome = .finished w.served
      (.ok ⟨w.store.live.backends.countP (·.nodeId = node), 0, []⟩) := by
  rw [run_action hw, hnone]
  rfl

section Keyed

variable (hkeyed : w.store.live.backends.Pairwise (Backend.connectionId · ≠ Backend.connectionId ·))

include hkeyed

/-- What a sweep finds is deleted and announced, unless the event ids run out. -/
theorem run_found (hw : w.Responsive) (hsome : k.targets node (w.node n).rooms w.store.live ≠ []) :
    w.run n (k.action node l).outcome =
      match Tables.appendAll? w.reading
        ((modulesOf (k.targets node (w.node n).rooms w.store.live)).map fun m =>
          ⟨.moduleDisconnected, m⟩) (k.clear node (w.node n).rooms w.store.live) with
      | some (_, t) => .finished (w.served.ticked.write t)
          (.ok ⟨w.store.live.backends.countP (·.nodeId = node),
            w.store.live.backends.countP (k.Deletes node (w.node n).rooms ·),
            modulesOf (k.targets node (w.node n).rooms w.store.live)⟩)
      | none => .overflow := by
  rw [run_action hw, run_remove hw.served hsome, World.served_live,
    Kind.deleteBackends_targets hkeyed, Kind.length_deleted hkeyed]
  rfl

theorem run_swept (hw : w.Responsive)
    (hids : Announceable w.store.live (k.lost node (w.node n).rooms w.store.live).length) :
    ∃ r es v, w.run n (k.action node l).outcome = .finished v (.ok r) ∧ Swept k n node w r es v := by
  have hmodules := k.modulesOf_targets node (w.node n).rooms w.store.live
  by_cases hnone : k.targets node (w.node n).rooms w.store.live = []
  · have hkeep : ∀ b ∈ w.store.live.backends, ¬ k.Deletes node (w.node n).rooms b :=
      fun b hb hd => List.not_mem_nil (hnone ▸ Kind.mem_targets.mpr ⟨hb, hd⟩)
    have hclear : k.clear node (w.node n).rooms w.store.live = w.store.live := by
      rw [Kind.clear, List.filter_eq_self.mpr fun b hb => decide_eq_true (hkeep b hb)]
    rw [hnone] at hmodules
    refine ⟨_, [], _, run_nothing hw hnone, ?_⟩
    exact {
      log := hclear.symm ▸ .refl _
      announced := rfl
      ascending := .nil
      modules := hmodules
      checked := rfl
      deleted := (List.countP_eq_zero.mpr fun b hb hd => hkeep b hb (of_decide_eq_true hd)).symm
      rest := rfl }
  · have hrun := run_found (l := l) hkeyed hw hnone
    obtain ⟨⟨es, t⟩, ht⟩ := Tables.appendAll?_isSome
      (t := k.clear node (w.node n).rooms w.store.live)
      ((modulesOf (k.targets node (w.node n).rooms w.store.live)).map fun m =>
        ⟨.moduleDisconnected, m⟩) w.reading
      (by rw [List.length_map, hmodules.length_eq]; exact hids)
    obtain ⟨hx, hpayloads⟩ := Tables.appendAll?_extends ht
    rw [ht] at hrun
    exact ⟨_, es, _, hrun, hx, hpayloads, ascending_modulesOf _, hmodules, rfl, rfl, rfl⟩

theorem run_overflow (hw : w.Responsive)
    (hids : ¬ Announceable w.store.live (k.lost node (w.node n).rooms w.store.live).length) :
    w.run n (k.action node l).outcome = .overflow := by
  have hmodules := k.modulesOf_targets node (w.node n).rooms w.store.live
  have hsome : k.targets node (w.node n).rooms w.store.live ≠ [] := by
    intro hnone
    rw [hnone] at hmodules
    have hlast : w.store.live.lastEventId.toNat < UInt64.size := w.store.live.lastEventId.toNat_lt
    exact hids (by rwa [Announceable, ← hmodules.length_eq])
  have hover : Tables.appendAll? w.reading
      ((modulesOf (k.targets node (w.node n).rooms w.store.live)).map fun m =>
        ⟨.moduleDisconnected, m⟩) (k.clear node (w.node n).rooms w.store.live) = none := by
    rw [Tables.appendAll?_eq_none, List.length_map, hmodules.length_eq]
    exact Nat.not_lt.mp hids
  rw [run_found hkeyed hw hsome, hover]

end Keyed

/-! ## Sweeps in a row -/

namespace Swept

theorem node_eq (h : Swept k n node w r es v) (i : Nat) : v.node i = w.node i := by
  rw [h.rest]
  rfl

theorem responsive (h : Swept k n node w r es v) (hw : w.Responsive) : v.Responsive := by
  rw [h.rest]
  exact ⟨hw.faults, hw.available⟩

theorem backends (h : Swept k n node w r es v) : v.store.live.backends =
    w.store.live.backends.filter fun b => ¬ k.Deletes node (w.node n).rooms b :=
  h.log.backends

/-- Behind a sweep the same sweep finds nothing. -/
theorem again (h : Swept k n node w r es v) (hw : w.Responsive) :
    v.run n (k.action node l).outcome = .finished v.served
      (.ok ⟨v.store.live.backends.countP (·.nodeId = node), 0, []⟩) := by
  refine run_nothing (h.responsive hw) (List.eq_nil_iff_forall_not_mem.mpr fun b hb => ?_)
  rw [h.node_eq] at hb
  obtain ⟨hmem, hdeletes⟩ := Kind.mem_targets.mp hb
  rw [h.backends] at hmem
  exact of_decide_eq_true (List.mem_filter.mp hmem).2 hdeletes

end Swept

variable {k' : Kind} {n' : Nat} {node' : NodeId} {rooms' : RoomIndex} {l' : Limits}

/-- A sweep leaves to other nodes what they are to delete. -/
theorem Kind.lost_of_swept (hne : node' ≠ node) (h : Swept k n node w r es v) :
    k'.lost node' rooms' v.store.live = k'.lost node' rooms' w.store.live := by
  have hfilter : v.store.live.backends.filter (k'.Deletes node' rooms' ·) =
      w.store.live.backends.filter (k'.Deletes node' rooms' ·) := by
    rw [h.backends, List.filter_filter]
    refine List.filter_congr fun b _ => ?_
    by_cases hd : k'.Deletes node' rooms' b
    · have hother : ¬ k.Deletes node (w.node n).rooms b := fun hd' => hne (hd.1.symm.trans hd'.1)
      simp [hd, hother]
    · simp [hd]
  rw [Kind.lost, hfilter, Kind.lost]

/-- Two sweeps, one after the other. -/
def inTurn (n : Nat) (a : Action HousekeepingError SweepReport) (n' : Nat)
    (a' : Action HousekeepingError SweepReport) (w : World) :
    World.Progress (Except HousekeepingError SweepReport) :=
  (w.run n a.outcome).andThen fun v _ => v.run n' a'.outcome

/-- Together two sweeps need the event ids that both need on their own. -/
theorem run_inTurn (n n' : Nat) (k k' : Kind) (l l' : Limits) (hw : w.Responsive)
    (hkeyed : w.store.live.backends.Pairwise (Backend.connectionId · ≠ Backend.connectionId ·))
    (hne : node' ≠ node) :
    let count := (k.lost node (w.node n).rooms w.store.live).length +
      (k'.lost node' (w.node n').rooms w.store.live).length
    (Announceable w.store.live count → ∃ r es v r' es' u,
      inTurn n (k.action node l) n' (k'.action node' l') w = .finished u (.ok r') ∧
        Swept k n node w r es v ∧ Swept k' n' node' v r' es' u) ∧
    (¬ Announceable w.store.live count →
      inTurn n (k.action node l) n' (k'.action node' l') w = .overflow) := by
  intro count
  by_cases hfirst : Announceable w.store.live (k.lost node (w.node n).rooms w.store.live).length
  · obtain ⟨r, es, v, hrun, hswept⟩ := run_swept (l := l) hkeyed hw hfirst
    have hlost : k'.lost node' (v.node n').rooms v.store.live =
        k'.lost node' (w.node n').rooms w.store.live := by
      rw [hswept.node_eq, Kind.lost_of_swept hne hswept]
    have hkeyed' : v.store.live.backends.Pairwise
        (Backend.connectionId · ≠ Backend.connectionId ·) := hswept.backends ▸ hkeyed.filter _
    have hids : Announceable v.store.live
        (k'.lost node' (v.node n').rooms v.store.live).length ↔ Announceable w.store.live count := by
      have hcount : es.length = (k.lost node (w.node n).rooms w.store.live).length := by
        rw [← hswept.modules.length_eq, ← List.length_map (f := Event.payload), hswept.announced,
          List.length_map]
      have hlast : v.store.live.lastEventId.toNat = w.store.live.lastEventId.toNat + es.length :=
        hswept.log.count
      rw [hlost, Announceable, Announceable, hlast, hcount, Nat.add_assoc]
    rw [inTurn, hrun]
    refine ⟨fun hall => ?_, fun hfew => ?_⟩
    · obtain ⟨r', es', u, hrun', hswept'⟩ :=
        run_swept (l := l') hkeyed' (hswept.responsive hw) (hids.mpr hall)
      exact ⟨r, es, v, r', es', u, hrun', hswept, hswept'⟩
    · exact run_overflow hkeyed' (hswept.responsive hw) (mt hids.mp hfew)
  · refine ⟨fun hall => absurd (Nat.lt_of_le_of_lt ?_ hall) hfirst, fun _ => ?_⟩
    · exact Nat.add_le_add_left (Nat.le_add_right _ _) _
    · rw [inTurn, run_overflow hkeyed hw hfirst]
      rfl

/-- In either order sweeps of different nodes delete the same and announce the same. -/
theorem Swept.either_order {v' u u' : World} {r₁ r₂ r₁' r₂' : SweepReport}
    {es₁ es₂ es₁' es₂' : List Event} (h₁ : Swept k n node w r₁ es₁ v)
    (h₂ : Swept k' n' node' v r₂ es₂ u) (h₁' : Swept k' n' node' w r₁' es₁' v')
    (h₂' : Swept k n node v' r₂' es₂' u') (hne : node' ≠ node) :
    u.store.live.backends = u'.store.live.backends ∧
    u.store.live.events = w.store.live.events ++ (es₁ ++ es₂) ∧
    u'.store.live.events = w.store.live.events ++ (es₁' ++ es₂') ∧
    ((es₁ ++ es₂).map (·.payload)).Perm ((es₁' ++ es₂').map (·.payload)) := by
  refine ⟨?rows, ?first, ?second, ?announced⟩
  case rows =>
    rw [h₂.backends, h₁.backends, h₂'.backends, h₁'.backends, h₁.node_eq, h₁'.node_eq,
      List.filter_filter, List.filter_filter]
    exact List.filter_congr fun b _ => Bool.and_comm _ _
  case first => rw [h₂.log.events, Kind.clear, h₁.log.events, Kind.clear, List.append_assoc]
  case second => rw [h₂'.log.events, Kind.clear, h₁'.log.events, Kind.clear, List.append_assoc]
  case announced =>
    have hfirst : r₁.modules.Perm r₂'.modules := by
      refine h₁.modules.trans (.trans (.of_eq ?_) h₂'.modules.symm)
      rw [Kind.lost_of_swept hne.symm h₁', h₁'.node_eq]
    have hsecond : r₂.modules.Perm r₁'.modules := by
      refine h₂.modules.trans (.trans (.of_eq ?_) h₁'.modules.symm)
      rw [Kind.lost_of_swept hne h₁, h₁.node_eq]
    rw [List.map_append, List.map_append, h₁.announced, h₂.announced, h₁'.announced, h₂'.announced]
    exact ((hfirst.map _).append (hsecond.map _)).trans List.perm_append_comm

/-- Whatever the tables and rooms: as long as there are event ids for it, a sweep deletes the backends
of its node that it is to delete and announces their modules; done again at once it finds nothing.
Sweeps of different nodes, of whatever kinds, leave the same backends and announce the same in
either order. -/
theorem swept_exactly (n : Nat) (w : World) (hw : w.Responsive)
    (hkeyed : w.store.live.backends.Pairwise (Backend.connectionId · ≠ Backend.connectionId ·))
    (k : Kind) (node : NodeId) (l : Limits) :
    let lost := (k.lost node (w.node n).rooms w.store.live).length
    (Announceable w.store.live lost → ∃ r es v,
      w.run n (k.action node l).outcome = .finished v (.ok r) ∧ Swept k n node w r es v ∧
      v.run n (k.action node l).outcome = .finished v.served
        (.ok ⟨v.store.live.backends.countP (·.nodeId = node), 0, []⟩)) ∧
    (¬ Announceable w.store.live lost → w.run n (k.action node l).outcome = .overflow) ∧
    ∀ (k' : Kind) (n' : Nat) (node' : NodeId) (l' : Limits), node' ≠ node →
      let both := lost + (k'.lost node' (w.node n').rooms w.store.live).length
      let one := inTurn n (k.action node l) n' (k'.action node' l') w
      let other := inTurn n' (k'.action node' l') n (k.action node l) w
      (Announceable w.store.live both → ∃ u u' r r' es es',
        one = .finished u (.ok r) ∧ other = .finished u' (.ok r') ∧
        u.store.live.backends = u'.store.live.backends ∧
        u.store.live.events = w.store.live.events ++ es ∧
        u'.store.live.events = w.store.live.events ++ es' ∧
        (es.map (·.payload)).Perm (es'.map (·.payload))) ∧
      (¬ Announceable w.store.live both → one = .overflow ∧ other = .overflow) := by
  intro lost
  refine ⟨fun hids => ?_, run_overflow hkeyed hw, fun k' n' node' l' hne => ?_⟩
  · obtain ⟨r, es, v, hrun, hswept⟩ := run_swept (l := l) hkeyed hw hids
    exact ⟨r, es, v, hrun, hswept, hswept.again hw⟩
  · intro both one other
    obtain ⟨hone, hone'⟩ := run_inTurn n n' k k' l l' hw hkeyed hne
    obtain ⟨hother, hother'⟩ := run_inTurn n' n k' k l' l hw hkeyed hne.symm
    rw [Nat.add_comm] at hother hother'
    refine ⟨fun hids => ?_, fun hids => ⟨hone' hids, hother' hids⟩⟩
    obtain ⟨r₁, es₁, v, r₂, es₂, u, hrun, h₁, h₂⟩ := hone hids
    obtain ⟨r₁', es₁', v', r₂', es₂', u', hrun', h₁', h₂'⟩ := hother hids
    exact ⟨u, u', r₂, r₂', es₁ ++ es₂, es₁' ++ es₂', hrun, hrun',
      Swept.either_order h₁ h₂ h₁' h₂' hne⟩

end Sweep

/-- Of three backends of the first node one is connected; the two others are of different modules. A
fourth backend is of another node. -/
def deserted : World :=
  let row (c : String) (m : UInt8) (node : String) : Backend :=
    { (default : Backend) with
      connectionId := ⟨c⟩, moduleId := ⟨⟨Vector.replicate 16 m⟩⟩, nodeId := ⟨node⟩ }
  let rooms : RoomIndex := RoomIndex.empty.register ⟨0, ⟨"c2"⟩⟩
  { World.initial default with
    nodes := [⟨⟨⟨"n1"⟩, ⟨2000, 2000⟩, ⟨2, .oldestFirst⟩⟩, rooms, 0, true⟩]
    store := { (World.initial default).store with
      live := { Tables.empty with
        backends := [row "c1" 2 "n1", row "c2" 1 "n1", row "c3" 1 "n1", row "c4" 1 "n2"] } } }

/-- Two backends of two modules are deleted. It does not matter whether the other node leaves before
or after that. -/
theorem deserted_swept :
    (∃ r es v, deserted.run 0 (Sweep.clearPhantoms ⟨"n1"⟩ ⟨2000, 2000⟩).outcome = .finished v (.ok r) ∧
      Sweep.Swept .phantoms 0 ⟨"n1"⟩ deserted r es v ∧
      r.checked = 3 ∧ r.deleted = 2 ∧ r.modules.length = 2) ∧
    ∃ u u' r r',
      Sweep.inTurn 0 (Sweep.clearPhantoms ⟨"n1"⟩ ⟨2000, 2000⟩) 1 (Sweep.deleteOwn ⟨"n2"⟩ ⟨2000, 2000⟩)
        deserted = .finished u (.ok r) ∧
      Sweep.inTurn 1 (Sweep.deleteOwn ⟨"n2"⟩ ⟨2000, 2000⟩) 0 (Sweep.clearPhantoms ⟨"n1"⟩ ⟨2000, 2000⟩)
        deserted = .finished u' (.ok r') ∧
      u.store.live.backends = u'.store.live.backends := by
  have hkeyed : deserted.store.live.backends.Pairwise
      (Backend.connectionId · ≠ Backend.connectionId ·) := by decide
  obtain ⟨hone, -, hboth⟩ :=
    Sweep.swept_exactly 0 deserted ⟨rfl, rfl⟩ hkeyed .phantoms ⟨"n1"⟩ ⟨2000, 2000⟩
  obtain ⟨r, es, v, hrun, hswept, -⟩ := hone (by decide +kernel)
  refine ⟨⟨r, es, v, hrun, hswept, hswept.checked.trans (by decide),
    hswept.deleted.trans (by decide), hswept.modules.length_eq.trans (by decide +kernel)⟩, ?_⟩
  obtain ⟨u, u', r, r', es, es', hone, hother, hrows, -⟩ :=
    (hboth .leaving 1 ⟨"n2"⟩ ⟨2000, 2000⟩ (by decide)).1 (by decide +kernel)
  exact ⟨u, u', r, r', hone, hother, hrows⟩

end ConfigRegistry
