import ConfigRegistry.Proofs.Presence

/-!
# Every change of a snapshot is announced

What subscribers are sent is read from the tables (`Tables.snapshot`). A write of a node
appends an event for every snapshot that it changes once there was one to be sent
(`Tables.Moves`), so a copy of the tables that lags behind is either right about a
snapshot or an event that the copy does not hold yet says so (`Tables.Behind`).
-/

namespace ConfigRegistry

/-- Whether an event calls for a snapshot to be sent: the one of its topic and module, and with a
change of backends the routing table. -/
def Event.Touches (k : Notification) (e : Event) : Prop :=
  Notification.ofEvent e = k ∨ k = .routing ∧ e.topic = .backends

namespace Event

variable {e : Event} {m : ModuleId}

theorem touches_config : e.Touches (.config m) ↔ e.topic = .config ∧ e.payload.moduleId = m := by
  unfold Touches Notification.ofEvent
  cases e.topic <;> simp

theorem touches_backends : e.Touches (.backends m) ↔ e.topic = .backends ∧ e.payload.moduleId = m := by
  unfold Touches Notification.ofEvent
  cases e.topic <;> simp

theorem touches_routing : e.Touches .routing ↔ e.topic = .backends := by
  unfold Touches Notification.ofEvent
  cases e.topic <;> simp

end Event

/-! ## The modules of backends -/

theorem Uuid.compareLex_eq {as bs : Bytes} (h : Uuid.compare.compareLex as bs = .eq) : as = bs := by
  induction as generalizing bs with
  | nil =>
    cases bs with
    | nil => rfl
    | cons b rest => cases h
  | cons a as ih =>
    cases bs with
    | nil => cases h
    | cons b bs =>
      unfold Uuid.compare.compareLex at h
      obtain ⟨hab, hrest⟩ := Ordering.then_eq_eq.mp h
      rw [Std.LawfulEqCmp.eq_of_compare hab, ih hrest]

theorem Uuid.eq_of_compare {a b : Uuid} (h : a.compare b = .eq) : a = b := by
  have hbytes := Uuid.compareLex_eq h
  have hsome := Uuid.ofBytes?_toBytes a
  rw [hbytes, Uuid.ofBytes?_toBytes] at hsome
  exact (Option.some.inj hsome).symm

namespace Sweep

theorem mem_insertId (m : ModuleId) (ms : List ModuleId) :
    m ∈ insertId m ms ∧ ∀ x ∈ ms, x ∈ insertId m ms := by
  induction ms with
  | nil => simp [insertId]
  | cons y rest ih =>
    unfold insertId
    split
    · exact ⟨List.mem_cons_self, fun x hx => List.mem_cons_of_mem m hx⟩
    · rename_i heq
      obtain rfl : m = y := by
        obtain ⟨u⟩ := m
        exact congrArg ModuleId.mk (Uuid.eq_of_compare heq)
      simp
    · refine ⟨List.mem_cons_of_mem y ih.1, fun x hx => ?_⟩
      rcases List.mem_cons.mp hx with rfl | hx
      · exact List.mem_cons_self
      · exact List.mem_cons_of_mem y (ih.2 x hx)

/-- The module of every backend is told of. -/
theorem mem_modulesOf {b : Backend} {bs : List Backend} (hb : b ∈ bs) : b.moduleId ∈ modulesOf bs := by
  have hfold : ∀ (bs : List Backend) (ms : List ModuleId),
      (∀ m ∈ ms, m ∈ bs.foldl (fun acc b => insertId b.moduleId acc) ms) ∧
      ∀ b ∈ bs, b.moduleId ∈ bs.foldl (fun acc b => insertId b.moduleId acc) ms := by
    intro bs
    induction bs with
    | nil => exact fun ms => ⟨fun _ h => h, nofun⟩
    | cons y rest ih =>
      intro ms
      obtain ⟨hkeep, hadd⟩ := ih (insertId y.moduleId ms)
      obtain ⟨hself, hold⟩ := mem_insertId y.moduleId ms
      refine ⟨fun m hm => hkeep m (hold m hm), fun b hb => ?_⟩
      rcases List.mem_cons.mp hb with rfl | hb
      · exact hkeep _ hself
      · exact hadd b hb
  exact (hfold bs []).2 b hb

end Sweep

namespace Tables

variable {t u t' v : Tables} {es : List Event} {e : Event} {k : Notification} {p : Bytes}
  {m : ModuleId} {start bound : EventId}

/-! ## Snapshots -/

/-- A payload is what is shown, or an event above `start` calls for another one. -/
def Current (start : EventId) (k : Notification) (p : Bytes) (t : Tables) : Prop :=
  t.snapshot k = .ok p ∨ ∃ e ∈ t.events, e.Touches k ∧ start < e.id

theorem snapshot_config_ok : t.snapshot (.config m) = .ok p ↔
    ∃ c, t.activeConfig m = some c ∧ c.data = p := by
  simp only [snapshot]
  cases t.activeConfig m <;> simp

/-- Only configs can be missing. -/
theorem snapshot_shown (h : ∀ m, k = .config m → t.activeConfig m ≠ none) :
    ∃ p, t.snapshot k = .ok p := by
  cases k with
  | config m =>
    obtain ⟨c, hc⟩ := Option.ne_none_iff_exists'.mp (h m rfl)
    exact ⟨c.data, snapshot_config_ok.mpr ⟨c, hc, rfl⟩⟩
  | backends m => exact ⟨_, rfl⟩
  | routing => exact ⟨_, rfl⟩

/-- All but configs is read off the rows of backends. -/
theorem snapshot_of_backends (hrows : u.backends = t.backends)
    (hk : ∀ m, k ≠ .config m) : u.snapshot k = t.snapshot k := by
  cases k with
  | config m => exact absurd rfl (hk m)
  | backends m => simp only [snapshot, backendsByModule, hrows]
  | routing => simp only [snapshot, allBackends, hrows]

theorem Extends.configs (h : t.Extends es t') : t'.configs = t.configs := by
  rw [h.rest]

theorem Extends.activeConfig (h : t.Extends es t') (m : ModuleId) :
    t'.activeConfig m = t.activeConfig m := by
  unfold Tables.activeConfig
  rw [h.configs]

/-- Events alone change no snapshot. -/
theorem Extends.snapshot (h : t.Extends es t') (k : Notification) : t'.snapshot k = t.snapshot k := by
  cases k with
  | config m => simp only [Tables.snapshot, h.activeConfig]
  | backends m => exact snapshot_of_backends h.backends (by simp)
  | routing => exact snapshot_of_backends h.backends (by simp)

/-! ## Moves -/

/-- Events were appended, with one for every snapshot that is not as it was; configs stay configured
and are announced only then. -/
structure Moves (t : Tables) (es : List Event) (t' : Tables) : Prop where
  events : t'.events = t.events ++ es
  le : t.lastEventId ≤ t'.lastEventId
  above : ∀ e ∈ es, t.lastEventId < e.id ∧ e.id ≤ t'.lastEventId
  sorted : es.Pairwise (·.id < ·.id)
  shows : ∀ k p, t.snapshot k = .ok p → t'.snapshot k = .ok p ∨ ∃ e ∈ es, e.Touches k
  keyed : t.configs.Pairwise (Config.id · ≠ Config.id ·) → t'.configs.Pairwise (Config.id · ≠ Config.id ·)
  configured : ∀ m, t.activeConfig m ≠ none → t'.activeConfig m ≠ none
  announced : ∀ e ∈ es, e.topic = .config → t'.activeConfig e.payload.moduleId ≠ none

/-- The tables are in order: the log is, config ids are distinct, and only configs that exist were
ever announced. -/
structure Regular (t : Tables) : Prop where
  logged : t.Logged
  keyed : t.configs.Pairwise (Config.id · ≠ Config.id ·)
  configured : ∀ e ∈ t.events, e.topic = .config → t.activeConfig e.payload.moduleId ≠ none

theorem empty_regular : Tables.empty.Regular where
  logged := empty_logged
  keyed := .nil
  configured := nofun

theorem Moves.refl (t : Tables) : t.Moves [] t where
  events := (List.append_nil _).symm
  le := UInt64.le_refl _
  above := nofun
  sorted := .nil
  shows := fun _ _ h => .inl h
  keyed := id
  configured := fun _ => id
  announced := nofun

theorem Moves.regular (h : t.Moves es t') (ht : t.Regular) : t'.Regular where
  logged := by
    constructor
    · rw [h.events]
      refine List.pairwise_append.mpr ⟨ht.logged.sorted, h.sorted, fun a ha b hb => ?_⟩
      exact UInt64.lt_of_le_of_lt (ht.logged.bounded a ha) (h.above b hb).1
    · intro e he
      rw [h.events] at he
      rcases List.mem_append.mp he with he | he
      · exact UInt64.le_trans (ht.logged.bounded e he) h.le
      · exact (h.above e he).2
  keyed := h.keyed ht.keyed
  configured := by
    intro e he htopic
    rw [h.events] at he
    rcases List.mem_append.mp he with he | he
    · exact h.configured _ (ht.configured e he htopic)
    · exact h.announced e he htopic

/-- What is current stays so: a change is announced by an event that is still to be read. -/
theorem Moves.current (h : t.Moves es t') (hstart : start ≤ t.lastEventId)
    (hp : t.Current start k p) : t'.Current start k p := by
  rcases hp with hp | ⟨e, he, htouch, hlt⟩
  · rcases h.shows k p hp with hp | ⟨e, he, htouch⟩
    · exact .inl hp
    · refine .inr ⟨e, ?_, htouch, UInt64.lt_of_le_of_lt hstart (h.above e he).1⟩
      rw [h.events]
      exact List.mem_append_right _ he
  · refine .inr ⟨e, ?_, htouch, hlt⟩
    rw [h.events]
    exact List.mem_append_left _ he

/-- What is current behind an event is current behind the ones before it. -/
theorem Current.mono (h : t.Current bound k p) (hle : start ≤ bound) : t.Current start k p :=
  h.imp id fun ⟨e, he, htouch, hlt⟩ => ⟨e, he, htouch, UInt64.lt_of_le_of_lt hle hlt⟩

/-! ## Copies that lag behind -/

/-- A copy lags behind the tables: it has the events up to its last one, and a snapshot of it that
is out of date is called for by a later event. -/
structure Behind (t v : Tables) : Prop where
  le : v.lastEventId ≤ t.lastEventId
  events : ∀ e ∈ t.events, e.id ≤ v.lastEventId → e ∈ v.events
  shows : ∀ k p, v.snapshot k = .ok p → t.Current v.lastEventId k p

theorem Behind.refl (t : Tables) : t.Behind t where
  le := UInt64.le_refl _
  events := fun _ he _ => he
  shows := fun _ _ h => .inl h

theorem Moves.behind (h : t.Moves es t') (hv : t.Behind v) : t'.Behind v where
  le := UInt64.le_trans hv.le h.le
  events := by
    intro e he hle
    rw [h.events] at he
    rcases List.mem_append.mp he with he | he
    · exact hv.events e he hle
    · exact absurd (UInt64.le_trans hle hv.le) (UInt64.not_le.mpr (h.above e he).1)
  shows := fun k p hp => h.current hv.le (hv.shows k p hp)

/-! ## Writes of backends -/

/-- A change followed by the events that announce it. -/
theorem moves_of (hx : u.Extends es t')
    (hlog : u.events = t.events ∧ u.lastEventId = t.lastEventId)
    (hshows : ∀ k p, t.snapshot k = .ok p → u.snapshot k = .ok p ∨ ∃ e ∈ es, e.Touches k)
    (hkeyed : t.configs.Pairwise (Config.id · ≠ Config.id ·) →
      u.configs.Pairwise (Config.id · ≠ Config.id ·))
    (hconf : ∀ m, t.activeConfig m ≠ none → u.activeConfig m ≠ none)
    (hann : ∀ e ∈ es, e.topic = .config → u.activeConfig e.payload.moduleId ≠ none) :
    t.Moves es t' where
  events := by rw [hx.events, hlog.1]
  le := hlog.2 ▸ hx.le
  above := hlog.2 ▸ hx.above
  sorted := hx.sorted
  shows := by
    intro k p hp
    rw [hx.snapshot]
    exact hshows k p hp
  keyed := by
    rw [hx.configs]
    exact hkeyed
  configured := by
    intro m
    rw [hx.activeConfig]
    exact hconf m
  announced := by
    intro e he htopic
    rw [hx.activeConfig]
    exact hann e he htopic

/-- Rows of backends change, and an event is appended for each of their modules. -/
theorem moves_rows (hx : u.Extends es t')
    (hlog : u.events = t.events ∧ u.lastEventId = t.lastEventId) (hconfigs : u.configs = t.configs)
    (htopic : ∀ e ∈ es, e.topic = .backends) (hrows : u.backends = t.backends ∨ es ≠ [])
    (hmodule : ∀ m, u.backends.filter (·.moduleId = m) = t.backends.filter (·.moduleId = m) ∨
      ∃ e ∈ es, e.payload.moduleId = m) : t.Moves es t' := by
  have hactive : ∀ m, u.activeConfig m = t.activeConfig m := by
    intro m
    unfold activeConfig
    rw [hconfigs]
  refine moves_of hx hlog ?_ (by rw [hconfigs]; exact id) ?_ ?_
  · intro k p hp
    cases k with
    | config m =>
      refine .inl ?_
      rw [snapshot_config_ok] at hp ⊢
      rw [hactive]
      exact hp
    | backends m =>
      rcases hmodule m with hsame | ⟨e, he, hm⟩
      · refine .inl ?_
        simp only [snapshot, backendsByModule, hsame] at hp ⊢
        exact hp
      · exact .inr ⟨e, he, Event.touches_backends.mpr ⟨htopic e he, hm⟩⟩
    | routing =>
      rcases hrows with hsame | hne
      · exact .inl ((snapshot_of_backends hsame (by simp)).trans hp)
      · obtain ⟨e, he⟩ := List.exists_mem_of_ne_nil es hne
        exact .inr ⟨e, he, Event.touches_routing.mpr (htopic e he)⟩
  · intro m
    rw [hactive]
    exact id
  · intro e he hconfig
    rw [htopic e he] at hconfig
    cases hconfig

/-- Tables that are not sent to subscribers change without events. -/
theorem moves_unshown (hlog : t'.events = t.events ∧ t'.lastEventId = t.lastEventId)
    (hconfigs : t'.configs = t.configs) (hrows : t'.backends = t.backends) : t.Moves [] t' :=
  moves_rows (.refl t') hlog hconfigs nofun (.inl hrows) fun m => .inl (by rw [hrows])

theorem append?_topic {q : EventPayload} {now : Timestamp} (h : t.append? q now = some (e, t')) :
    e.topic = q.kind.topic ∧ e.payload.moduleId = q.moduleId := by
  unfold Event.topic
  rw [(append?_extends h).2]
  exact ⟨rfl, rfl⟩

/-- A backend in place of one of its own module is announced. -/
theorem moves_insertBackend {b : Backend} {now : Timestamp}
    (ht : (t.insertBackend b).append? ⟨.moduleReady, b.moduleId⟩ now = some (e, t'))
    (hsame : ∀ old ∈ t.backends, old.connectionId = b.connectionId → old.moduleId = b.moduleId) :
    t.Moves [e] t' := by
  obtain ⟨htopic, hm⟩ := append?_topic ht
  refine moves_rows (append?_extends ht).1 ⟨rfl, rfl⟩ rfl ?_
    (.inr (List.cons_ne_nil _ _)) fun m => ?_
  · rintro x hx
    obtain rfl := List.mem_singleton.mp hx
    exact htopic
  · by_cases hb : b.moduleId = m
    · exact .inr ⟨e, List.mem_singleton_self e, hm.trans hb⟩
    · refine .inl ?_
      have hnone : [b].filter (·.moduleId = m) = [] := by simp [hb]
      unfold insertBackend Table.put Table.erase
      rw [List.filter_append, hnone, List.append_nil, List.filter_filter]
      refine List.filter_congr fun old hold => ?_
      by_cases hconn : old.connectionId = b.connectionId
      · have hne : old.moduleId ≠ m := fun h => hb ((hsame old hold hconn).symm.trans h)
        simp [hne]
      · simp [hconn]

/-- Rows are deleted, with an event for the module of each. -/
theorem moves_deleted {cs : List ConnectionId} (hx : u.Extends es t')
    (hlog : u.events = t.events ∧ u.lastEventId = t.lastEventId) (hconfigs : u.configs = t.configs)
    (hrows : u.backends = t.backends.filter fun b => b.connectionId ∉ cs)
    (htopic : ∀ e ∈ es, e.topic = .backends) (hne : es ≠ [])
    (hmodule : ∀ b ∈ t.backends, b.connectionId ∈ cs → ∃ e ∈ es, e.payload.moduleId = b.moduleId) :
    t.Moves es t' := by
  refine moves_rows hx hlog hconfigs htopic (.inr hne) fun m => ?_
  by_cases hm : ∃ e ∈ es, e.payload.moduleId = m
  · exact .inr hm
  · refine .inl ?_
    rw [hrows, List.filter_filter]
    refine List.filter_congr fun b hb => ?_
    by_cases hin : b.connectionId ∈ cs
    · have hother : b.moduleId ≠ m := by
        rintro rfl
        exact hm (hmodule b hb hin)
      simp [hother]
    · simp [hin]

/-- The backend of a session is withdrawn and announced. -/
theorem moves_withdrawn {ctx : SessionContext} {c : ConnectionId} {now now' : Timestamp}
    (ht : ((Lifecycle.marked ctx now t).deleteBackend c).2.append? ⟨.moduleDisconnected, m⟩ now' =
      some (e, t'))
    (hsame : ∀ old ∈ t.backends, old.connectionId = c → old.moduleId = m) : t.Moves [e] t' := by
  obtain ⟨htopic, hm⟩ := append?_topic ht
  obtain ⟨modules, hmarked⟩ : ∃ modules, Lifecycle.marked ctx now t = { t with modules := modules } := by
    unfold Lifecycle.marked
    split
    · exact ⟨t.modules, rfl⟩
    · exact ⟨_, rfl⟩
  rw [hmarked] at ht
  have hrows : ∀ c, Table.erase Backend.connectionId c t.backends =
      t.backends.filter fun b => b.connectionId ∉ [c] :=
    fun c => List.filter_congr fun b _ => by simp
  refine moves_deleted (append?_extends ht).1 ⟨rfl, rfl⟩ rfl (hrows c) ?_ (List.cons_ne_nil _ _) ?_
  · intro x hx
    obtain rfl := List.mem_singleton.mp hx
    exact htopic
  · intro b hb hin
    refine ⟨e, List.mem_singleton_self e, hm.trans ?_⟩
    exact (hsame b hb (List.mem_singleton.mp hin)).symm

/-- Rows that are deleted by their connections are announced module by module. -/
theorem moves_removed {bs : List Backend} {now : Timestamp} (hne : bs ≠ [])
    (hkeyed : t.backends.Pairwise (Backend.connectionId · ≠ Backend.connectionId ·))
    (hbs : ∀ b ∈ bs, b ∈ t.backends)
    (ht : appendAll? now ((Sweep.modulesOf bs).map fun m => ⟨.moduleDisconnected, m⟩)
      (deleteBackends (bs.map (·.connectionId)) t).2 = some (es, t')) : t.Moves es t' := by
  obtain ⟨hx, hpayloads⟩ := appendAll?_extends ht
  have hevent : ∀ b ∈ bs, ∃ e ∈ es, e.payload.moduleId = b.moduleId := by
    intro b hb
    have hmem : (⟨.moduleDisconnected, b.moduleId⟩ : EventPayload) ∈ es.map (·.payload) := by
      rw [hpayloads]
      exact List.mem_map_of_mem (f := fun m => (⟨.moduleDisconnected, m⟩ : EventPayload))
        (Sweep.mem_modulesOf hb)
    obtain ⟨e, he, hp⟩ := List.mem_map.mp hmem
    exact ⟨e, he, by rw [hp]⟩
  rw [deleteBackends_eq] at hx
  refine moves_deleted hx ⟨rfl, rfl⟩ rfl rfl ?_ ?_ ?_
  · intro e he
    have hp : e.payload ∈ es.map (·.payload) := List.mem_map_of_mem he
    rw [hpayloads] at hp
    obtain ⟨m, -, hm⟩ := List.mem_map.mp hp
    unfold Event.topic
    rw [← hm]
    rfl
  · obtain ⟨b, hb⟩ := List.exists_mem_of_ne_nil bs hne
    obtain ⟨e, he, -⟩ := hevent b hb
    exact List.ne_nil_of_mem he
  · intro b hb hin
    obtain ⟨x, hx, hconn⟩ := List.mem_map.mp hin
    obtain rfl := Table.keyed_unique hkeyed (hbs x hx) hb hconn
    exact hevent x hx

/-! ## Writes of configs -/

/-- A search that a change of the rows does not concern. -/
theorem find?_map_same {α : Type} {f : α → α} {q : α → Bool} {xs : List α}
    (h : ∀ x ∈ xs, q (f x) = q x ∧ (q x = true → f x = x)) : (xs.map f).find? q = xs.find? q := by
  induction xs with
  | nil => rfl
  | cons x rest ih =>
    obtain ⟨hq, hf⟩ := h x List.mem_cons_self
    have hrest := ih fun y hy => h y (List.mem_cons_of_mem x hy)
    rw [List.map_cons, List.find?_cons, List.find?_cons, hq, hrest]
    cases hx : q x with
    | true => rw [hf hx]
    | false => rfl

theorem activeConfig_some {c : Config} (h : t.activeConfig m = some c) :
    c ∈ t.configs ∧ c.moduleId = m ∧ c.active = true := by
  have hq := List.find?_some h
  rw [Bool.and_eq_true] at hq
  exact ⟨List.mem_of_find?_eq_some h, of_decide_eq_true hq.1, hq.2⟩

theorem activeConfig_ne_none {c : Config} (hc : c ∈ t.configs) (hm : c.moduleId = m)
    (ha : c.active = true) : t.activeConfig m ≠ none := by
  intro hnone
  have hq := List.find?_eq_none.mp hnone c hc
  simp [hm, ha] at hq

/-- Tables move, and an event calls for every snapshot that is another one, also where none was. -/
structure Publishes (t : Tables) (es : List Event) (t' : Tables) : Prop where
  moves : t.Moves es t'
  changes : ∀ k, t'.snapshot k = t.snapshot k ∨ ∃ e ∈ es, e.Touches k

/-- Only configs may not be there to be shown, so what leaves them alone publishes its changes. -/
theorem Moves.publishes (h : t.Moves es t') (hconfigs : t'.configs = t.configs) : t.Publishes es t' where
  moves := h
  changes := by
    intro k
    cases k with
    | config m => exact .inl (by simp only [snapshot, activeConfig, hconfigs])
    | backends m => exact h.shows _ _ rfl
    | routing => exact h.shows _ _ rfl

/-- Configs of one module change, and this is announced. -/
theorem publishes_configs {f : Config → Config} {now : Timestamp}
    (ht : u.append? ⟨.configUpdated, m⟩ now = some (e, t'))
    (hlog : u.events = t.events ∧ u.lastEventId = t.lastEventId) (hrows : u.backends = t.backends)
    (hconfigs : u.configs = t.configs.map f) (hid : ∀ c ∈ t.configs, (f c).id = c.id)
    (hmodule : ∀ c ∈ t.configs, (f c).moduleId = c.moduleId)
    (hother : ∀ c ∈ t.configs, c.moduleId ≠ m → f c = c)
    (hactive : ∃ c ∈ t.configs, c.moduleId = m ∧ (f c).active = true) : t.Publishes [e] t' := by
  obtain ⟨htopic, hm⟩ := append?_topic ht
  -- Other modules keep their active config, and this one keeps one.
  have hsame : ∀ m', m' ≠ m → u.activeConfig m' = t.activeConfig m' := by
    intro m' hne
    unfold activeConfig
    rw [hconfigs]
    refine find?_map_same fun c hc => ?_
    by_cases hcm : c.moduleId = m
    · simp [hmodule c hc, hcm, Ne.symm hne]
    · rw [hother c hc hcm]
      exact ⟨rfl, fun _ => rfl⟩
  have hsome : u.activeConfig m ≠ none := by
    obtain ⟨c, hc, hcm, ha⟩ := hactive
    refine activeConfig_ne_none ?_ ((hmodule c hc).trans hcm) ha
    rw [hconfigs]
    exact List.mem_map_of_mem hc
  have hchanges : ∀ k, u.snapshot k = t.snapshot k ∨ ∃ x ∈ [e], x.Touches k := by
    intro k
    cases k with
    | config m' =>
      by_cases hm' : m' = m
      · exact .inr ⟨e, List.mem_singleton_self e,
          Event.touches_config.mpr ⟨htopic, hm.trans hm'.symm⟩⟩
      · exact .inl (by simp only [snapshot, hsame m' hm'])
    | backends m' => exact .inl (snapshot_of_backends hrows (by simp))
    | routing => exact .inl (snapshot_of_backends hrows (by simp))
  refine ⟨moves_of (append?_extends ht).1 hlog ?_ ?_ ?_ ?_, fun k => ?_⟩
  · exact fun k p hp => (hchanges k).imp_left fun hk => hk.trans hp
  · intro hkeyed
    rw [hconfigs]
    refine List.pairwise_map.mpr (hkeyed.imp_of_mem ?_)
    intro a b ha hb hne
    rw [hid a ha, hid b hb]
    exact hne
  · intro m' hm'
    by_cases heq : m' = m
    · rw [heq]
      exact hsome
    · rw [hsame m' heq]
      exact hm'
  · intro x hx _
    obtain rfl := List.mem_singleton.mp hx
    rw [hm]
    exact hsome
  · rw [(append?_extends ht).1.snapshot]
    exact hchanges k

theorem publishes_updated {data : Bytes} {row : Config}
    (hkeyed : t.configs.Pairwise (Config.id · ≠ Config.id ·))
    (h : ConfigWrite.Updated m data t row t') : ∃ e, t.Publishes [e] t' := by
  obtain ⟨active, old, names, now, now', u, e, hactive, hold, -, -, hdata, ht⟩ := h.written
  obtain ⟨hmem, hm, ha⟩ := activeConfig_some hactive
  obtain ⟨hrow, hid⟩ := Table.find?_some hold
  obtain rfl := Table.keyed_unique hkeyed hrow hmem hid
  unfold updateConfigData? at hdata
  dsimp only at hdata
  split at hdata
  · simp only [Option.some.injEq, Prod.mk.injEq] at hdata
    obtain ⟨rfl, rfl⟩ := hdata
    -- The row that is replaced is the active one: ids are distinct.
    have honly : ∀ c ∈ t.configs, c.id = old.id → c = old :=
      fun c hc hid => Table.keyed_unique hkeyed hc hrow hid
    refine ⟨e, publishes_configs ht ⟨rfl, rfl⟩ rfl rfl ?_ ?_ ?_ ?_⟩
    · intro c _
      split
      · rename_i hc
        exact hc.symm
      · rfl
    · intro c hc
      split
      · rename_i heq
        change old.moduleId = c.moduleId
        rw [honly c hc heq]
      · rfl
    · intro c hc hne
      refine if_neg fun heq => hne ?_
      rw [honly c hc heq]
      exact hm
    · refine ⟨old, hrow, hm, ?_⟩
      rw [if_pos rfl]
      exact ha
  · simp at hdata

theorem publishes_activated {id : ConfigId} (h : ConfigWrite.Activated id t t') :
    ∃ e, t.Publishes [e] t' := by
  obtain ⟨c, now, e, hc, ht⟩ := h.written
  obtain ⟨hc, -⟩ := Table.find?_some hc
  refine ⟨e, publishes_configs ht ⟨rfl, rfl⟩ rfl rfl ?_ ?_ ?_ ?_⟩
  · intro d _
    split <;> rfl
  · intro d _
    split <;> rfl
  · exact fun d _ hne => if_neg hne
  · refine ⟨c, hc, rfl, ?_⟩
    rw [if_pos rfl]
    exact decide_eq_true rfl

/-- A config with an id of its own comes behind those of its module. -/
theorem moves_insertConfig {c : Config} (hfresh : ∀ old ∈ t.configs, old.id ≠ c.id)
    (hlog : t'.events = t.events ∧ t'.lastEventId = t.lastEventId) (hrows : t'.backends = t.backends)
    (hconfigs : t'.configs = Table.put Config.id c t.configs) : t.Moves [] t' := by
  have hput : t'.configs = t.configs ++ [c] := by
    rw [hconfigs]
    exact Table.put_fresh hfresh
  -- The first active row of a module counts, and the new row is the last.
  have hactive : ∀ {m x}, t.activeConfig m = some x → t'.activeConfig m = some x := by
    intro m x hx
    unfold activeConfig at hx ⊢
    rw [hput, List.find?_append, hx]
    rfl
  refine moves_of (.refl t') hlog ?_ ?_ ?_ nofun
  · intro k p hp
    refine .inl ?_
    cases k with
    | config m =>
      rw [snapshot_config_ok] at hp ⊢
      obtain ⟨x, hx, hdata⟩ := hp
      exact ⟨x, hactive hx, hdata⟩
    | backends m => exact (snapshot_of_backends hrows (by simp)).trans hp
    | routing => exact (snapshot_of_backends hrows (by simp)).trans hp
  · intro hkeyed
    rw [hconfigs]
    exact Table.keyed_put hkeyed c
  · intro m hm
    obtain ⟨x, hx⟩ := Option.ne_none_iff_exists'.mp hm
    rw [hactive hx]
    exact Option.some_ne_none x

end Tables

/-! ## The store -/

namespace Store

variable {st st' : Store} {t : Tables} {es : List Event}

/-- The tables are in order, and reads that may be late see tables in order that lag behind. -/
structure Synced (st : Store) : Prop where
  live : st.live.Regular
  view : (st.view .stale).Regular
  behind : st.live.Behind (st.view .stale)

theorem empty_synced : Store.empty.Synced where
  live := Tables.empty_regular
  view := Tables.empty_regular
  behind := .refl _

/-- A store goes on: its tables move, or late reads see them as they are, now or from now on. -/
inductive Advances (st st' : Store) : Prop
  | moves {es : List Event} (hm : st.live.Moves es st'.live) (hf : st'.frozen = st.frozen)
  | views (hl : st'.live = st.live) (hf : st'.frozen = none ∨ st'.frozen = some st.live)

theorem Advances.same (hl : st'.live = st.live) (hf : st'.frozen = st.frozen) : st.Advances st' := by
  have hm : st.live.Moves [] st'.live := by
    rw [hl]
    exact .refl _
  exact .moves hm hf

theorem Advances.moved (h : st.Advances st') : ∃ es, st.live.Moves es st'.live := by
  cases h with
  | moves hm _ => exact ⟨_, hm⟩
  | views hl _ =>
    rw [hl]
    exact ⟨[], .refl _⟩

/-- Late reads of a store that does not lag see the tables as they are. -/
theorem view_present (h : st.frozen = none) : st.view .stale = st.live := by
  unfold view
  rw [h]
  rfl

/-- Late reads see the tables as they are, or what they saw before. -/
theorem Advances.view_cases (h : st.Advances st') :
    st'.view .stale = st'.live ∨ st'.view .stale = st.view .stale := by
  unfold view
  cases h with
  | moves _ hf =>
    rw [hf]
    cases hfrozen : st.frozen with
    | none => exact .inl rfl
    | some v => exact .inr rfl
  | views hl hf =>
    rcases hf with hf | hf
    · rw [hf]
      exact .inl rfl
    · rw [hf, hl]
      exact .inl rfl

theorem Synced.advances (h : st.Synced) (ha : st.Advances st') : st'.Synced := by
  obtain ⟨es, hm⟩ := ha.moved
  have hlive := hm.regular h.live
  rcases ha.view_cases with hv | hv
  · refine ⟨hlive, ?_, ?_⟩
    · rw [hv]
      exact hlive
    · rw [hv]
      exact .refl _
  · refine ⟨hlive, ?_, ?_⟩
    · rw [hv]
      exact h.view
    · rw [hv]
      exact hm.behind h.behind

/-- What late reads see never goes back. -/
theorem Synced.view_le (h : st.Synced) (ha : st.Advances st') :
    (st.view .stale).lastEventId ≤ (st'.view .stale).lastEventId := by
  obtain ⟨es, hm⟩ := ha.moved
  rcases ha.view_cases with hv | hv
  · rw [hv]
    exact UInt64.le_trans h.behind.le hm.le
  · rw [hv]
    exact UInt64.le_refl _

end Store

end ConfigRegistry
