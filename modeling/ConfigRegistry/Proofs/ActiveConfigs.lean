import ConfigRegistry.Proofs.Configs

/-!
# One active config per module

A lookup takes the first active config of a module, whatever the order of the table, so it
is well defined only while there is at most one. Nodes create an active config only where
there is none, updates keep the flag of the row they replace, and an activation clears the
flags of all siblings. Hence a module that has an active config keeps exactly one, and only
the activation of another config of the module changes which one it is
(`Cluster.one_active_config`).
-/

namespace ConfigRegistry

namespace Tables

variable {t t' : Tables} {c row : Config} {m : ModuleId}

/-- The active configs of a module. -/
def activeRows (m : ModuleId) (t : Tables) : List Config :=
  t.configs.filter fun c => c.moduleId = m && c.active

/-- Which configs of a module are active. -/
def activeIds (m : ModuleId) (t : Tables) : List ConfigId := (t.activeRows m).map Config.id

theorem activeConfig_eq (m : ModuleId) (t : Tables) : t.activeConfig m = (t.activeRows m).head? :=
  List.head?_filter.symm

theorem activeConfig_eq_none :
    t.activeConfig m = none ↔ ∀ c ∈ t.configs, c.moduleId = m → c.active = false := by
  simp [activeConfig, List.find?_eq_none]

theorem length_activeIds_le (m : ModuleId) (t : Tables) :
    (t.activeIds m).length ≤ (t.configs.filter (·.active)).length := by
  have hrows : t.activeRows m = (t.configs.filter (·.active)).filter (·.moduleId = m) :=
    List.filter_filter.symm
  rw [activeIds, List.length_map, hrows]
  exact List.length_filter_le _ _

theorem activeIds_eq_nil : t.activeIds m = [] ↔ t.activeConfig m = none := by
  rw [activeConfig_eq, List.head?_eq_none_iff]
  exact List.map_eq_nil_iff

theorem activeIds_of_configs (h : t'.configs = t.configs) (m : ModuleId) :
    t'.activeIds m = t.activeIds m := by
  unfold activeIds activeRows
  rw [h]

/-- Rows that keep their ids, modules and flags are active as before. -/
theorem activeIds_map {f : Config → Config} (h : t'.configs = t.configs.map f)
    (hf : ∀ x ∈ t.configs, (f x).id = x.id ∧ (f x).moduleId = x.moduleId ∧ (f x).active = x.active)
    (m : ModuleId) : t'.activeIds m = t.activeIds m := by
  unfold activeIds activeRows
  rw [h, List.filter_map, List.map_map]
  have hfilter : t.configs.filter ((fun x => decide (x.moduleId = m) && x.active) ∘ f) =
      t.configs.filter fun x => decide (x.moduleId = m) && x.active := by
    refine List.filter_congr fun x hx => ?_
    obtain ⟨-, hmodule, hactive⟩ := hf x hx
    simp only [Function.comp_apply, hmodule, hactive]
  rw [hfilter]
  exact List.map_congr_left fun x hx => (hf x (List.mem_filter.mp hx).1).1

theorem activeIds_updated {data : Bytes} {now : Timestamp}
    (hkeyed : t.configs.Pairwise (Config.id · ≠ Config.id ·)) (hc : c ∈ t.configs)
    (ht : t.updateConfigData? c data now = some (row, t')) (m : ModuleId) :
    t'.activeIds m = t.activeIds m := by
  obtain ⟨-, hrow, rfl⟩ := updateConfigData?_eq ht
  refine activeIds_map rfl (fun x hx => ?_) m
  split
  · next hid =>
    obtain rfl := Table.keyed_unique hkeyed hx hc hid
    rw [hrow]
    exact ⟨rfl, rfl, rfl⟩
  · exact ⟨rfl, rfl, rfl⟩

/-- An activation makes the config the only active one of its module. -/
theorem activeIds_activated (hkeyed : t.configs.Pairwise (Config.id · ≠ Config.id ·))
    (hc : c ∈ t.configs) : (t.activateConfig c).2.activeIds c.moduleId = [c.id] := by
  unfold activeIds activeRows activateConfig
  dsimp only
  rw [List.filter_map, List.map_map]
  -- Among the rows of the module the flag singles out the one with the id.
  have hfilter : t.configs.filter ((fun x => decide (x.moduleId = c.moduleId) && x.active) ∘
      fun d => if d.moduleId = c.moduleId then { d with active := decide (d.id = c.id) } else d) =
      t.configs.filter fun d => d.id = c.id := by
    refine List.filter_congr fun d hd => ?_
    by_cases hmodule : d.moduleId = c.moduleId
    · simp [hmodule]
    · have hid : d.id ≠ c.id := by
        intro hid
        rw [Table.keyed_unique hkeyed hd hc hid] at hmodule
        exact hmodule rfl
      simp [hmodule, hid]
  rw [hfilter, Table.filter_key hkeyed hc]
  simp

theorem activeIds_activated_ne (hm : c.moduleId ≠ m) :
    (t.activateConfig c).2.activeIds m = t.activeIds m := by
  unfold activeIds activeRows activateConfig
  dsimp only
  rw [List.filter_map, List.map_map]
  have hfilter : t.configs.filter ((fun x => decide (x.moduleId = m) && x.active) ∘
      fun d => if d.moduleId = c.moduleId then { d with active := decide (d.id = c.id) } else d) =
      t.configs.filter fun x => decide (x.moduleId = m) && x.active := by
    refine List.filter_congr fun d _ => ?_
    by_cases hmodule : d.moduleId = c.moduleId
    · simp [hmodule, hm]
    · simp [hmodule]
  rw [hfilter]
  refine List.map_congr_left fun d _ => ?_
  rw [Function.comp_apply]
  split <;> rfl

/-- A row with an id of its own is active or not for itself. -/
theorem activeIds_put (h : t'.configs = Table.put Config.id c t.configs)
    (hfresh : ∀ old ∈ t.configs, old.id ≠ c.id) (m : ModuleId) :
    t'.activeIds m = t.activeIds m ++ if c.moduleId = m ∧ c.active = true then [c.id] else [] := by
  unfold activeIds activeRows
  rw [h, Table.put_fresh hfresh, List.filter_append, List.map_append]
  congr 1
  by_cases hm : c.moduleId = m <;> by_cases ha : c.active <;> simp [hm, ha]

/-- A lookup finds the only active config in whatever order the rows are. -/
theorem activeConfig_perm (hone : (t.activeRows m).length ≤ 1) {rows : List Config}
    (h : rows.Perm t.configs) :
    activeConfig m { t with configs := rows } = (t.activeRows m).head? := by
  rw [activeConfig_eq]
  congr 1
  have hfiltered := h.filter fun c => decide (c.moduleId = m) && c.active
  unfold activeRows at hone ⊢
  generalize t.configs.filter _ = found at hone hfiltered ⊢
  -- Reordering at most one row changes nothing.
  rcases found with _ | ⟨a, _ | ⟨b, rest⟩⟩
  · exact List.perm_nil.mp hfiltered
  · exact List.perm_singleton.mp hfiltered
  · rw [List.length_cons, List.length_cons] at hone
    omega

end Tables

namespace Cluster

variable {c : Cluster} {i : Input} {o : Option i.Reply} {t : Tables} {m : ModuleId}

/-- A config was made the active one, by a node or by a call of the store. -/
inductive Activates (id : ConfigId) : (i : Input) → Option i.Reply → Prop
  | node (n : Nat) (row : Config) : Activates id (.activate n id) (some (.ok row))
  | call (row : Config) : Activates id (.call (.activateConfig id)) (some (.ok row))

theorem Activates.unique {id id' : ConfigId} (h : Activates id i o) (h' : Activates id' i o) :
    id = id' := by
  cases h <;> cases h' <;> rfl

/-- The activation of a config of a module leaves it the only active one. -/
theorem Writes.activated (hw : c.Writes i o t)
    (hkeyed : c.world.store.live.configs.Pairwise (Config.id · ≠ Config.id ·)) {row : Config}
    (hrow : row ∈ c.world.store.live.configs) (ha : Activates row.id i o) :
    t.activeIds row.moduleId = [row.id] := by
  have hfound : c.world.store.live.config row.id = some row := Table.find?_of_mem hkeyed hrow
  cases ha with
  | node n _ =>
    cases hw with
    | keeps hi _ => exact hi.elim
    | activates h =>
      obtain ⟨cf, hcf, hagrees⟩ := h.switches
      obtain rfl := Option.some.inj (hfound.symm.trans hcf)
      rw [Tables.activeIds_of_configs hagrees.configs]
      exact Tables.activeIds_activated hkeyed hrow
  | call _ =>
    cases hw with
    | keeps hi _ => exact hi.elim
    | switches hcf =>
      obtain rfl := Option.some.inj (hfound.symm.trans hcf)
      exact Tables.activeIds_activated hkeyed hrow

/-- Without the activation of one of its configs the active configs of a module stay; where there
was none, one may be created. -/
theorem Writes.unactivated (hw : c.Writes i o t)
    (hkeyed : c.world.store.live.configs.Pairwise (Config.id · ≠ Config.id ·)) (hi : c.FreshConfigs i)
    (hm : ∀ row ∈ c.world.store.live.configs, row.moduleId = m → ¬ Activates row.id i o) :
    t.activeIds m = c.world.store.live.activeIds m ∨
      c.world.store.live.activeIds m = [] ∧ (t.activeIds m).length = 1 := by
  cases hw with
  | keeps _ h => exact .inl (Tables.activeIds_of_configs h.configs m)
  | @creates _ _ _ m' _ cf _ _ hnone hc =>
    obtain ⟨names, -, -, rfl⟩ := hc.stored
    have hfresh : ∀ old ∈ c.world.store.live.configs, old.id ≠ cf.id := by
      rw [hc.id]
      exact hi
    have hput : (c.world.store.live.insertConfig cf).activeIds m = _ :=
      Tables.activeIds_put rfl hfresh m
    by_cases hmodule : m' = m
    · subst hmodule
      have hempty : c.world.store.live.activeIds m' = [] := Tables.activeIds_eq_nil.mpr hnone
      rw [hempty, if_pos ⟨hc.isModule, hc.active⟩] at hput
      refine .inr ⟨hempty, ?_⟩
      exact congrArg List.length hput
    · rw [if_neg fun h => hmodule (hc.isModule.symm.trans h.1), List.append_nil] at hput
      exact .inl hput
  | updates h =>
    obtain ⟨active, old, names, now, u, -, hold, -, -, hdata, hagrees⟩ := h.rewrites
    have hsame := Tables.activeIds_updated hkeyed (Table.find?_some hold).1 hdata m
    exact .inl ((Tables.activeIds_of_configs hagrees.configs m).trans hsame)
  | @activates n id row t h =>
    obtain ⟨cf, hcf, hagrees⟩ := h.switches
    obtain ⟨hmem, rfl⟩ := Table.find?_some hcf
    have hother : cf.moduleId ≠ m := fun hmodule => hm cf hmem hmodule (.node n row)
    exact .inl ((Tables.activeIds_of_configs hagrees.configs m).trans
      (Tables.activeIds_activated_ne hother))
  | inserts cf =>
    have hput : (c.world.store.live.insertConfig cf).activeIds m = _ :=
      Tables.activeIds_put rfl hi.2 m
    rw [if_neg (by simp [hi.1]), List.append_nil] at hput
    exact .inl hput
  | rewrites hold hdata =>
    exact .inl (Tables.activeIds_updated hkeyed (Table.find?_some hold).1 hdata m)
  | @switches id cf row hcf =>
    obtain ⟨hmem, rfl⟩ := Table.find?_some hcf
    have hother : cf.moduleId ≠ m := fun hmodule => hm cf hmem hmodule (.call row)
    exact .inl (Tables.activeIds_activated_ne hother)
  | links _ _ => exact .inl rfl
  | defines _ _ => exact .inl rfl

/-! ## Runs -/

variable {profiles : List Profile} {at_ : Timestamp} {h : List Taken} {x : Taken}

/-- Config ids are distinct, and no module has two active configs. -/
structure Single (t : Tables) : Prop where
  keyed : t.configs.Pairwise (Config.id · ≠ Config.id ·)
  single : ∀ m, (t.activeIds m).length ≤ 1

/-- A lookup finds the active config of a module, wherever it stands. -/
theorem Single.activeConfig_eq_some {c : Config} (hs : Single t) :
    t.activeConfig m = some c ↔ c ∈ t.configs ∧ c.moduleId = m ∧ c.active = true := by
  refine ⟨Tables.activeConfig_some, fun hc => ?_⟩
  cases h : t.activeConfig m with
  | none => exact absurd h (Tables.activeConfig_ne_none hc.1 hc.2.1 hc.2.2)
  | some d =>
    obtain ⟨hd, hdm, hda⟩ := Tables.activeConfig_some h
    have hrows : ∀ x ∈ t.configs, x.moduleId = m → x.active = true → x.id ∈ t.activeIds m :=
      fun x hx hm ha => List.mem_map_of_mem (List.mem_filter.mpr ⟨hx, by simp [hm, ha]⟩)
    have hmem := hrows d hd hdm hda
    obtain ⟨id, hid⟩ := List.length_eq_one_iff.mp
      (Nat.le_antisymm (hs.single m) (List.length_pos_of_mem hmem))
    have honly : ∀ x ∈ t.configs, x.moduleId = m → x.active = true → x.id = id :=
      fun x hx hm ha => List.mem_singleton.mp (hid ▸ hrows x hx hm ha)
    rw [Table.keyed_unique hs.keyed hd hc.1
      ((honly d hd hdm hda).trans (honly c hc.1 hc.2.1 hc.2.2).symm)]

/-- A module that has an active config still has one after a step, and another one just when it is
activated. -/
theorem Writes.changes (hw : c.Writes i o t) (hs : Single c.world.store.live) (hi : c.FreshConfigs i)
    {id : ConfigId} (hid : c.world.store.live.activeIds m = [id]) :
    ∃ id', t.activeIds m = [id'] ∧
      (id ≠ id' → ∃ row ∈ c.world.store.live.configs, row.moduleId = m ∧ row.id = id' ∧
        Activates row.id i o) ∧
      ∀ row ∈ c.world.store.live.configs, row.moduleId = m → Activates row.id i o → id' = row.id := by
  by_cases ha : ∃ row ∈ c.world.store.live.configs, row.moduleId = m ∧ Activates row.id i o
  · obtain ⟨row, hrow, rfl, ha⟩ := ha
    exact ⟨row.id, hw.activated hs.keyed hrow ha, fun _ => ⟨row, hrow, rfl, rfl, ha⟩,
      fun other _ _ ha' => ha.unique ha'⟩
  · have hnone : ∀ row ∈ c.world.store.live.configs, row.moduleId = m → ¬ Activates row.id i o :=
      fun row hrow hmodule hact => ha ⟨row, hrow, hmodule, hact⟩
    rcases hw.unactivated hs.keyed hi hnone with hsame | ⟨hempty, -⟩
    · exact ⟨id, hsame.trans hid, fun hne => absurd rfl hne,
        fun row hrow hmodule hact => absurd hact (hnone row hrow hmodule)⟩
    · rw [hid] at hempty
      cases hempty

theorem Writes.single (hw : c.Writes i o t) (hs : Single c.world.store.live) (hi : c.FreshConfigs i) :
    Single t where
  keyed := hw.keyed hs.keyed
  single := by
    intro m
    cases hids : c.world.store.live.activeIds m with
    | nil =>
      by_cases ha : ∃ row ∈ c.world.store.live.configs, row.moduleId = m ∧ Activates row.id i o
      · obtain ⟨row, hrow, rfl, ha⟩ := ha
        rw [hw.activated hs.keyed hrow ha]
        exact Nat.le_refl 1
      · rcases hw.unactivated (m := m) hs.keyed hi
            (fun row hrow hmodule hact => ha ⟨row, hrow, hmodule, hact⟩) with hsame | ⟨-, hone⟩
        · rw [hsame]
          exact hs.single m
        · exact Nat.le_of_eq hone
    | cons id rest =>
      have hlength := hs.single m
      rw [hids, List.length_cons] at hlength
      obtain rfl : rest = [] := List.eq_nil_of_length_eq_zero (by omega)
      obtain ⟨id', hid', -⟩ := hw.changes hs hi hids
      rw [hid']
      exact Nat.le_refl 1

theorem run_single (hrun : Run (fun _ c i => c.FreshConfigs i) (Cluster.start profiles at_) h c) :
    Single c.world.store.live := by
  induction hrun with
  | start => exact ⟨.nil, fun _ => Nat.zero_le 1⟩
  | step hrun i _ hi hov ih => exact (run_edits hrun hov).live.single ih hi

/-- A module that has an active config keeps one. -/
theorem run_lasting (hrun : Run (fun _ c i => c.FreshConfigs i) (Cluster.start profiles at_) h c)
    (hx : x ∈ h) (hm : x.before.world.store.live.activeIds m ≠ []) :
    ∃ id, c.world.store.live.activeIds m = [id] := by
  -- One step keeps the only active config or puts another one in its place.
  have hstep : ∀ {h : List Taken} {c : Cluster} {i : Input},
      Run (fun _ c i => c.FreshConfigs i) (Cluster.start profiles at_) h c → c.FreshConfigs i →
      (c.apply i).2 ≠ .overflow → (∃ id, c.world.store.live.activeIds m = [id]) →
      ∃ id, (c.apply i).1.world.store.live.activeIds m = [id] := by
    intro h c i hrun hi hov hid
    obtain ⟨id, hid⟩ := hid
    obtain ⟨id', hid', -⟩ := (run_edits hrun hov).live.changes (run_single hrun) hi hid
    exact ⟨id', hid'⟩
  induction hrun with
  | start => cases hx
  | @step h c hrun i _ hi hov ih =>
    rcases List.mem_append.mp hx with hx | hx
    · exact hstep hrun hi hov (ih hx)
    · obtain rfl := List.mem_singleton.mp hx
      refine hstep hrun hi hov ?_
      have hlength := (run_single hrun).single m
      have hpos : 0 < (c.world.store.live.activeIds m).length := List.length_pos_iff.mpr hm
      exact List.length_eq_one_iff.mp (by omega)

/-- What holds of active configs behind a run: every module has at most one; a module that ever had
one has exactly one; a confirmed lookup finds it in whatever order the table is; and a step makes
another config of a module the active one just when it activates that config. -/
structure OneActive (h : List Taken) (c : Cluster) : Prop where
  single : ∀ m, (c.world.store.live.activeRows m).length ≤ 1
  lasting : ∀ x ∈ h, ∀ m, x.before.world.store.live.activeRows m ≠ [] →
    (c.world.store.live.activeRows m).length = 1
  lookup : ∀ rows, rows.Perm c.world.store.live.configs → ∀ now m,
    ∃ st, ({ c.world.store with
        live := { c.world.store.live with configs := rows }
        available := true }).answer now (.activeConfig m .strong) =
      .ok (c.world.store.live.activeRows m).head? st
  changes : ∀ x ∈ h, ∀ m a, x.before.world.store.live.activeRows m = [a] →
    ∃ b, x.after.world.store.live.activeRows m = [b] ∧
      (a.id ≠ b.id ↔ ∃ row ∈ x.before.world.store.live.configs, row.moduleId = m ∧ row.id ≠ a.id ∧
        Activates row.id x.input x.reply) ∧
      ∀ row ∈ x.before.world.store.live.configs, row.moduleId = m →
        Activates row.id x.input x.reply → b.id = row.id

/-- Over every run in which config ids are not given out twice and only nodes create active configs,
every module has at most one active config, and only activations change which one it is. -/
theorem one_active_config
    (hrun : Run (fun _ c i => c.FreshConfigs i) (Cluster.start profiles at_) h c) : OneActive h c where
  single := by
    intro m
    have hids := (run_single hrun).single m
    unfold Tables.activeIds at hids
    rw [List.length_map] at hids
    exact hids
  lasting := by
    intro x hx m hm
    obtain ⟨id, hid⟩ := run_lasting hrun hx (m := m) (mt List.map_eq_nil_iff.mp hm)
    have hlength := congrArg List.length hid
    unfold Tables.activeIds at hlength
    rw [List.length_map] at hlength
    exact hlength
  lookup := by
    intro rows hperm now m
    have hone := (run_single hrun).single m
    unfold Tables.activeIds at hone
    rw [List.length_map] at hone
    rw [← Tables.activeConfig_perm hone hperm]
    exact ⟨_, rfl⟩
  changes := by
    intro x hx m a ha
    obtain ⟨h₁, hrun₁, hi, hw⟩ := hrun.writes hx
    have hids : x.before.world.store.live.activeIds m = [a.id] := by
      unfold Tables.activeIds
      rw [ha]
      rfl
    obtain ⟨id, hid, hchanged, hactivated⟩ := hw.changes (run_single hrun₁) hi hids
    obtain ⟨b, hb, rfl⟩ := List.map_eq_singleton_iff.mp hid
    refine ⟨b, hb, ?_, hactivated⟩
    constructor
    · intro hne
      obtain ⟨row, hrow, hmodule, hid', ha'⟩ := hchanged hne
      exact ⟨row, hrow, hmodule, fun heq => hne (heq.symm.trans hid'), ha'⟩
    · intro hother
      obtain ⟨row, hrow, hmodule, hne, ha'⟩ := hother
      rw [hactivated row hrow hmodule ha']
      exact hne.symm

/-- A module declares its schema and gets its first config; another one is stored, and is activated
while reads are late. -/
theorem one_active_after_activation :
    let spare : Config := ⟨default, ModuleId.ofName "a", "a", [], 7, false, default, default⟩
    let c₀ := Cluster.start [⟨⟨"n1"⟩, ⟨2000, 2000⟩, ⟨100, .oldestFirst⟩⟩] default
    let c₁ := (c₀.apply (.connect 0 ⟨"c1"⟩ .record "a")).1
    let c₂ := (c₁.apply (.configSchema 0 ⟨"1", .object [], .object []⟩)).1
    let c₃ := (c₂.apply (.call (.insertConfig spare))).1
    let c₄ := (c₃.apply .lag).1
    let c₅ := (c₄.apply (.activate 0 spare.id)).1
    c₄.world.store.live.activeIds (ModuleId.ofName "a") = [.nth 1] ∧
      c₅.world.store.live.activeIds (ModuleId.ofName "a") = [default] ∧
      ∃ h, h.length = 5 ∧ OneActive h c₅ := by
  intro spare c₀ c₁ c₂ c₃ c₄ c₅
  have hstates : c₀.Takes [.connect 0 ⟨"c1"⟩ .record "a", .configSchema 0 ⟨"1", .object [], .object []⟩,
        .call (.insertConfig spare), .lag, .activate 0 spare.id] ∧
      (∀ old ∈ c₁.world.store.live.configs, old.id ≠ .nth (c₁.world.issued + 1)) ∧
      (∀ old ∈ c₂.world.store.live.configs, old.id ≠ spare.id) ∧
      c₄.world.store.live.activeIds (ModuleId.ofName "a") = [.nth 1] ∧
      c₅.world.store.live.activeIds (ModuleId.ofName "a") = [default] := by
    decide +kernel
  obtain ⟨htakes₀, hfresh, hnew, hbefore, hafter⟩ := hstates
  have hrun₀ : Run (fun _ c i => c.FreshConfigs i) c₀ [] c₀ := .start
  obtain ⟨hrun₁, htakes₁⟩ := hrun₀.takes htakes₀ trivial c₁ rfl
  obtain ⟨hrun₂, htakes₂⟩ := hrun₁.takes htakes₁ hfresh c₂ rfl
  obtain ⟨hrun₃, htakes₃⟩ := hrun₂.takes htakes₂ ⟨rfl, hnew⟩ c₃ rfl
  obtain ⟨hrun₄, htakes₄⟩ := hrun₃.takes htakes₃ trivial c₄ rfl
  obtain ⟨hrun₅, -⟩ := hrun₄.takes htakes₄ trivial c₅ rfl
  exact ⟨hbefore, hafter, _, rfl, one_active_config hrun₅⟩

end Cluster

end ConfigRegistry
