import ConfigRegistry.Proofs.Configs

/-!
# Versions of configs

An update writes a version above all of its module's. The first config of a module gets
version 1, and it is created whenever no config of the module is active, so it is not
above the inactive ones that are there already (`Cluster.version_above_iff`,
`Cluster.first_version_not_above`).
-/

namespace ConfigRegistry

namespace Tables

variable {t t' : Tables} {c row : Config} {m : ModuleId}

theorem le_foldl_version (rows : List Config) (v : Nat) :
    v ≤ rows.foldl (fun v c => max v c.version.toNat) v ∧
      ∀ c ∈ rows, c.version.toNat ≤ rows.foldl (fun v c => max v c.version.toNat) v := by
  induction rows generalizing v with
  | nil => exact ⟨Nat.le_refl v, nofun⟩
  | cons r rest ih =>
    obtain ⟨hstart, hrest⟩ := ih (max v r.version.toNat)
    rw [List.foldl_cons]
    refine ⟨by omega, fun c hc => ?_⟩
    rcases List.mem_cons.mp hc with rfl | hc
    · omega
    · exact hrest c hc

theorem version_le_maxVersion (hc : c ∈ t.configs) (hm : c.moduleId = m) :
    c.version.toNat ≤ t.maxVersion m :=
  (le_foldl_version _ 0).2 c (List.mem_filter.mpr ⟨hc, decide_eq_true hm⟩)

/-- The highest version of a module is that of one of its configs. -/
theorem maxVersion_attained (hc : c ∈ t.configs) (hm : c.moduleId = m) :
    ∃ d ∈ t.configs, d.moduleId = m ∧ d.version.toNat = t.maxVersion m := by
  have hfold : ∀ (rows : List Config) (v : Nat),
      rows.foldl (fun v c => max v c.version.toNat) v = v ∨
        ∃ d ∈ rows, d.version.toNat = rows.foldl (fun v c => max v c.version.toNat) v := by
    intro rows
    induction rows with
    | nil => exact fun v => .inl rfl
    | cons r rest ih =>
      intro v
      rw [List.foldl_cons]
      rcases ih (max v r.version.toNat) with h | ⟨d, hd, h⟩
      · rw [h]
        rcases Nat.le_total v r.version.toNat with hle | hle
        · exact .inr ⟨r, List.mem_cons_self, (Nat.max_eq_right hle).symm⟩
        · exact .inl (Nat.max_eq_left hle)
      · exact .inr ⟨d, List.mem_cons_of_mem r hd, h⟩
  rcases hfold (t.configs.filter (·.moduleId = m)) 0 with h | ⟨d, hd, h⟩
  · have hle := version_le_maxVersion hc hm
    exact ⟨c, hc, hm, Nat.le_antisymm hle (Nat.le_trans (Nat.le_of_eq h) (Nat.zero_le _))⟩
  · obtain ⟨hmem, hdm⟩ := List.mem_filter.mp hd
    exact ⟨d, hmem, of_decide_eq_true hdm, h⟩

/-- An update writes a version above all of the module's. -/
theorem updated_version {data : Bytes} {now : Timestamp}
    (h : t.updateConfigData? c data now = some (row, t')) {old : Config} (hold : old ∈ t.configs)
    (hm : old.moduleId = row.moduleId) : old.version < row.version := by
  obtain ⟨hsize, hrow, -⟩ := updateConfigData?_eq h
  have hmodule : row.moduleId = c.moduleId := by rw [hrow]
  have hversion : row.version.toNat = t.maxVersion c.moduleId + 1 := by
    rw [hrow]
    exact UInt64.toNat_ofNat_of_lt' hsize
  have hle := version_le_maxVersion hold (hm.trans hmodule)
  rw [UInt64.lt_iff_toNat_lt]
  omega

end Tables

namespace Cluster

variable {c : Cluster} {x : Taken} {row : Config} {h : List Taken} {profiles : List Profile}
  {at_ : Timestamp}

/-- The active config of a module is updated. -/
def Taken.IsUpdate (x : Taken) : Prop :=
  match x.input with
  | .updateActive .. => True
  | _ => False

/-- A config schema is declared. -/
def Taken.IsDeclaration (x : Taken) : Prop :=
  match x.input with
  | .configSchema .. => True
  | _ => False

/-- A step of a node wrote a row with a version of its own choice. -/
def Taken.Versions (x : Taken) (row : Config) : Prop :=
  (x.IsUpdate ∨ x.IsDeclaration) ∧ row ∈ x.after.world.store.live.configs ∧
    row ∉ x.before.world.store.live.configs

theorem Writes.updated_version {n : Nat} {m : ModuleId} {data : Bytes}
    {o : Option (Except LifecycleError Config)} {t : Tables} (hw : c.Writes (.updateActive n m data) o t)
    (hrow : row ∈ t.configs) (hnew : row ∉ c.world.store.live.configs) {old : Config}
    (hold : old ∈ c.world.store.live.configs) (hm : old.moduleId = row.moduleId) :
    old.version < row.version := by
  cases hw with
  | keeps _ h =>
    rw [h.configs] at hrow
    exact absurd hrow hnew
  | updates h =>
    obtain ⟨active, replaced, names, now, u, -, -, -, -, hdata, hagrees⟩ := h.rewrites
    have hrow' : row ∈ u.configs := hagrees.configs ▸ hrow
    obtain ⟨-, -, hu⟩ := Tables.updateConfigData?_eq hdata
    rw [hu] at hrow'
    -- Only the row that was replaced is new.
    rcases Tables.mem_modify hrow' with ⟨hsame, -⟩ | rfl
    · exact absurd hsame hnew
    · exact Tables.updated_version hdata hold hm

theorem Writes.first_version {k : Nat} {d : ConfigSchemaDeclaration}
    {o : Option (Except LifecycleError Unit)} {t : Tables} (hw : c.Writes (.configSchema k d) o t)
    (hrow : row ∈ t.configs) (hnew : row ∉ c.world.store.live.configs) :
    row.version = 1 ∧ row.active = true ∧ ∀ old ∈ c.world.store.live.configs,
      old.moduleId = row.moduleId → old.active = false := by
  cases hw with
  | keeps _ h =>
    rw [h.configs] at hrow
    exact absurd hrow hnew
  | creates _ hnone hc =>
    obtain ⟨names, -, -, rfl⟩ := hc.stored
    rcases Table.mem_put.mp hrow with ⟨hsame, -⟩ | rfl
    · exact absurd hsame hnew
    · refine ⟨hc.version, hc.active, fun old hold hm => ?_⟩
      rw [hc.isModule] at hm
      refine Bool.eq_false_iff.mpr fun hactive => ?_
      exact Tables.activeConfig_ne_none hold hm hactive hnone

/-- Over every run, a version that a node writes is above those of all configs of the module just when
it is that of an update, or those configs all have version 0: a first config has version 1, and all
other configs of its module are inactive. -/
theorem version_above_iff (hrun : Run (fun _ _ _ => True) (Cluster.start profiles at_) h c)
    (hx : x ∈ h) (hrow : x.Versions row) :
    ((∀ old ∈ x.before.world.store.live.configs, old.moduleId = row.moduleId →
        old.version < row.version) ↔
      x.IsUpdate ∨ ∀ old ∈ x.before.world.store.live.configs, old.moduleId = row.moduleId →
        old.version = 0) ∧
    (x.IsDeclaration → row.version = 1 ∧ row.active = true ∧
      ∀ old ∈ x.before.world.store.live.configs, old.moduleId = row.moduleId → old.active = false) := by
  obtain ⟨-, -, -, hw⟩ := hrun.writes hx
  obtain ⟨before, input, reply, after⟩ := x
  obtain ⟨hkind, hafter, hnew⟩ := hrow
  cases input with
  | updateActive n m data =>
    refine ⟨iff_of_true ?_ (.inl trivial), False.elim⟩
    exact fun old hold hm => hw.updated_version hafter hnew hold hm
  | configSchema k d =>
    obtain ⟨hone, hactive, hothers⟩ := hw.first_version hafter hnew
    refine ⟨?_, fun _ => ⟨hone, hactive, hothers⟩⟩
    have hbelow : ∀ v : UInt64, v < 1 ↔ v = 0 := by
      intro v
      rw [UInt64.lt_iff_toNat_lt, ← UInt64.toNat_inj]
      exact Nat.lt_one_iff
    rw [or_iff_right (show ¬ Taken.IsUpdate ⟨before, .configSchema k d, reply, after⟩ from id), hone]
    simp only [hbelow]
  | _ => exact (hkind.elim id id).elim

/-! ## A module whose configs were stored before it came -/

/-- Transitions and config writes, with inactive configs stored from outside. -/
def Administered (c : Cluster) : Input → Prop
  | .call (.insertConfig cf) => c.FreshConfigs (.call (.insertConfig cf)) ∧
      cf.version.toNat + 1 < UInt64.size
  | .configSchema k d => c.FreshConfigs (.configSchema k d)
  | .connect .. | .updateActive .. | .activate .. => True
  | _ => False

/-- A config that somebody stores without making it active. -/
def imported : Config := ⟨default, ModuleId.ofName "a", "a", [], 5, false, default, default⟩

def late₀ : Cluster := .start [⟨⟨"n1"⟩, ⟨2000, 2000⟩, ⟨100, .oldestFirst⟩⟩] default
def late₁ : Cluster := (late₀.apply (.connect 0 ⟨"c1"⟩ .record "a")).1
def late₂ : Cluster := (late₁.apply (.call (.insertConfig imported))).1

/-- The module declares its schema after its config was stored. -/
def lateDeclaration : Taken := late₂.take (.configSchema 0 ⟨"1", .object [], .object []⟩)

def late₃ : Cluster := (late₂.apply (.configSchema 0 ⟨"1", .object [], .object []⟩)).1

/-- Then the config of the module is updated. -/
def lateUpdate : Taken := late₃.take (.updateActive 0 (ModuleId.ofName "a") [])

def lateHistory : List Taken :=
  [late₀.take (.connect 0 ⟨"c1"⟩ .record "a"), late₁.take (.call (.insertConfig imported)),
    lateDeclaration]

theorem late_run : Run (fun _ c i => c.Administered i) late₀ lateHistory late₃ := by
  have hstates : late₀.Takes [.connect 0 ⟨"c1"⟩ .record "a", .call (.insertConfig imported),
        .configSchema 0 ⟨"1", .object [], .object []⟩] ∧
      (∀ old ∈ late₁.world.store.live.configs, old.id ≠ imported.id) ∧
      ∀ old ∈ late₂.world.store.live.configs, old.id ≠ .nth (late₂.world.issued + 1) := by
    decide +kernel
  obtain ⟨htakes₀, hunused, hfresh⟩ := hstates
  have hrun₀ : Run (fun _ c i => c.Administered i) late₀ [] late₀ := .start
  obtain ⟨hrun₁, htakes₁⟩ := hrun₀.takes htakes₀ trivial late₁ rfl
  obtain ⟨hrun₂, htakes₂⟩ := hrun₁.takes htakes₁ ⟨⟨rfl, hunused⟩, by decide⟩ late₂ rfl
  obtain ⟨hrun₃, -⟩ := hrun₂.takes htakes₂ hfresh late₃ rfl
  exact hrun₃

/-- A first config does not come above the configs that are there. -/
theorem first_version_not_above :
    ¬ ∀ (profiles : List Profile) (at_ : Timestamp) (h : List Taken) (c : Cluster),
      Run (fun _ c i => c.Administered i) (Cluster.start profiles at_) h c →
      ∀ x ∈ h, ∀ row, x.Versions row → ∀ old ∈ x.before.world.store.live.configs,
        old.moduleId = row.moduleId → old.version < row.version := by
  intro hclaim
  have hrows : imported ∈ lateDeclaration.before.world.store.live.configs ∧
      ∃ row ∈ lateDeclaration.after.world.store.live.configs,
        row ∉ lateDeclaration.before.world.store.live.configs ∧ row.moduleId = imported.moduleId ∧
          row.version = 1 := by decide +kernel
  obtain ⟨hstored, row, hrow, hnew, hmodule, hversion⟩ := hrows
  have hmem : lateDeclaration ∈ lateHistory := by simp [lateHistory]
  have hlt := hclaim _ _ _ _ late_run lateDeclaration hmem row ⟨.inr trivial, hrow, hnew⟩ imported
    hstored hmodule.symm
  rw [hversion] at hlt
  exact absurd hlt (by decide)

/-- An update comes above the stored config as well as above the first one. -/
theorem update_above_imported : ∃ row, lateUpdate.Versions row ∧ row.version = 6 ∧
    ∀ old ∈ lateUpdate.before.world.store.live.configs, old.moduleId = row.moduleId →
      old.version < row.version := by
  have hstates : late₃.Takes [.updateActive 0 (ModuleId.ofName "a") []] ∧
      ∃ row ∈ lateUpdate.after.world.store.live.configs,
        row ∉ lateUpdate.before.world.store.live.configs ∧ row.version = 6 := by decide +kernel
  obtain ⟨htakes, row, hrow, hnew, hversion⟩ := hstates
  have hlate : Run (fun _ _ _ => True) late₀ lateHistory late₃ := late_run.mono fun _ _ _ _ => trivial
  obtain ⟨hrun, -⟩ := hlate.takes htakes trivial _ rfl
  have hversions : lateUpdate.Versions row := ⟨.inl trivial, hrow, hnew⟩
  have hmem : lateUpdate ∈ lateHistory ++ [lateUpdate] :=
    List.mem_append_right _ (List.mem_singleton_self _)
  exact ⟨row, hversions, hversion, (version_above_iff hrun hmem hversions).1.mpr (.inl trivial)⟩

end Cluster

end ConfigRegistry
