import ConfigRegistry.Proofs.ActiveConfigs
import ConfigRegistry.Proofs.ConfigVersions
import ConfigRegistry.Proofs.Failures
import ConfigRegistry.Proofs.Outcomes
import ConfigRegistry.Proofs.VariableLinks
import ConfigRegistry.Proofs.VariableReferences

/-!
# What an update of the active config does

An update is accepted when the module has an active config and the new data refers to defined
variables only (`ConfigWrite.Accepted`), and otherwise refused for the first of three causes
that applies (`ConfigWrite.Refused`). Refused, it changes nothing; accepted, it replaces one row
and its links and appends one event (`ConfigWrite.Replaced`).
-/

namespace ConfigRegistry

open Cluster (Single)

namespace ConfigWrite

/-! ## Accepted and refused -/

/-- An update of a module's config is accepted: the module has an active config, and the data refers
to these variables, all defined. -/
structure Accepted (t : Tables) (m : ModuleId) (data : Bytes) (active : Config)
    (names : List String) : Prop where
  stored : active ∈ t.configs
  isModule : active.moduleId = m
  isActive : active.active = true
  lists : Template.variableNames data = .ok names
  defined : ∀ name ∈ names, t.defines name = true

/-- An update is refused, for the first of these causes that applies. -/
inductive Refused (t : Tables) (m : ModuleId) (data : Bytes) : LifecycleError → Prop where
  | absent (h : ∀ c ∈ t.configs, c.moduleId = m → c.active = false) :
      Refused t m data (.store (.notFound "active config" m.text))
  | unreadable {active : Config} {e : Template.Fault}
      (hactive : active ∈ t.configs ∧ active.moduleId = m ∧ active.active = true)
      (h : Template.variableNames data = .error e) : Refused t m data (.template e)
  | undefined {active : Config} {names : List String}
      (hactive : active ∈ t.configs ∧ active.moduleId = m ∧ active.active = true)
      (hnames : Template.variableNames data = .ok names)
      (h : ∃ name ∈ names, t.defines name = false) :
      Refused t m data (.missingVariables (names.filter fun name => !t.defines name))

variable {t : Tables} {m : ModuleId} {data : Bytes} {active : Config} {names : List String}
  {e : LifecycleError}

/-- An update is refused or accepted. -/
theorem refused_or_accepted (t : Tables) (m : ModuleId) (data : Bytes) :
    (∃ e, Refused t m data e) ∨ ∃ active names, Accepted t m data active names := by
  cases hactive : t.activeConfig m with
  | none => exact .inl ⟨_, .absent (Tables.activeConfig_eq_none.mp hactive)⟩
  | some active =>
    obtain ⟨hmem, hm, ha⟩ := Tables.activeConfig_some hactive
    cases hnames : Template.variableNames data with
    | error e => exact .inl ⟨_, .unreadable ⟨hmem, hm, ha⟩ hnames⟩
    | ok names =>
      by_cases hdefined : ∀ name ∈ names, t.defines name = true
      · exact .inr ⟨active, names, hmem, hm, ha, hnames, hdefined⟩
      · simp only [not_forall, Bool.not_eq_true, exists_prop] at hdefined
        exact .inl ⟨_, .undefined ⟨hmem, hm, ha⟩ hnames hdefined⟩

theorem Accepted.not_refused (h : Accepted t m data active names) : ¬ Refused t m data e := by
  rintro (hnone | ⟨-, herror⟩ | ⟨-, hnames, name, hname, hundefined⟩)
  · exact Bool.false_ne_true ((hnone active h.stored h.isModule).symm.trans h.isActive)
  · cases h.lists.symm.trans herror
  · obtain rfl := Except.ok.inj (h.lists.symm.trans hnames)
    exact Bool.false_ne_true (hundefined.symm.trans (h.defined name hname))

/-- The variables that are missing are listed once each. -/
theorem Refused.nodup {missing : List String} (h : Refused t m data (.missingVariables missing)) :
    missing.Nodup := by
  cases h with
  | undefined _ hnames _ => exact (Template.nodup_variableNames hnames).filter _

/-! ## Running an update -/

variable {n : Nat} {l : Limits} {w v : World} {row : Config}

theorem run_refused (hw : w.Responsive) (hs : Single w.store.live)
    (h : Refused w.store.live m data e) :
    ∃ reads, w.run n (updateActive l m data).outcome =
      .finished { w with store := { w.store with reads := reads } } (.error e) := by
  have hlookup : w.run n (Transition.call l (.activeConfig m .strong)).outcome =
      .finished w.served (.ok (w.store.live.activeConfig m)) := Action.run_call_ok hw rfl
  unfold updateActive
  rw [Action.run_bind_ok hlookup]
  cases h with
  | absent h =>
    rw [Tables.activeConfig_eq_none.mpr h]
    exact ⟨_, rfl⟩
  | unreadable hactive h =>
    rw [(hs.activeConfig_eq_some).mpr hactive]
    exact ⟨_, Action.run_bind_error (Transition.run_variablesOf_error h)⟩
  | @undefined active names hactive hnames h =>
    have hmissing : ¬ w.served.store.live.missingVariables names = [] := by
      obtain ⟨name, hname, hundefined⟩ := h
      rw [World.served_live, Tables.missingVariables_eq_nil]
      exact fun hall => Bool.false_ne_true (hundefined.symm.trans (hall name hname))
    have hrequire := Transition.run_requireVariables n l names hw.served
    rw [if_neg hmissing, World.served_live,
      Tables.missingVariables_of_nodup (Template.nodup_variableNames hnames), World.lookedUp_eq] at hrequire
    rw [(hs.activeConfig_eq_some).mpr hactive]
    exact ⟨_, (Action.run_bind_ok (Transition.run_variablesOf_ok hnames)).trans
      (Action.run_bind_error hrequire)⟩

/-- A config with new data, under a version above all of its module's. -/
def renewed (data : Bytes) (now : Timestamp) (t : Tables) (c : Config) : Config :=
  { c with data := data, version := UInt64.ofNat (t.maxVersion c.moduleId + 1), updatedAt := now }

/-- The tables with a row in place of the one of its id, linked to these variables. -/
def replace (row : Config) (names : List String) (t : Tables) : Tables :=
  { t with
    configs := t.configs.map fun c => if c.id = row.id then row else c
    links := Table.put Prod.fst (row.id, names) t.links }

theorem run_announce (hw : w.Responsive) : w.run n (announce l m).outcome =
    match w.store.live.append? ⟨.configUpdated, m⟩ w.reading with
    | some (_, t) => .finished (w.ticked.write t) (.ok ())
    | none => .overflow := by
  unfold announce
  cases h : w.store.live.append? ⟨.configUpdated, m⟩ w.reading with
  | none => exact Action.run_bind_overflow (Action.run_write_overflow hw rfl h)
  | some x => exact (Action.run_bind_ok (Action.run_write hw rfl h)).trans rfl

/-- An accepted update replaces the row and announces it, unless the event ids are used up. -/
theorem run_accepted (hw : w.Responsive) (hs : Single w.store.live)
    (hv : w.store.live.Versionable) (h : Accepted w.store.live m data active names) :
    let row := renewed data w.reading w.store.live active
    let u := w.served.lookedUp names
    w.run n (updateActive l m data).outcome =
      match (replace row names w.store.live).append? ⟨.configUpdated, m⟩ u.ticked.reading with
      | some (_, t) => .finished (u.ticked.ticked.write t) (.ok row)
      | none => .overflow := by
  intro row u
  have hu : u.Responsive := hw.served.lookedUp names
  have hlive : u.store.live = w.store.live := World.lookedUp_live names w.served
  have hreading : u.reading = w.reading := World.lookedUp_reading names w.served
  have hactive : w.store.live.activeConfig m = some active :=
    (hs.activeConfig_eq_some).mpr ⟨h.stored, h.isModule, h.isActive⟩
  have hlookup : w.run n (Transition.call l (.activeConfig m .strong)).outcome =
      .finished w.served (.ok (some active)) := hactive ▸ Action.run_call_ok hw rfl
  have hrequire := Transition.run_requireVariables n l names hw.served
  rw [World.served_live, if_pos (Tables.missingVariables_eq_nil.mpr h.defined)] at hrequire
  set t₁ : Tables := { w.store.live with
    configs := Table.modify Config.id active.id (fun _ => row) w.store.live.configs }
  have hdata : u.store.live.updateConfigData? active data u.reading = some (row, t₁) := by
    rw [hlive, hreading]
    exact if_pos (Tables.maxVersion_lt hv active.moduleId)
  have hserve : u.store.serve u.reading (.updateConfigData active.id data) =
      .ofWrite u.store (u.store.live.updateConfigData? active data u.reading) := by
    have hold : u.store.live.config active.id = some active :=
      hlive ▸ Table.find?_of_mem hs.keyed h.stored
    simp only [Store.serve, hold]
  have hupdate : u.run n (Transition.call l (.updateConfigData active.id data)).outcome =
      .finished (u.ticked.write t₁) (.ok row) := Action.run_write hu hserve hdata
  have hlink : (u.ticked.write t₁).run n (Transition.call l (.linkVariables row.id names)).outcome =
      .finished (u.ticked.write (replace row names w.store.live)) (.ok ()) :=
    Action.run_write (hu.ticked.write t₁) rfl rfl
  have hannounce := run_announce (n := n) (l := l) (m := m)
    (hu.ticked.write (replace row names w.store.live))
  rw [World.write_live, World.write_reading] at hannounce
  unfold updateActive
  rw [Action.run_bind_ok hlookup]
  dsimp only
  rw [Action.run_bind_ok (Transition.run_variablesOf_ok h.lists), Action.run_bind_ok hrequire,
    Action.run_bind_ok hupdate, Action.run_bind_ok hlink, Action.run_bind, hannounce]
  cases (replace row names w.store.live).append? ⟨.configUpdated, m⟩ u.ticked.reading <;> rfl

/-- What an accepted update does: it replaces the data of the active config, under the version behind
the highest of the module's, links it to the variables of the data, and appends one event. Nothing else
changes but that reads were served and the clock was read. -/
structure Replaced (m : ModuleId) (data : Bytes) (active : Config) (names : List String) (w : World)
    (row : Config) (v : World) : Prop where
  content : row = { active with data := data, version := row.version, updatedAt := w.reading }
  version : (∃ c ∈ w.store.live.configs, c.moduleId = m ∧
      row.version.toNat = c.version.toNat + 1) ∧
    ∀ c ∈ w.store.live.configs, c.moduleId = m → c.version < row.version
  written : ∃ e, e.payload = ⟨.configUpdated, m⟩ ∧
    (replace row names w.store.live).Extends [e] v.store.live
  linked : v.store.live.linkedVariables active.id = names ∧
    ∀ id, id ≠ active.id → v.store.live.linkedVariables id = w.store.live.linkedVariables id
  rest : v = { w with
    readings := v.readings
    store := { w.store with live := v.store.live, reads := v.store.reads } }

theorem version_renewed (hv : t.Versionable) (data : Bytes) (now : Timestamp) (c : Config) :
    (renewed data now t c).version.toNat = t.maxVersion c.moduleId + 1 :=
  UInt64.toNat_ofNat_of_lt' (Tables.maxVersion_lt hv c.moduleId)

theorem replaced_of_appended {e : Event} {readings reads : Nat} {t' : Tables} {now : Timestamp}
    (hv : w.store.live.Versionable) (h : Accepted w.store.live m data active names)
    (ht : (replace (renewed data w.reading w.store.live active) names w.store.live).append?
      ⟨.configUpdated, m⟩ now = some (e, t')) :
    Replaced m data active names w (renewed data w.reading w.store.live active)
      { w with readings := readings, store := { w.store with live := t', reads := reads } } := by
  obtain ⟨hx, hpayload⟩ := Tables.append?_extends ht
  have hversion := version_renewed hv data w.reading active
  rw [h.isModule] at hversion
  have hlinks : t'.links = Table.put Prod.fst (active.id, names) w.store.live.links := by
    rw [hx.rest]
    rfl
  refine ⟨rfl, ⟨?highest, fun c hc hm => ?above⟩, ⟨e, hpayload, hx⟩, ⟨Tables.linkedVariables_put hlinks,
    fun id hid => Tables.linkedVariables_put_ne hlinks hid⟩, rfl⟩
  case highest =>
    obtain ⟨c, hc, hm, hmax⟩ := Tables.maxVersion_attained h.stored h.isModule
    exact ⟨c, hc, hm, by rw [hversion, hmax]⟩
  case above =>
    rw [UInt64.lt_iff_toNat_lt, hversion]
    exact Nat.lt_succ_of_le (Tables.version_le_maxVersion hc hm)

theorem Accepted.replaces (hw : w.Responsive) (hs : Single w.store.live)
    (hv : w.store.live.Versionable) (h : Accepted w.store.live m data active names)
    (hids : w.store.live.lastEventId.toNat + 1 < UInt64.size) :
    ∃ row v, w.run n (updateActive l m data).outcome = .finished v (.ok row) ∧
      Replaced m data active names w row v := by
  have hrun := run_accepted (n := n) (l := l) hw hs hv h
  dsimp only at hrun
  obtain ⟨⟨e, t⟩, ht⟩ := Tables.append?_isSome
    (t := replace (renewed data w.reading w.store.live active) names w.store.live)
    ⟨.configUpdated, m⟩ (w.served.lookedUp names).ticked.reading hids
  rw [ht] at hrun
  have hworld : (w.served.lookedUp names).ticked.ticked.write t = { w with
      readings := w.readings + 2
      store := { w.store with live := t, reads := (w.served.lookedUp names).store.reads } } := by
    rw [World.lookedUp_eq]
    rfl
  exact ⟨_, _, hrun, hworld ▸ replaced_of_appended hv h ht⟩

theorem Accepted.overflows (hw : w.Responsive) (hs : Single w.store.live)
    (hv : w.store.live.Versionable) (h : Accepted w.store.live m data active names)
    (hids : ¬ w.store.live.lastEventId.toNat + 1 < UInt64.size) :
    w.run n (updateActive l m data).outcome = .overflow := by
  have hrun := run_accepted (n := n) (l := l) hw hs hv h
  dsimp only at hrun
  have hnone : (replace (renewed data w.reading w.store.live active) names w.store.live).append?
      ⟨.configUpdated, m⟩ (w.served.lookedUp names).ticked.reading = none := if_neg hids
  rw [hrun, hnone]

/-- Whatever the state: an update of a module's config returns an error just when it is refused, and
then changes nothing. Otherwise it replaces the config, unless the event ids are used up. -/
theorem updated_exactly (n : Nat) (l : Limits) (w : World) (hw : w.Responsive)
    (hs : Single w.store.live) (hv : w.store.live.Versionable) (m : ModuleId) (data : Bytes) :
    let t := w.store.live
    let run := w.run n (updateActive l m data).outcome
    (∀ e, (∃ v, run = .finished v (.error e)) ↔ Refused t m data e) ∧
    (∀ e v, run = .finished v (.error e) →
      v = { w with store := { w.store with reads := v.store.reads } } ∧
      ∀ names, e = .missingVariables names → names.Nodup) ∧
    ((∃ row v, run = .finished v (.ok row)) ↔
      (∃ active names, Accepted t m data active names) ∧ t.lastEventId.toNat + 1 < UInt64.size) ∧
    (∀ row v, run = .finished v (.ok row) → ∃ active names,
      Accepted t m data active names ∧ Replaced m data active names w row v) ∧
    ((∃ active names, Accepted t m data active names) →
      ¬ t.lastEventId.toNat + 1 < UInt64.size → run = .overflow) := by
  intro t run
  rcases refused_or_accepted t m data with ⟨e, he⟩ | ⟨active, names, ha⟩
  case inl =>
    obtain ⟨reads, hrun⟩ := run_refused (n := n) (l := l) hw hs he
    have hnot : ¬ ∃ active names, Accepted t m data active names :=
      fun ⟨_, _, ha⟩ => ha.not_refused he
    have hother : ∀ row v, run ≠ .finished v (.ok row) :=
      fun row v hok => nomatch hrun.symm.trans hok
    refine ⟨fun e' => ⟨?_, fun he' => ?_⟩, fun e' v herror => ?_, ?_,
      fun row v hok => absurd hok (hother row v), fun ha => absurd ha hnot⟩
    · rintro ⟨v, herror⟩
      cases hrun.symm.trans herror
      exact he
    · obtain ⟨reads', hrun'⟩ := run_refused (n := n) (l := l) hw hs he'
      exact ⟨_, hrun'⟩
    · cases hrun.symm.trans herror
      exact ⟨rfl, fun missing heq => (heq ▸ he).nodup⟩
    · exact iff_of_false (fun ⟨row, v, hok⟩ => hother row v hok) fun h => hnot h.1
  case inr =>
    have hnot : ∀ e, ¬ Refused t m data e := fun _ => ha.not_refused
    by_cases hids : t.lastEventId.toNat + 1 < UInt64.size
    · obtain ⟨row, v, hrun, hreplaced⟩ := ha.replaces (n := n) (l := l) hw hs hv hids
      have hother : ∀ e v, run ≠ .finished v (.error e) :=
        fun e v herror => nomatch hrun.symm.trans herror
      refine ⟨fun e => iff_of_false (fun ⟨v, herror⟩ => hother e v herror) (hnot e),
        fun e v herror => absurd herror (hother e v),
        iff_of_true ⟨row, v, hrun⟩ ⟨⟨active, names, ha⟩, hids⟩, fun row' v' hok => ?_,
        fun _ hnone => absurd hids hnone⟩
      cases hrun.symm.trans hok
      exact ⟨active, names, ha, hreplaced⟩
    · have hrun : run = .overflow := ha.overflows hw hs hv hids
      have hother : ∀ v r, run ≠ .finished v r := fun v r h => nomatch hrun.symm.trans h
      exact ⟨fun e => iff_of_false (fun ⟨v, h⟩ => hother v _ h) (hnot e),
        fun e v h => absurd h (hother v _),
        iff_of_false (fun ⟨row, v, h⟩ => hother v _ h) fun h => hids h.2,
        fun row v h => absurd h (hother v _), fun _ _ => hrun⟩

end ConfigWrite

/-- A module with an active config of version 3 and an inactive one of version 9, and one variable. -/
def outnumbered : World :=
  let row (i : UInt8) (version : UInt64) (active : Bool) : Config :=
    { (default : Config) with id := ⟨⟨Vector.replicate 16 i⟩⟩, version := version, active := active }
  { World.initial default with
    store := { (World.initial default).store with
      live := { Tables.empty with
        configs := [row 1 9 false, row 2 3 true], definitions := [("x", "1")] } } }

/-- Data that refers to the variable is accepted, and replaces the active config under a version above
that of the inactive one. -/
theorem update_above_sibling :
    let data := Bytes.ofText "\x7b\x7bvar:x\x7d\x7d"
    ∃ active names row v,
      outnumbered.run 0 (ConfigWrite.updateActive ⟨2000, 2000⟩ default data).outcome =
        .finished v (.ok row) ∧
      ConfigWrite.Replaced default data active names outnumbered row v ∧ 9 < row.version := by
  intro data
  have hs : Single outnumbered.store.live :=
    ⟨by decide, fun m => Nat.le_trans (Tables.length_activeIds_le m _) (by decide)⟩
  have hnames : Template.variableNames data = .ok ["x"] := by decide +kernel
  obtain ⟨-, -, hok, hreplaced, -⟩ := ConfigWrite.updated_exactly 0 ⟨2000, 2000⟩ outnumbered
    ⟨rfl, rfl⟩ hs (by unfold Tables.Versionable; decide) default data
  have haccepted : ∃ active names,
      ConfigWrite.Accepted outnumbered.store.live default data active names :=
    ⟨_, _, List.mem_cons_of_mem _ List.mem_cons_self, rfl, rfl, hnames, by decide⟩
  obtain ⟨row, v, hrun⟩ := hok.mpr ⟨haccepted, by decide⟩
  obtain ⟨active, names, -, hrow⟩ := hreplaced row v hrun
  exact ⟨active, names, row, v, hrun, hrow, hrow.version.2 _ List.mem_cons_self rfl⟩

end ConfigRegistry
