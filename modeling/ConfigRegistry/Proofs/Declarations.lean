import ConfigRegistry.Proofs.ActiveConfigs
import ConfigRegistry.Proofs.Baselines
import ConfigRegistry.Proofs.Outcomes
import ConfigRegistry.Proofs.VariableLinks

/-!
# What declaring a config schema does

A session that declares the schema of its module is sent the config that the module has, or, when
it has none, the default that the declaration brings along (`Lifecycle.Kept`, `Lifecycle.Founded`).
Either way the schema replaces the module's, one message is sent, and the session is in the room of
the config's changes (`Lifecycle.Offered`); so the next declaration finds the config again.
-/

namespace ConfigRegistry

open Cluster (Single)

namespace Lifecycle

/-! ## Sessions that listen -/

/-- A session of a module is registered at a node, and messages to it arrive. -/
structure Listening (n : Nat) (s : Session) (m : ModuleId) (w : World) : Prop where
  isModule : (w.peer s).context.moduleId = some m
  registered : (w.node n).rooms.session? s.conn = some s
  hears : w.hears s = true

variable {n : Nat} {s : Session} {m : ModuleId} {d d' : ConfigSchemaDeclaration} {c : Config}
  {names : List String} {p : Place} {l : Limits} {u v w : World}

theorem Listening.lt (hl : Listening n s m w) : n < w.nodes.length :=
  World.lt_of_registered (Table.find?_some hl.registered).1

/-- A session goes on listening while its peer and the sessions of its node stay. -/
theorem Listening.of_faces (hl : Listening n s m w)
    (hf : v.peers.map Peer.face = w.peers.map Peer.face)
    (hn : (v.node n).rooms.sessions = (w.node n).rooms.sessions) : Listening n s m v where
  isModule := (congrArg SessionContext.moduleId (World.context_of_faces hf s)).trans hl.isModule
  registered := (congrArg (Table.find? Session.conn s.conn) hn).trans hl.registered
  hears := (World.hears_of_faces hf s).trans hl.hears

/-- The world after a session was sent a config and joined the room of its changes. -/
def offered (n : Nat) (s : Session) (c : Config) (w : World) : World :=
  (w.accept s Notification.configMessage c.data).joined n (.configChanging c.moduleId) s.conn

theorem rooms_offered (hl : Listening n s m w) :
    ((offered n s c w).node n).rooms =
      ((w.node n).rooms.join (.configChanging c.moduleId) s.conn).2 := by
  refine (World.rooms_joined (w := w.accept s Notification.configMessage c.data) ?_ _ _).trans
    (if_pos rfl)
  exact hl.lt

theorem mem_members_offered (hl : Listening n s m w) :
    s ∈ ((offered n s c w).node n).rooms.members (.configChanging c.moduleId) := by
  rw [rooms_offered hl]
  exact RoomIndex.members_join_of_session hl.registered

/-! ## Steps -/

/-- The first config of a module: the data and the name of the session's module, version 1. -/
def firstConfig (s : Session) (m : ModuleId) (data : Bytes) (w : World) : Config where
  id := .nth (w.issued + 1)
  moduleId := m
  name := (w.peer s).context.moduleName.getD ""
  data := data
  version := 1
  active := true
  createdAt := w.reading
  updatedAt := w.reading

/-- The tables with a config that refers to these variables. -/
def withConfig (c : Config) (names : List String) (t : Tables) : Tables :=
  (t.insertConfig c).linkVariables c.id names

/-- The world in which a config is created that refers to these variables. -/
def prepared (names : List String) (w : World) : World :=
  { (w.lookedUp names).ticked with issued := w.issued + 1 }

theorem prepared_eq (names : List String) (w : World) : prepared names w = { w with
    readings := w.readings + 1
    issued := w.issued + 1
    store := { w.store with reads := (prepared names w).store.reads } } := by
  unfold prepared
  rw [World.lookedUp_eq]
  rfl

theorem run_createConfig {data : Bytes} (hw : w.Responsive)
    (hnames : Template.variableNames data = .ok names)
    (hdefined : ∀ name ∈ names, w.store.live.defines name = true) :
    let c := firstConfig s m data w
    w.run n (createConfig l m c.name data).outcome =
      .finished ((prepared names w).write (withConfig c names w.store.live)) (.ok c) := by
  intro c
  have hu : (prepared names w).Responsive := ⟨(hw.lookedUp names).faults, (hw.lookedUp names).available⟩
  have hlive : (prepared names w).store.live = w.store.live := World.lookedUp_live names w
  have hissued : (w.lookedUp names).ticked.issued = w.issued := by
    rw [World.lookedUp_eq]
    rfl
  have hrequire := Transition.run_requireVariables n l names hw
  rw [if_pos (Tables.missingVariables_eq_nil.mpr hdefined)] at hrequire
  have hissue : (w.lookedUp names).ticked.run n
      (Action.ask (ε := LifecycleError) .freshConfigId).outcome =
      .finished (prepared names w) (.ok c.id) := by
    rw [Action.run_freshConfigId, hissued]
    rfl
  have hinsert : (prepared names w).run n (Transition.call l (.insertConfig c)).outcome =
      .finished ((prepared names w).write (w.store.live.insertConfig c)) (.ok ()) :=
    hlive ▸ Action.run_write hu rfl rfl
  have hlink : ((prepared names w).write (w.store.live.insertConfig c)).run n
      (Transition.call l (.linkVariables c.id names)).outcome =
      .finished ((prepared names w).write (withConfig c names w.store.live)) (.ok ()) :=
    Action.run_write (hu.write _) rfl rfl
  unfold createConfig
  rw [Action.run_bind_ok (Transition.run_variablesOf_ok hnames), Action.run_bind_ok hrequire,
    Action.run_bind_ok Action.run_clock, Action.run_bind_ok hissue, World.lookedUp_reading]
  refine (Action.run_bind_ok hinsert).trans ?_
  refine (Action.run_bind_ok hlink).trans ?_
  rfl

theorem run_subscribeWith (hl : Listening n s m w) :
    w.run n ((Notification.subscribeWith l s c).mapError LifecycleError.notify).outcome =
      .finished (offered n s c w) (.ok ()) := by
  refine Action.run_mapError (r := .ok ()) ?_
  unfold Notification.subscribeWith Notification.deliver
  rw [Action.run_bind_ok (Action.run_emit hl.hears)]
  rfl

/-- The world after the declared schema was stored and the config of the module looked up. -/
def declared (m : ModuleId) (d : ConfigSchemaDeclaration) (w : World) : World :=
  (w.ticked.write (w.store.live.upsertSchema (schemaRow m d w.reading))).served

theorem run_schemaSteps (hw : w.Responsive) (hl : Listening n s m w) :
    w.run n (schemaSteps p s d).outcome =
      (declared m d w).run n (match w.store.live.activeConfig m with
        | some c => (Notification.subscribeWith p.limits s c).mapError .notify
        | none => do
          let c ← createConfig p.limits m (← moduleName s) d.defaultConfig.write
          (Notification.subscribeWith p.limits s c).mapError .notify :
            Action LifecycleError Unit).outcome := by
  have hstore : w.ticked.run n (Transition.call p.limits
      (.upsertSchema ⟨m, d.version, d.schema.write, w.reading⟩)).outcome =
      .finished (w.ticked.write (w.store.live.upsertSchema (schemaRow m d w.reading))) (.ok ()) :=
    Action.run_write hw.ticked rfl rfl
  have hlookup : (w.ticked.write (w.store.live.upsertSchema (schemaRow m d w.reading))).run n
      (Transition.call p.limits (.activeConfig m .strong)).outcome =
      .finished (declared m d w) (.ok (w.store.live.activeConfig m)) :=
    Action.run_call_ok (hw.ticked.write _) rfl
  unfold schemaSteps
  rw [Action.run_bind_ok (run_identified hl.isModule), Action.run_bind_ok Action.run_clock, Action.run_bind_ok hstore,
    Action.run_bind_ok hlookup]
  cases w.store.live.activeConfig m <;> rfl

theorem run_found (hw : w.Responsive) (hl : Listening n s m w)
    (hc : w.store.live.activeConfig m = some c) :
    w.run n (onConfigSchema p s d).outcome =
      .finished (offered n s c (declared m d w)) (.ok ()) := by
  refine run_report_ok ?_
  rw [run_schemaSteps hw hl, hc]
  exact run_subscribeWith (hl.of_faces rfl rfl)

theorem run_first (hw : w.Responsive) (hl : Listening n s m w)
    (hnone : w.store.live.activeConfig m = none)
    (hnames : Template.variableNames d.defaultConfig.write = .ok names)
    (hdefined : ∀ name ∈ names, w.store.live.defines name = true) :
    let c := firstConfig s m d.defaultConfig.write (declared m d w)
    w.run n (onConfigSchema p s d).outcome = .finished (offered n s c
      ((prepared names (declared m d w)).write (withConfig c names (declared m d w).store.live)))
      (.ok ()) := by
  intro c
  have hdeclared : (declared m d w).Responsive := (hw.ticked.write _).served
  have hname : (declared m d w).run n (moduleName s).outcome =
      .finished (declared m d w) (.ok c.name) := rfl
  have hcreate := run_createConfig (n := n) (l := p.limits) (s := s) (m := m) hdeclared hnames hdefined
  have hu : Listening n s m
      ((prepared names (declared m d w)).write (withConfig c names (declared m d w).store.live)) := by
    rw [prepared_eq]
    exact hl.of_faces rfl rfl
  refine run_report_ok ?_
  rw [run_schemaSteps hw hl, hnone]
  refine (Action.run_bind_ok hname).trans ?_
  refine (Action.run_bind_ok hcreate).trans ?_
  exact run_subscribeWith hu

/-! ## What is done -/

/-- What a declaration does: its schema replaces the module's, and the session is sent a config and is in the
room of the config's changes. Rows and links of configs apart, nothing else changes but that the clock was
read, ids were made and reads were served. -/
structure Offered (n : Nat) (s : Session) (m : ModuleId) (d : ConfigSchemaDeclaration) (c : Config)
    (w v : World) : Prop where
  schema : v.store.live.schemas.filter (·.moduleId = m) = [schemaRow m d w.reading]
  others : Table.erase ConfigSchema.moduleId m v.store.live.schemas =
    Table.erase ConfigSchema.moduleId m w.store.live.schemas
  sent : v.deliveries = ⟨s, Notification.configMessage, c.data⟩ :: w.deliveries
  accepted : v.peers = w.peers.modify s.serial fun p => { p with accepted := p.accepted + 1 }
  seated : s ∈ (v.node n).rooms.members (.configChanging m)
  joined : v.nodes = (w.joined n (.configChanging m) s.conn).nodes
  live : v.store.live = { w.store.live with
    schemas := v.store.live.schemas
    configs := v.store.live.configs
    links := v.store.live.links }
  rest : v = { w with
    readings := v.readings
    issued := v.issued
    store := { w.store with live := v.store.live, reads := v.store.reads }
    nodes := v.nodes
    peers := v.peers
    deliveries := v.deliveries }

/-- The session was sent a config that its module has, and configs stayed as they are. -/
structure Kept (n : Nat) (s : Session) (m : ModuleId) (d : ConfigSchemaDeclaration) (c : Config)
    (w v : World) : Prop extends Offered n s m d c w v where
  configs : v.store.live.configs = w.store.live.configs
  links : v.store.live.links = w.store.live.links

/-- The session was sent the first config of its module, which was created with the declared default and
linked to the variables of it. -/
structure Founded (n : Nat) (s : Session) (m : ModuleId) (d : ConfigSchemaDeclaration)
    (names : List String) (c : Config) (w v : World) : Prop extends Offered n s m d c w v where
  content : c = { firstConfig s m d.defaultConfig.write w with
    createdAt := c.createdAt
    updatedAt := c.createdAt }
  configs : v.store.live.configs = Table.put Config.id c w.store.live.configs
  added : (∀ row ∈ w.store.live.configs, row.id ≠ c.id) →
    v.store.live.configs = w.store.live.configs ++ [c]
  links : v.store.live.links = Table.put Prod.fst (c.id, names) w.store.live.links
  linked : v.store.live.linkedVariables c.id = names ∧
    ∀ id, id ≠ c.id → v.store.live.linkedVariables id = w.store.live.linkedVariables id

theorem Listening.offers {readings issued reads : Nat} {configs : List Config}
    {links : List (ConfigId × List String)} (hl : Listening n s m w) (hm : c.moduleId = m) :
    Offered n s m d c w (offered n s c { w with
      readings := readings
      issued := issued
      store := { w.store with
        live := { w.store.live with
          schemas := Table.put ConfigSchema.moduleId (schemaRow m d w.reading) w.store.live.schemas
          configs := configs
          links := links }
        reads := reads } }) where
  schema := Table.filter_put (schemaRow m d w.reading) _
  others := Table.erase_put (schemaRow m d w.reading) _
  sent := rfl
  accepted := rfl
  seated := hm ▸ mem_members_offered (hl.of_faces rfl rfl)
  joined := hm ▸ rfl
  live := rfl
  rest := rfl

theorem kept (hl : Listening n s m w) (hm : c.moduleId = m) :
    Kept n s m d c w (offered n s c (declared m d w)) :=
  ⟨hl.offers hm, rfl, rfl⟩

theorem founded (hl : Listening n s m w) :
    let c := firstConfig s m d.defaultConfig.write (declared m d w)
    Founded n s m d names c w (offered n s c
      ((prepared names (declared m d w)).write (withConfig c names (declared m d w).store.live))) := by
  intro c
  rw [prepared_eq]
  exact {
    toOffered := hl.offers rfl
    content := rfl
    configs := rfl
    added := Table.put_fresh
    links := rfl
    linked := ⟨Tables.linkedVariables_put rfl, fun _ => Tables.linkedVariables_put_ne rfl⟩ }

/-- Whatever default is declared where no config is active and its variables are defined, it becomes one. -/
theorem exists_founded (hw : w.Responsive) (hl : Listening n s m w)
    (hnone : w.store.live.activeConfig m = none)
    (hnames : Template.variableNames d.defaultConfig.write = .ok names)
    (hdefined : ∀ name ∈ names, w.store.live.defines name = true) :
    ∃ c v, w.run n (onConfigSchema p s d).outcome = .finished v (.ok ()) ∧
      Founded n s m d names c w v :=
  ⟨_, _, run_first hw hl hnone hnames hdefined, founded hl⟩

/-! ## Declaring again -/

/-- A session can be sent the config that its module has. -/
structure Settled (n : Nat) (s : Session) (m : ModuleId) (c : Config) (w : World) : Prop where
  responsive : w.Responsive
  listening : Listening n s m w
  active : w.store.live.activeConfig m = some c

theorem Settled.run (h : Settled n s m c w) :
    ∃ v, w.run n (onConfigSchema p s d).outcome = .finished v (.ok ()) ∧ Kept n s m d c w v :=
  ⟨_, run_found h.responsive h.listening h.active,
    kept h.listening (Tables.activeConfig_some h.active).2.1⟩

theorem Offered.responsive (h : Offered n s m d c w v) (hw : w.Responsive) : v.Responsive := by
  rw [h.rest]
  exact ⟨hw.faults, hw.available⟩

theorem Offered.listening (h : Offered n s m d c w v) (hl : Listening n s m w) : Listening n s m v := by
  refine hl.of_faces (h.accepted ▸ World.faces_modify_accepted _ _ _) ?_
  have hnode : v.node n = (w.joined n (.configChanging m) s.conn).node n := by
    unfold World.node
    rw [h.joined]
  rw [hnode, World.rooms_joined hl.lt, if_pos rfl, RoomIndex.join_sessions]

theorem Kept.settled (h : Kept n s m d c w v) (hs : Settled n s m c w) : Settled n s m c v where
  responsive := h.responsive hs.responsive
  listening := h.listening hs.listening
  active := by
    unfold Tables.activeConfig
    rw [h.configs]
    exact hs.active

theorem Founded.settled (h : Founded n s m d names c w v) (hw : w.Responsive)
    (hl : Listening n s m w) (hnone : w.store.live.activeConfig m = none) : Settled n s m c v where
  responsive := h.responsive hw
  listening := h.listening hl
  active := by
    have hold : (Table.erase Config.id c.id w.store.live.configs).find?
        (fun c => c.moduleId = m && c.active) = none :=
      List.find?_eq_none.mpr fun row hrow => List.find?_eq_none.mp hnone row (List.mem_of_mem_filter hrow)
    have hnew : [c].find? (fun c => c.moduleId = m && c.active) = some c := by
      rw [h.content]
      simp [firstConfig]
    unfold Tables.activeConfig
    rw [h.configs, Table.put, List.find?_append, hold, hnew]
    rfl

/-- However often a session declares something, its next declaration changes no config and it is sent
this one. -/
def Lasting (p : Place) (n : Nat) (s : Session) (m : ModuleId) (c : Config) (w : World) : Prop :=
  ∀ (ds : List ConfigSchemaDeclaration) (d : ConfigSchemaDeclaration), ∃ u v,
    w.run n (ds.forM (onConfigSchema p s)).outcome = .finished u (.ok ()) ∧
    u.store.live.configs = w.store.live.configs ∧ u.store.live.links = w.store.live.links ∧
    u.run n (onConfigSchema p s d).outcome = .finished v (.ok ()) ∧ Kept n s m d c u v

theorem Settled.lasting (h : Settled n s m c w) : Lasting p n s m c w := by
  intro ds
  induction ds generalizing w with
  | nil =>
    intro d
    obtain ⟨v, hrun, hkept⟩ := h.run (p := p) (d := d)
    exact ⟨w, v, rfl, rfl, rfl, hrun, hkept⟩
  | cons d' ds ih =>
    intro d
    obtain ⟨w', hrun', hkept'⟩ := h.run (p := p) (d := d')
    obtain ⟨u, v, hall, hconfigs, hlinks, hlast⟩ := ih (hkept'.settled h) d
    refine ⟨u, v, ?_, hconfigs.trans hkept'.configs, hlinks.trans hkept'.links, hlast⟩
    exact (Action.run_bind_ok hrun').trans hall

/-- Whatever the state: a session that declares a config schema is sent the active config of its module,
which stays as it is. If there is none, it is sent the declared default, which becomes the module's
config, provided that its variables are defined. Whatever it declares from then on, it is sent the
same config. -/
theorem declared_exactly (p : Place) (n : Nat) (s : Session) (m : ModuleId) (w : World)
    (hw : w.Responsive) (hs : Single w.store.live) (hl : Listening n s m w)
    (d : ConfigSchemaDeclaration) :
    let t := w.store.live
    let run := w.run n (onConfigSchema p s d).outcome
    (∀ c ∈ t.configs, c.moduleId = m → c.active = true →
      ∃ v, run = .finished v (.ok ()) ∧ Kept n s m d c w v ∧ Lasting p n s m c v) ∧
    (∀ names, (∀ c ∈ t.configs, c.moduleId = m → c.active = false) →
      Template.variableNames d.defaultConfig.write = .ok names →
      (∀ name ∈ names, t.defines name = true) →
      ∃ c v, run = .finished v (.ok ()) ∧ Founded n s m d names c w v ∧ Lasting p n s m c v) := by
  intro t run
  constructor
  · intro c hmem hm ha
    have hsettled : Settled n s m c w := ⟨hw, hl, hs.activeConfig_eq_some.mpr ⟨hmem, hm, ha⟩⟩
    obtain ⟨v, hrun, hkept⟩ := hsettled.run (p := p) (d := d)
    exact ⟨v, hrun, hkept, (hkept.settled hsettled).lasting⟩
  · intro names hinactive hnames hdefined
    have hnone := Tables.activeConfig_eq_none.mpr hinactive
    obtain ⟨c, v, hrun, hfounded⟩ := exists_founded (p := p) hw hl hnone hnames hdefined
    exact ⟨c, v, hrun, hfounded, (hfounded.settled hw hl hnone).lasting⟩

end Lifecycle

/-- A lagging store in which a module has an inactive config only, one variable, and a session of the
module at the only node. -/
def unconfigured : World :=
  let session : Session := ⟨0, ⟨"c1"⟩⟩
  { World.initial default with
    store := { (World.initial default).store with
      live := { Tables.empty with
        configs := [{ (default : Config) with version := 9, active := false }]
        definitions := [("x", "1")] }
      frozen := some Tables.empty }
    nodes := [{ (default : NodeState) with rooms := ⟨[session], []⟩ }]
    peers := [⟨session.conn, .record, ⟨some default, some "auth", none⟩, 0⟩] }

/-- The declared default refers to the variable and becomes the first config, whatever is declared next. -/
theorem declaration_founds_config :
    let p : Lifecycle.Place := ⟨⟨"n1"⟩, ⟨2000, 2000⟩⟩
    let s : Session := ⟨0, ⟨"c1"⟩⟩
    let d : ConfigSchemaDeclaration := ⟨"1", .object [], .string "\x7b\x7bvar:x\x7d\x7d"⟩
    ∃ c v, unconfigured.run 0 (Lifecycle.onConfigSchema p s d).outcome = .finished v (.ok ()) ∧
      Lifecycle.Founded 0 s default d ["x"] c unconfigured v ∧
      v.store.live.configs = unconfigured.store.live.configs ++ [c] ∧
      Lifecycle.Lasting p 0 s default c v := by
  intro p s d
  have hs : Single unconfigured.store.live :=
    ⟨by decide, fun m => Nat.le_trans (Tables.length_activeIds_le m _) (by decide)⟩
  have hnames : Template.variableNames d.defaultConfig.write = .ok ["x"] := by decide +kernel
  obtain ⟨-, hfirst⟩ := Lifecycle.declared_exactly p 0 s default unconfigured ⟨rfl, rfl⟩ hs
    ⟨rfl, rfl, rfl⟩ d
  obtain ⟨c, v, hrun, hfounded, hlasting⟩ := hfirst ["x"] (by decide) hnames (by decide)
  have hid : c.id = .nth 1 := congrArg Config.id hfounded.content
  have hfresh : ∀ row ∈ unconfigured.store.live.configs, row.id ≠ c.id := by
    rw [hid]
    decide +kernel
  exact ⟨c, v, hrun, hfounded, hfounded.added hfresh, hlasting⟩

end ConfigRegistry
