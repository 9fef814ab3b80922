import ConfigRegistry.Proofs.Snapshots

/-!
# What steps do to configs

Configs, the variables they are linked to and the variables that are defined are written
by a handful of operations. Every step of a cluster does one of them or leaves all three
alone (`Cluster.apply_edits`), so what holds of configs over all runs is proved from the
writes and never looks at programs.
-/

namespace ConfigRegistry

namespace Tables

variable {t u t' : Tables} {es : List Event} {c row : Config} {m : ModuleId}

/-- The same configs, links and variables. -/
structure Agrees (t t' : Tables) : Prop where
  configs : t'.configs = t.configs
  links : t'.links = t.links
  definitions : t'.definitions = t.definitions

theorem Agrees.refl (t : Tables) : t.Agrees t := ⟨rfl, rfl, rfl⟩

theorem Agrees.trans (h : t.Agrees u) (h' : u.Agrees t') : t.Agrees t' where
  configs := h'.configs.trans h.configs
  links := h'.links.trans h.links
  definitions := h'.definitions.trans h.definitions

theorem Extends.agrees (h : t.Extends es t') : t.Agrees t' := by
  rw [h.rest]
  exact ⟨rfl, rfl, rfl⟩

theorem append?_agrees {p : EventPayload} {now : Timestamp} {e : Event}
    (h : t.append? p now = some (e, t')) : t.Agrees t' :=
  (append?_extends h).1.agrees

theorem deleteBackends_agrees (cs : List ConnectionId) (t : Tables) :
    t.Agrees (deleteBackends cs t).2 := by
  rw [deleteBackends_eq]
  exact ⟨rfl, rfl, rfl⟩

/-- An update puts new data under a new version in place of the row of its id. -/
theorem updateConfigData?_eq {data : Bytes} {now : Timestamp}
    (h : t.updateConfigData? c data now = some (row, t')) :
    t.maxVersion c.moduleId + 1 < UInt64.size ∧
    row = { c with data := data, version := UInt64.ofNat (t.maxVersion c.moduleId + 1), updatedAt := now } ∧
    t' = { t with configs := Table.modify Config.id c.id (fun _ => row) t.configs } := by
  unfold updateConfigData? at h
  dsimp only at h
  split at h
  · next hsize =>
    simp only [Option.some.injEq, Prod.mk.injEq] at h
    obtain ⟨rfl, rfl⟩ := h
    exact ⟨hsize, rfl, rfl⟩
  · cases h

theorem mem_modify {k : ConfigId} {x : Config} :
    x ∈ Table.modify Config.id k (fun _ => row) t.configs →
      x ∈ t.configs ∧ x.id ≠ k ∨ x = row := by
  intro hx
  obtain ⟨old, hold, rfl⟩ := List.mem_map.mp hx
  by_cases hk : old.id = k
  · exact .inr (if_pos hk)
  · rw [if_neg hk]
    exact .inl ⟨hold, hk⟩

/-- Rows keep their ids when they change one by one. -/
theorem keyed_map {f : Config → Config} (h : t.configs.Pairwise (Config.id · ≠ Config.id ·))
    (hf : ∀ x ∈ t.configs, (f x).id = x.id) :
    (t.configs.map f).Pairwise (Config.id · ≠ Config.id ·) := by
  refine List.pairwise_map.mpr (h.imp_of_mem ?_)
  intro a b ha hb hne
  rw [hf a ha, hf b hb]
  exact hne

theorem updated_keyed {data : Bytes} {now : Timestamp}
    (h : t.configs.Pairwise (Config.id · ≠ Config.id ·))
    (ht : t.updateConfigData? c data now = some (row, t')) :
    t'.configs.Pairwise (Config.id · ≠ Config.id ·) := by
  obtain ⟨-, hrow, rfl⟩ := updateConfigData?_eq ht
  refine keyed_map h fun x _ => ?_
  split
  · next hx => rw [hx, hrow]
  · rfl

theorem activated_keyed (h : t.configs.Pairwise (Config.id · ≠ Config.id ·)) (c : Config) :
    (t.activateConfig c).2.configs.Pairwise (Config.id · ≠ Config.id ·) := by
  refine keyed_map h fun x _ => ?_
  split <;> rfl

end Tables

namespace ConfigWrite

variable {m : ModuleId} {id : ConfigId} {data : Bytes} {t t' : Tables} {row : Config}

/-- The update behind an updated active config: its data was checked first, and its links follow. -/
theorem Updated.rewrites (h : Updated m data t row t') : ∃ active old names now u,
    t.activeConfig m = some active ∧ t.config active.id = some old ∧
    Template.variableNames data = .ok names ∧ t.missingVariables names = [] ∧
    t.updateConfigData? old data now = some (row, u) ∧ (u.linkVariables row.id names).Agrees t' := by
  obtain ⟨active, old, names, now, now', u, e, hactive, hold, hnames, hmissing, hdata, ht⟩ := h.written
  exact ⟨active, old, names, now, u, hactive, hold, hnames, hmissing, hdata, Tables.append?_agrees ht⟩

theorem Activated.switches (h : Activated id t t') :
    ∃ c, t.config id = some c ∧ (t.activateConfig c).2.Agrees t' := by
  obtain ⟨c, now, e, hc, ht⟩ := h.written
  exact ⟨c, hc, Tables.append?_agrees ht⟩

end ConfigWrite

namespace Cluster

open World (Aside Attempt)

variable {underway : Delivery → Prop} {c : Cluster}

/-- Steps that do not write configs, links or variables although they could: all but the writes that
succeed. -/
def Quiet : (i : Input) → Option i.Reply → Prop
  | .updateActive .., some (.ok _) | .activate .., some (.ok _) => False
  | .call (.insertConfig _), some (.ok _) | .call (.updateConfigData ..), some (.ok _)
  | .call (.activateConfig _), some (.ok _) | .call (.linkVariables ..), some (.ok _)
  | .call (.upsertVariable ..), some (.ok _) => False
  | _, _ => True

/-- What a step writes of configs, links and variables. -/
inductive Writes (c : Cluster) : (i : Input) → Option i.Reply → Tables → Prop
  | keeps {i : Input} {o : Option i.Reply} {t : Tables} (hi : Quiet i o)
      (h : c.world.store.live.Agrees t) : Writes c i o t
  | creates {k : Nat} {d : ConfigSchemaDeclaration} {o : Option (Except LifecycleError Unit)}
      {m : ModuleId} {schema : ConfigSchema} {cf : Config} {t : Tables}
      (hm : (c.world.peer (c.session k)).context.moduleId = some m)
      (hnone : c.world.store.live.activeConfig m = none)
      (h : Lifecycle.Created m d.defaultConfig.write c.world.issued
        (c.world.store.live.upsertSchema schema) cf t) : Writes c (.configSchema k d) o t
  | updates {n : Nat} {m : ModuleId} {data : Bytes} {row : Config} {t : Tables}
      (h : ConfigWrite.Updated m data c.world.store.live row t) :
      Writes c (.updateActive n m data) (some (.ok row)) t
  | activates {n : Nat} {id : ConfigId} {row : Config} {t : Tables}
      (h : ConfigWrite.Activated id c.world.store.live t) :
      Writes c (.activate n id) (some (.ok row)) t
  | inserts (cf : Config) :
      Writes c (.call (.insertConfig cf)) (some (.ok ())) (c.world.store.live.insertConfig cf)
  | rewrites {id : ConfigId} {data : Bytes} {old row : Config} {now : Timestamp} {t : Tables}
      (hold : c.world.store.live.config id = some old)
      (h : c.world.store.live.updateConfigData? old data now = some (row, t)) :
      Writes c (.call (.updateConfigData id data)) (some (.ok row)) t
  | switches {id : ConfigId} {cf row : Config} (h : c.world.store.live.config id = some cf) :
      Writes c (.call (.activateConfig id)) (some (.ok row)) (c.world.store.live.activateConfig cf).2
  | links (id : ConfigId) (names : List String) :
      Writes c (.call (.linkVariables id names)) (some (.ok ()))
        (c.world.store.live.linkVariables id names)
  | defines (name value : String) :
      Writes c (.call (.upsertVariable name value)) (some (.ok ()))
        (c.world.store.live.upsertVariable name value)

/-- What a step leaves in the store: it writes to the tables, or changes what late reads see. -/
inductive Edits (c : Cluster) (i : Input) (o : Option i.Reply) (st : Store) : Prop
  | writes (h : c.Writes i o st.live) (hf : st.frozen = c.world.store.frozen)
  | views (hi : Quiet i o) (hl : st.live = c.world.store.live)
      (hf : st.frozen = none ∨ st.frozen = some c.world.store.live)

variable {i : Input} {o : Option i.Reply} {st : Store}

theorem Edits.live (h : c.Edits i o st) : c.Writes i o st.live := by
  cases h with
  | writes h _ => exact h
  | views hi hl _ =>
    rw [hl]
    exact .keeps hi (.refl _)

theorem Edits.keeps (hi : Quiet i o) (h : c.world.store.live.Agrees st.live)
    (hf : st.frozen = c.world.store.frozen) : c.Edits i o st :=
  .writes (.keeps hi h) hf

theorem Edits.aside {s : Session} {w : World} (hi : Quiet i o) (h : Aside underway s c.world w) :
    c.Edits i o w.store := by
  refine .keeps hi ?_ h.frozen
  rw [h.live]
  exact .refl _

theorem quiet_failed {o : Option (Except LifecycleError Config)} (ho : ∀ x, o ≠ some (.ok x)) (n : Nat) :
    (∀ m data, Quiet (.updateActive n m data) o) ∧ ∀ id, Quiet (.activate n id) o := by
  rcases o with _ | e | x
  · exact ⟨fun _ _ => trivial, fun _ => trivial⟩
  · exact ⟨fun _ _ => trivial, fun _ => trivial⟩
  · exact absurd rfl (ho x)

theorem quiet_error (call : Store.Call) (e : StoreError) : Quiet (.call call) (some (.error e)) := by
  cases call <;> trivial

/-- What a call of the store writes. -/
theorem serve_edits {call : Store.Call} {now : Timestamp} {x : call.Result} {st : Store}
    (h : c.world.store.serve now call = .ok x st) : c.Edits (.call call) (some (.ok x)) st := by
  cases call with
  | appendEvent p =>
    obtain ⟨t, ht, -, rfl⟩ := Store.serve_appendEvent h
    exact .keeps trivial ht.agrees rfl
  | appendEvents ps =>
    obtain ⟨t, ht, -, rfl⟩ := Store.serve_appendEvents h
    exact .keeps trivial ht.agrees rfl
  | deleteBackends cs =>
    cases h
    exact .keeps trivial (Tables.deleteBackends_agrees cs _) rfl
  | insertConfig cf =>
    cases h
    exact .writes (.inserts cf) rfl
  | updateConfigData id data =>
    obtain ⟨old, t, hold, ht, rfl⟩ := Store.serve_updateConfigData h
    exact .writes (.rewrites hold ht) rfl
  | activateConfig id =>
    obtain ⟨old, hold, rfl⟩ := Store.serve_activateConfig h
    exact .writes (.switches hold) rfl
  | linkVariables id names =>
    cases h
    exact .writes (.links id names) rfl
  | upsertVariable name value =>
    cases h
    exact .writes (.defines name value) rfl
  | _ =>
    cases h
    exact .keeps trivial ⟨rfl, rfl, rfl⟩ rfl

theorem called_edits {call : Store.Call} {w : World} {r : Except StoreError call.Result}
    (h : c.world.perform call = some (w, r)) : c.Edits (.call call) (some r) w.store := by
  cases World.performed h with
  | served _ hs => exact serve_edits hs
  | failed e => split <;> exact .keeps (quiet_error call e) (.refl _) rfl

theorem subscribing_store {n : Nat} {s : Session} {ks : List Notification} {w v : World}
    (h : Lifecycle.Subscribing n underway s w ks v) :
    v.store.live = w.store.live ∧ v.store.frozen = w.store.frozen := by
  induction h with
  | start => exact ⟨rfl, rfl⟩
  | aside _ ha ih => exact ⟨ha.live.trans ih.1, ha.frozen.trans ih.2⟩
  | joins _ _ _ ih => exact ih

theorem declared_edits {k n : Nat} {d : ConfigSchemaDeclaration} {w : World}
    {o : Option (Except LifecycleError Unit)}
    (h : Lifecycle.Declared n underway (c.session k) d c.world o w) :
    c.Edits (.configSchema k d) o w.store := by
  have hoffered : ∀ {m : ModuleId} {schema : ConfigSchema} {cf : Config} {t : Tables} {v : World}
      {o : Option (Except LifecycleError Unit)},
      (c.world.peer (c.session k)).context.moduleId = some m →
      Lifecycle.Offering m d c.world.issued (c.world.store.live.upsertSchema schema) cf t →
      Aside underway (c.session k) (c.world.write t) v → c.Edits (.configSchema k d) o v.store := by
    intro m schema cf t v o hm ho ha
    refine .writes ?_ ha.frozen
    rw [ha.live]
    cases ho with
    | found _ => exact .keeps trivial ⟨rfl, rfl, rfl⟩
    | created hnone hc => exact .creates hm hnone hc
  cases h with
  | refused ha _ => exact .aside trivial ha
  | invalid _ _ _ ha _ =>
    refine .keeps trivial ?_ ha.frozen
    rw [ha.live]
    exact ⟨rfl, rfl, rfl⟩
  | missed hm _ hc _ ha _ => exact hoffered hm hc ha
  | joins hm _ hc ha _ =>
    have hwritten := hoffered (o := some (.ok ())) hm hc ha
    exact hwritten

theorem removed_edits {checked : Nat} {bs : List Backend} {w : World} {r : SweepReport}
    (hi : Quiet i o) (h : Sweep.Removed checked bs c.world.served r w) : c.Edits i o w.store := by
  cases h with
  | nothing _ => exact .keeps hi (.refl _) rfl
  | some _ ht =>
    refine .keeps hi ?_ rfl
    exact (Tables.deleteBackends_agrees _ _).trans (Tables.appendAll?_extends ht).1.agrees

theorem left_edits {n k : Nat} {s : Session} {r : Except LifecycleError Unit} {w : World}
    (h : Lifecycle.Left n s c.world r w) : c.Edits (.disconnect k) (some r) w.store := by
  obtain ⟨readings, t, -, hd, rfl⟩ := h.departed
  have hmarked : ∀ ctx now, c.world.store.live.Agrees (Lifecycle.marked ctx now c.world.store.live) := by
    intro ctx now
    unfold Lifecycle.marked
    split <;> exact ⟨rfl, rfl, rfl⟩
  refine .keeps trivial ?_ rfl
  change c.world.store.live.Agrees t
  cases hd with
  | unreachable _ _ => exact .refl _
  | unknown _ _ => exact .refl _
  | marks _ _ now => exact hmarked _ now
  | @withdraws _ b _ now now' _ _ ht =>
    have hdeleted : ∀ t : Tables, t.Agrees (t.deleteBackend b.connectionId).2 :=
      fun _ => ⟨rfl, rfl, rfl⟩
    exact (hmarked _ now).trans ((hdeleted _).trans (Tables.append?_agrees ht))

/-- Every step writes to the tables or changes what late reads see. -/
theorem apply_edits (hc : c.Steady underway) (i : Input)
    (hu : ∀ n, i = .poll n → ∀ l k, Simulation.Announced underway c.world (c.world.notices n l k))
    (hn : (c.apply i).2 ≠ .overflow) :
    c.Edits i (c.apply i).2.value? (c.apply i).1.world.store := by
  obtain ⟨w, heff, hset, -⟩ := apply_effect hc i hu hn
  rw [hset.store]
  generalize (c.apply i).2.value? = o at heff ⊢
  -- A failure leaves asides only; what succeeds writes what its summary says.
  cases i with
  | connect n id behaviour name =>
    cases heff with
    | failed ha _ =>
      refine .keeps trivial ?_ ha.frozen
      rw [ha.live]
      exact .refl _
    | succeeded hx =>
      obtain ⟨-, -, rfl⟩ := hx
      exact .keeps trivial ⟨rfl, rfl, rfl⟩ rfl
  | requirements k r =>
    obtain ⟨ks, -, hs, -⟩ := heff
    obtain ⟨hlive, hfrozen⟩ := subscribing_store hs
    refine .keeps trivial ?_ hfrozen
    rw [hlive]
    exact .refl _
  | configSchema k d => exact declared_edits heff
  | ready k d =>
    cases heff with
    | failed ha _ => exact .aside trivial ha
    | succeeded hx =>
      obtain ⟨-, -, -, -, e, t, ht, rfl⟩ := hx
      refine .keeps trivial (.trans ?_ (Tables.append?_agrees ht)) rfl
      exact ⟨rfl, rfl, rfl⟩
  | disconnect k =>
    obtain ⟨r, rfl, hl⟩ := heff
    exact left_edits hl
  | updateActive n m data =>
    cases heff default with
    | failed ha ho => exact .aside ((quiet_failed ho n).1 m data) ha
    | succeeded hx =>
      obtain ⟨-, w₁, t, ha, hupdated, rfl⟩ := hx
      exact .writes (.updates hupdated) ha.frozen
  | activate n id =>
    cases heff default with
    | failed ha ho => exact .aside ((quiet_failed ho n).2 id) ha
    | succeeded hx =>
      obtain ⟨-, w₁, t, ha, hactivated, rfl⟩ := hx
      exact .writes (.activates hactivated) ha.frozen
  | clearPhantoms n =>
    cases heff default with
    | failed ha _ => exact .aside trivial ha
    | succeeded hx => exact removed_edits trivial hx.2
  | deleteOwn n =>
    cases heff default with
    | failed ha _ => exact .aside trivial ha
    | succeeded hx => exact removed_edits trivial hx.2
  | poll n =>
    rcases heff with ⟨-, -, rfl⟩ | ⟨-, outcome, -, hp⟩
    · exact .keeps trivial (.refl _) rfl
    · cases hp with
      | idle _ => exact .keeps trivial (.refl _) rfl
      | dispatched _ failed reads => exact .keeps trivial (.refl _) rfl
  | restart n =>
    obtain rfl := heff
    exact .keeps trivial (.refl _) rfl
  | call call =>
    obtain ⟨r, hr, rfl⟩ := heff
    exact called_edits hr
  | appendEventAt p at_ =>
    obtain ⟨e, t, ht, -, rfl⟩ := heff
    exact .keeps trivial (Tables.append?_agrees ht) rfl
  | lag =>
    obtain rfl := heff
    exact .views trivial rfl (.inr rfl)
  | catchUp =>
    obtain rfl := heff
    exact .views trivial rfl (.inl rfl)
  | setAvailable b =>
    obtain rfl := heff
    exact .keeps trivial (.refl _) rfl

/-- Config ids are not given out twice, and only nodes create active configs. -/
def FreshConfigs (c : Cluster) : Input → Prop
  | .configSchema .. => ∀ old ∈ c.world.store.live.configs, old.id ≠ .nth (c.world.issued + 1)
  | .call (.insertConfig cf) =>
    cf.active = false ∧ ∀ old ∈ c.world.store.live.configs, old.id ≠ cf.id
  | _ => True

section Runs

variable {admits : List Taken → Cluster → Input → Prop} {profiles : List Profile} {at_ : Timestamp}
  {h : List Taken} {x : Taken}

/-- A run never tampers with calls. -/
theorem run_steady (hrun : Run admits (Cluster.start profiles at_) h c) : c.Steady fun _ => True := by
  induction hrun with
  | start => exact start_steady _ _
  | step _ i _ _ hov ih =>
    obtain ⟨_, -, -, hsteady⟩ := apply_effect ih i (fun _ _ _ _ _ _ _ => trivial) hov
    exact hsteady

/-- What a step behind a run leaves in the store. -/
theorem run_edits (hrun : Run admits (Cluster.start profiles at_) h c) (hov : (c.apply i).2 ≠ .overflow) :
    c.Edits i (c.take i).reply (c.take i).after.world.store :=
  apply_edits (run_steady hrun) i (fun _ _ _ _ _ _ _ => trivial) hov

/-- What a step of a run wrote. -/
theorem Run.writes (hrun : Run admits (Cluster.start profiles at_) h c) (hx : x ∈ h) :
    ∃ h₁, Run admits (Cluster.start profiles at_) h₁ x.before ∧ admits h₁ x.before x.input ∧
      x.before.Writes x.input x.reply x.after.world.store.live := by
  obtain ⟨h₁, -, -, hrun₁, -, ha, hov, heq⟩ := hrun.mem hx
  refine ⟨h₁, hrun₁, ha, ?_⟩
  rw [heq]
  exact (run_edits hrun₁ hov).live

end Runs

/-- Config ids stay distinct. -/
theorem Writes.keyed {t : Tables} (hw : c.Writes i o t)
    (h : c.world.store.live.configs.Pairwise (Config.id · ≠ Config.id ·)) :
    t.configs.Pairwise (Config.id · ≠ Config.id ·) := by
  cases hw with
  | keeps _ ha =>
    rw [ha.configs]
    exact h
  | creates _ _ hc =>
    obtain ⟨names, -, -, rfl⟩ := hc.stored
    exact Table.keyed_put h _
  | updates hu =>
    obtain ⟨active, old, names, now, u, -, -, -, -, hdata, ha⟩ := hu.rewrites
    have hkeyed := Tables.updated_keyed h hdata
    rw [ha.configs]
    exact hkeyed
  | activates ha =>
    obtain ⟨cf, -, ha⟩ := ha.switches
    rw [ha.configs]
    exact Tables.activated_keyed h cf
  | inserts cf => exact Table.keyed_put h cf
  | rewrites _ hdata => exact Tables.updated_keyed h hdata
  | switches _ => exact Tables.activated_keyed h _
  | links _ _ => exact h
  | defines _ _ => exact h

end Cluster

end ConfigRegistry
