import ConfigRegistry.Proofs.Configs

/-!
# Configs and the variables they are linked to

Both ways to store the data of a config list its variables first, refuse it while one of them is
undefined, and link the config to the list. What fails has written neither, so data, links and
variables agree in every state that nodes leave behind, also where the module was not reached
afterwards (`Cluster.links_follow_data`).
-/

namespace ConfigRegistry

namespace Tables

variable {t t' : Tables} {c row : Config} {names : List String} {name : String}

/-- The variables of every config can be listed, the config is linked to exactly these in this order,
and they are defined. -/
def Linked (t : Tables) : Prop :=
  ∀ row ∈ t.configs, ∃ names, Template.variableNames row.data = .ok names ∧
    t.linkedVariables row.id = names ∧ ∀ name ∈ names, t.defines name = true

theorem empty_linked : Tables.empty.Linked := nofun

theorem mem_missing {names acc : List String} (h : name ∈ acc ∨ name ∈ names) :
    name ∈ names.foldl (fun acc n => if n ∈ acc then acc else acc ++ [n]) acc := by
  induction names generalizing acc with
  | nil => exact h.resolve_right nofun
  | cons n rest ih =>
    rw [List.foldl_cons]
    refine ih ?_
    rcases h with h | h
    · refine .inl ?_
      split
      · exact h
      · exact List.mem_append_left _ h
    · rcases List.mem_cons.mp h with rfl | h
      · refine .inl ?_
        split
        · assumption
        · exact List.mem_append_right _ (List.mem_singleton_self _)
      · exact .inr h

/-- Of names that are listed once each, those that are missing are listed in their order. -/
theorem missingVariables_of_nodup (h : names.Nodup) :
    t.missingVariables names = names.filter fun n => !t.defines n := by
  have hfold : ∀ (found acc : List String), (acc ++ found).Nodup →
      found.foldl (fun acc n => if n ∈ acc then acc else acc ++ [n]) acc = acc ++ found := by
    intro found
    induction found with
    | nil => simp
    | cons n rest ih =>
      intro acc hacc
      have hn : n ∉ acc := fun hn =>
        (List.nodup_append.mp hacc).2.2 n hn n List.mem_cons_self rfl
      rw [List.foldl_cons, if_neg hn, ih _ (by simpa using hacc), List.append_assoc,
        List.singleton_append]
  exact (hfold _ [] (h.filter _)).trans (List.nil_append _)

/-- When nothing is missing all names are defined. -/
theorem defines_of_missing (h : t.missingVariables names = []) (hn : name ∈ names) :
    t.defines name = true := by
  cases hd : t.defines name with
  | true => rfl
  | false =>
    have hmissing : name ∈ t.missingVariables names := by
      refine mem_missing (.inr (List.mem_filter.mpr ⟨hn, ?_⟩))
      rw [hd]
      rfl
    rw [h] at hmissing
    cases hmissing

/-- Nothing is missing just when all names are defined. -/
theorem missingVariables_eq_nil :
    t.missingVariables names = [] ↔ ∀ name ∈ names, t.defines name = true := by
  refine ⟨fun h name hn => defines_of_missing h hn, fun h => ?_⟩
  have hnone : (names.filter fun n => !t.defines n) = [] :=
    List.filter_eq_nil_iff.mpr fun name hn => by simp [h name hn]
  rw [missingVariables, hnone]
  rfl

theorem defines_upsertVariable (other value : String) (h : t.defines name = true) :
    (t.upsertVariable other value).defines name = true := by
  obtain ⟨r, hr, hname⟩ := List.any_eq_true.mp h
  refine List.any_eq_true.mpr ?_
  by_cases hsame : r.1 = other
  · refine ⟨(other, value), Table.mem_put.mpr (.inr rfl), ?_⟩
    rw [← hsame]
    exact hname
  · exact ⟨r, Table.mem_put.mpr (.inl ⟨hr, hsame⟩), hname⟩

theorem Agrees.linked (h : t.Agrees t') (ht : t.Linked) : t'.Linked := by
  intro row hrow
  rw [h.configs] at hrow
  obtain ⟨names, hnames, hlinks, hdefined⟩ := ht row hrow
  refine ⟨names, hnames, ?_, fun name hname => ?_⟩
  · unfold linkedVariables at hlinks ⊢
    rw [h.links]
    exact hlinks
  · have hdefines := hdefined name hname
    unfold defines at hdefines ⊢
    rw [h.definitions]
    exact hdefines

theorem linkedVariables_put {id : ConfigId} (h : t'.links = Table.put Prod.fst (id, names) t.links) :
    t'.linkedVariables id = names := by
  have hfound := Table.find?_put Prod.fst (id, names) t.links
  unfold linkedVariables
  rw [h, hfound]
  rfl

theorem linkedVariables_put_ne {id id' : ConfigId}
    (h : t'.links = Table.put Prod.fst (id, names) t.links) (hid : id' ≠ id) :
    t'.linkedVariables id' = t.linkedVariables id' := by
  have hfound : Table.find? Prod.fst id' (Table.put Prod.fst (id, names) t.links) =
      Table.find? Prod.fst id' t.links := Table.find?_put_ne hid
  unfold linkedVariables
  rw [h, hfound]

/-- A row is stored with its links, in place of what had its id. -/
theorem Linked.stored (ht : t.Linked)
    (hrows : ∀ x ∈ t'.configs, x ∈ t.configs ∧ x.id ≠ row.id ∨ x = row)
    (hnames : Template.variableNames row.data = .ok names) (hmissing : t.missingVariables names = [])
    (hlinks : t'.links = Table.put Prod.fst (row.id, names) t.links)
    (hdefinitions : t'.definitions = t.definitions) : t'.Linked := by
  have hdefines : ∀ name, t'.defines name = t.defines name := by
    intro name
    unfold defines
    rw [hdefinitions]
  intro x hx
  rcases hrows x hx with ⟨hold, hid⟩ | rfl
  · obtain ⟨names', hnames', hlinked, hdefined⟩ := ht x hold
    refine ⟨names', hnames', (linkedVariables_put_ne hlinks hid).trans hlinked, fun name hname => ?_⟩
    rw [hdefines]
    exact hdefined name hname
  · refine ⟨names, hnames, linkedVariables_put hlinks, fun name hname => ?_⟩
    rw [hdefines]
    exact defines_of_missing hmissing hname

theorem Linked.activated (ht : t.Linked) (c : Config) : (t.activateConfig c).2.Linked := by
  intro x hx
  obtain ⟨old, hold, rfl⟩ := List.mem_map.mp hx
  obtain ⟨names, hnames, hlinked, hdefined⟩ := ht old hold
  split
  · exact ⟨names, hnames, hlinked, hdefined⟩
  · exact ⟨names, hnames, hlinked, hdefined⟩

end Tables

namespace Cluster

variable {c : Cluster} {i : Input} {o : Option i.Reply} {st : Store} {t : Tables} {h : List Taken}
  {profiles : List Profile} {at_ : Timestamp}

/-- The data of configs and their links are written by nodes only. -/
def ByNodes : Input → Prop
  | .call (.insertConfig _) | .call (.updateConfigData ..) | .call (.linkVariables ..) => False
  | _ => True

theorem Writes.linked (hw : c.Writes i o t) (hi : ByNodes i) (ht : c.world.store.live.Linked) :
    t.Linked := by
  cases hw with
  | keeps _ ha => exact ha.linked ht
  | creates _ _ hc =>
    obtain ⟨names, hnames, hmissing, rfl⟩ := hc.stored
    refine ht.stored (fun x hx => Table.mem_put.mp hx) ?_ hmissing rfl rfl
    rw [hc.data]
    exact hnames
  | updates hu =>
    obtain ⟨active, old, names, now, u, -, -, hnames, hmissing, hdata, ha⟩ := hu.rewrites
    obtain ⟨-, hrow, rfl⟩ := Tables.updateConfigData?_eq hdata
    refine ha.linked (ht.stored (fun x hx => ?_) ?_ hmissing rfl rfl)
    · have hid : old.id = _ := (congrArg Config.id hrow).symm
      rw [← hid]
      exact Tables.mem_modify hx
    · rw [hrow]
      exact hnames
  | activates ha =>
    obtain ⟨cf, -, ha⟩ := ha.switches
    exact ha.linked (ht.activated cf)
  | inserts _ => exact hi.elim
  | rewrites _ _ => exact hi.elim
  | switches _ => exact ht.activated _
  | links _ _ => exact hi.elim
  | defines name value =>
    intro row hrow
    obtain ⟨names, hnames, hlinked, hdefined⟩ := ht row hrow
    exact ⟨names, hnames, hlinked, fun name hname => Tables.defines_upsertVariable _ _ (hdefined name hname)⟩

/-- Links follow data in what late reads see, too. -/
theorem Edits.linked (he : c.Edits i o st) (hi : ByNodes i) (ht : ∀ k, (c.world.store.view k).Linked)
    (k : Consistency) : (st.view k).Linked := by
  have hlive : st.live.Linked := he.live.linked hi (ht .strong)
  have hfrozen : ∀ t, st.frozen = some t → t.Linked := by
    intro t hf
    cases he with
    | writes _ hsame =>
      have hview := ht .stale
      unfold Store.view at hview
      rw [← hsame, hf] at hview
      exact hview
    | views _ _ hviews =>
      rcases hviews with hnone | hsome
      · rw [hnone] at hf
        cases hf
      · obtain rfl := Option.some.inj (hsome.symm.trans hf)
        exact ht .strong
  cases k with
  | stale =>
    unfold Store.view
    cases hf : st.frozen with
    | none => exact hlive
    | some t => exact hfrozen t hf
  | weak => exact hlive
  | strong => exact hlive

theorem run_linked (hrun : Run (fun _ _ i => ByNodes i) (Cluster.start profiles at_) h c)
    (k : Consistency) : (c.world.store.view k).Linked := by
  induction hrun generalizing k with
  | start => cases k <;> exact Tables.empty_linked
  | step hrun i _ hi hov ih => exact (run_edits hrun hov).linked hi ih k

/-- Over every run in which configs are written by nodes only, however fresh a read is and however
connections behave: a config that is stored is a text whose variables can be listed, it is linked to
exactly these, and they are defined. -/
theorem links_follow_data (hrun : Run (fun _ _ i => ByNodes i) (Cluster.start profiles at_) h c)
    (k : Consistency) {row : Config} (hrow : row ∈ (c.world.store.view k).configs) :
    ∃ text names, Bytes.toText? row.data = some text ∧ Template.variableNames row.data = .ok names ∧
      (c.world.store.view k).linkedVariables row.id = names ∧
      ∀ name ∈ names, (c.world.store.view k).defines name = true := by
  obtain ⟨names, hnames, hlinked, hdefined⟩ := run_linked hrun k row hrow
  cases htext : Bytes.toText? row.data with
  | none =>
    unfold Template.variableNames at hnames
    rw [htext] at hnames
    cases hnames
  | some text => exact ⟨text, names, rfl, hnames, hlinked, hdefined⟩

/-- A module that is gone already declares a config that refers to a variable: the config is stored
with its link although it cannot be sent. -/
theorem links_follow_unsent_config :
    let c₀ := Cluster.start [⟨⟨"n1"⟩, ⟨2000, 2000⟩, ⟨100, .oldestFirst⟩⟩] default
    let c₁ := (c₀.apply (.connect 0 ⟨"c1"⟩ .closed "a")).1
    let c₂ := (c₁.apply (.call (.upsertVariable "port" "80"))).1
    let c₃ := (c₂.apply (.configSchema 0 ⟨"1", .object [], .string "\x7b\x7b var:port \x7d\x7d"⟩)).1
    c₃.world.deliveries = [] ∧ c₃.world.store.live.linkedVariables (.nth 1) = ["port"] ∧
      ∃ row ∈ (c₃.world.store.view .stale).configs, ∃ text names,
        Bytes.toText? row.data = some text ∧ Template.variableNames row.data = .ok names ∧
        (c₃.world.store.view .stale).linkedVariables row.id = names ∧
        ∀ name ∈ names, (c₃.world.store.view .stale).defines name = true := by
  intro c₀ c₁ c₂ c₃
  have hstates : c₀.Takes [.connect 0 ⟨"c1"⟩ .closed "a", .call (.upsertVariable "port" "80"),
        .configSchema 0 ⟨"1", .object [], .string "\x7b\x7b var:port \x7d\x7d"⟩] ∧
      c₃.world.deliveries = [] ∧ c₃.world.store.live.linkedVariables (.nth 1) = ["port"] ∧
      ∃ row ∈ (c₃.world.store.view .stale).configs, row.id = .nth 1 := by
    decide +kernel
  obtain ⟨htakes₀, hunsent, hlinked, row, hrow, -⟩ := hstates
  have hrun₀ : Run (fun _ _ i => ByNodes i) c₀ [] c₀ := .start
  obtain ⟨hrun₁, htakes₁⟩ := hrun₀.takes htakes₀ trivial c₁ rfl
  obtain ⟨hrun₂, htakes₂⟩ := hrun₁.takes htakes₁ trivial c₂ rfl
  obtain ⟨hrun₃, -⟩ := hrun₂.takes htakes₂ trivial c₃ rfl
  exact ⟨hunsent, hlinked, row, hrow, links_follow_data hrun₃ .stale hrow⟩

end Cluster

end ConfigRegistry
