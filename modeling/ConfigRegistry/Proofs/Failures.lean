import ConfigRegistry.Proofs.ConfigVersions

/-!
# What errors leave as it was

A call that fails leaves the store as it was, and it fails exactly when the store cannot
be reached or a config to be written does not exist. A transition or a config write
that returns an error has written nothing, with one exception: a schema declaration
stores the schema first, and the first config before it is sent.
-/

namespace ConfigRegistry

open World (Settles Aside Attempt)

/-! ## Calls -/

/-- Whether a call writes to a config that does not exist. -/
def Store.Call.Lacks (t : Tables) : Store.Call → Prop
  | .updateConfigData id _ | .activateConfig id => t.config id = none
  | _ => False

/-- How many event ids a call needs. -/
def Store.Call.appends : Store.Call → Nat
  | .appendEvent _ => 1
  | .appendEvents ps => ps.length
  | _ => 0

/-- Whether a call gives a config its next version. -/
def Store.Call.Renumbers : Store.Call → Prop
  | .updateConfigData .. => True
  | _ => False

/-- No config version has reached its maximum. -/
def Tables.Versionable (t : Tables) : Prop := ∀ c ∈ t.configs, c.version.toNat + 1 < UInt64.size

namespace Tables

variable {t : Tables}

theorem append?_isSome (p : EventPayload) (now : Timestamp)
    (h : t.lastEventId.toNat + 1 < UInt64.size) : ∃ x, t.append? p now = some x :=
  ⟨_, if_pos h⟩

theorem appendAll?_isSome (ps : List EventPayload) (now : Timestamp)
    (h : t.lastEventId.toNat + ps.length < UInt64.size) : ∃ x, appendAll? now ps t = some x := by
  induction ps generalizing t with
  | nil => exact ⟨_, rfl⟩
  | cons p rest ih =>
    rw [List.length_cons] at h
    obtain ⟨⟨e, t'⟩, happend⟩ := append?_isSome (t := t) p now (by omega)
    have hlast : t'.lastEventId.toNat = t.lastEventId.toNat + 1 := (append?_extends happend).1.count
    obtain ⟨x, hrest⟩ := ih (t := t') (by omega)
    refine ⟨(e :: x.1, x.2), ?_⟩
    rw [appendAll?, happend]
    simp [hrest]

theorem appendAll?_eq_none (ps : List EventPayload) (now : Timestamp) :
    appendAll? now ps t = none ↔ UInt64.size ≤ t.lastEventId.toNat + ps.length := by
  constructor
  · intro hnone
    refine Nat.not_lt.mp fun hlt => ?_
    obtain ⟨x, hx⟩ := appendAll?_isSome ps now hlt
    rw [hnone] at hx
    cases hx
  · intro hle
    rw [Option.eq_none_iff_forall_ne_some]
    rintro ⟨es, t'⟩ hsome
    obtain ⟨hx, hps⟩ := appendAll?_extends hsome
    have hcount := hx.count
    have hlength : es.length = ps.length := by rw [← hps, List.length_map]
    have hlast : t'.lastEventId.toNat < UInt64.size := t'.lastEventId.toNat_lt
    omega

theorem maxVersion_lt (h : t.Versionable) (m : ModuleId) : t.maxVersion m + 1 < UInt64.size := by
  unfold maxVersion
  have hbound : ∀ (rows : List Config) (v : Nat), v + 1 < UInt64.size →
      (∀ c ∈ rows, c.version.toNat + 1 < UInt64.size) →
      rows.foldl (fun v c => max v c.version.toNat) v + 1 < UInt64.size := by
    intro rows
    induction rows with
    | nil => exact fun v hv _ => hv
    | cons c rest ih =>
      intro v hv hrows
      refine ih _ ?_ fun d hd => hrows d (List.mem_cons_of_mem c hd)
      have hc := hrows c List.mem_cons_self
      simp only
      omega
  exact hbound _ 0 (by decide) fun c hc => h c (List.mem_filter.mp hc).1

end Tables

namespace Store

variable {s : Store} {now : Timestamp}

theorem ofWrite_ne_error {α : Type} (o : Option (α × Tables)) (e : StoreError) :
    Outcome.ofWrite s o ≠ .error e := by
  cases o <;> exact fun h => nomatch h

/-- A store that can be reached fails only for want of a config. -/
theorem serve_error_iff (c : Call) : (∃ e, s.serve now c = .error e) ↔ c.Lacks s.live := by
  cases c with
  | updateConfigData id _ | activateConfig id =>
    simp only [serve, Call.Lacks]
    cases s.live.config id with
    | none => simp
    | some row => simp [ofWrite_ne_error]
  | _ => simp [serve, Call.Lacks, ofWrite_ne_error]

/-- A call is answered unless a number runs out. -/
theorem serve_ne_overflow (c : Call) (hv : c.Renumbers → s.live.Versionable)
    (ha : s.live.lastEventId.toNat + c.appends < UInt64.size) : s.serve now c ≠ .overflow := by
  cases c with
  | appendEvent p =>
    obtain ⟨x, hx⟩ := Tables.append?_isSome p now ha
    simp [serve, hx, Outcome.ofWrite]
  | appendEvents ps =>
    obtain ⟨x, hx⟩ := Tables.appendAll?_isSome ps now ha
    simp [serve, hx, Outcome.ofWrite]
  | updateConfigData id data =>
    simp only [serve]
    cases s.live.config id with
    | none => simp
    | some row =>
      have hlt := Tables.maxVersion_lt (hv trivial) row.moduleId
      simp [Tables.updateConfigData?, hlt, Outcome.ofWrite]
  | activateConfig id =>
    simp only [serve]
    cases s.live.config id <;> simp [Outcome.ofWrite]
  | _ => simp [serve, Outcome.ofWrite]

end Store

namespace World

variable {w v : World} {call : Store.Call}

/-- A call comes to something unless a number runs out. -/
theorem perform_ne_none (hv : call.Renumbers → w.store.live.Versionable)
    (ha : w.store.live.lastEventId.toNat + call.appends < UInt64.size) : w.perform call ≠ none := by
  cases h : w.store.available with
  | false => simp [perform_unavailable call h]
  | true =>
    have hserve : w.store.serve w.reading call ≠ .overflow := Store.serve_ne_overflow call hv ha
    rw [perform_available call h]
    cases hs : w.store.serve w.reading call with
    | overflow => exact absurd hs hserve
    | _ => simp

/-- What a call comes to: a failure leaves the store alone and has one of two causes, and nothing
but a number that runs out keeps a call from being answered. -/
theorem perform_failure (w : World) (call : Store.Call) :
    (∀ v e, w.perform call = some (v, .error e) → v.store = w.store) ∧
    ((∃ v e, w.perform call = some (v, .error e)) ↔
      w.store.available = false ∨ call.Lacks w.store.live) ∧
    (w.store.live.Versionable → w.store.live.lastEventId.toNat + call.appends < UInt64.size →
      w.perform call ≠ none) := by
  have hstore : ∀ u : World, u = (if call.readsClock then w.ticked else w) → u.store = w.store := by
    rintro u rfl
    split <;> rfl
  rw [← and_assoc]
  refine ⟨?_, fun hv => perform_ne_none fun _ => hv⟩
  cases ha : w.store.available with
  | false =>
    simp only [perform_unavailable call ha, Option.some.injEq, Prod.mk.injEq]
    refine ⟨?_, fun _ => .inl trivial, fun _ => ⟨_, _, rfl, rfl⟩⟩
    rintro v e ⟨hv, -⟩
    exact hstore v hv.symm
  | true =>
    have hiff : (∃ e, w.store.serve w.reading call = .error e) ↔ call.Lacks w.store.live :=
      Store.serve_error_iff call
    rw [perform_available call ha]
    cases hserve : w.store.serve w.reading call with
    | ok x s => simp_all
    | error e =>
      simp only [Option.some.injEq, Prod.mk.injEq]
      refine ⟨?_, fun _ => .inr (hiff.mp ⟨e, hserve⟩), fun _ => ⟨_, _, rfl, rfl⟩⟩
      rintro v e' ⟨hv, -⟩
      exact hstore v hv.symm
    | overflow => simp_all

/-- Both copies of the tables, what sessions know, and the nodes with their rooms are as before. -/
structure Intact (w v : World) : Prop where
  live : v.store.live = w.store.live
  frozen : v.store.frozen = w.store.frozen
  contexts : ∀ s, (v.peer s).context = (w.peer s).context
  nodes : v.nodes = w.nodes

variable {underway : Delivery → Prop} {s : Session}

theorem Aside.intact (h : Aside underway s w v) : w.Intact v where
  live := h.live
  frozen := h.frozen
  contexts := context_of_faces h.faces
  nodes := by
    obtain ⟨t, r, i, q, ps, ds, rfl, -⟩ := h
    rfl

theorem Settles.intact (h : Settles underway w v) : w.Intact v where
  live := congrArg Store.live h.store
  frozen := congrArg Store.frozen h.store
  contexts := context_of_faces h.faces
  nodes := h.nodes

theorem Intact.trans {u : World} (h₁ : w.Intact v) (h₂ : v.Intact u) : w.Intact u where
  live := h₂.live.trans h₁.live
  frozen := h₂.frozen.trans h₁.frozen
  contexts s := (h₂.contexts s).trans (h₁.contexts s)
  nodes := h₂.nodes.trans h₁.nodes

/-- A step that fails before it does anything leaves everything intact. -/
theorem Attempt.intact {ε α : Type} {done : α → World → Prop} {e : ε}
    (h : Attempt underway s w done (some (.error e)) v) : w.Intact v := by
  cases h with
  | failed ha _ => exact ha.intact

end World

/-! ## Errors of steps -/

/-- The error that an action returned. -/
def Finish.error? {ε α : Type} : Finish (Except ε α) → Option ε
  | .returned (.error e) => some e
  | _ => none

theorem Finish.value?_of_error? {ε α : Type} {f : Finish (Except ε α)} {e : ε}
    (h : f.error? = some e) : f.value? = some (.error e) := by
  unfold error? at h
  split at h
  · obtain rfl := Option.some.inj h
    rfl
  · cases h

namespace Simulation

variable {underway : Delivery → Prop} {sim : Simulation} {n : Nat} {ε α : Type}

/-- An action that returns an error has ensured what it ensures of errors. -/
theorem perform_error {a : Action ε α} {post : Option (Except ε α) → World → Prop} {e : ε}
    (hs : sim.Calm underway) (ha : a.Ensures n underway post sim.world)
    (hq : ∀ o v, post o v → v.Still)
    (h : (sim.perform n a.outcome).2.error? = some e) :
    ∃ v, post (some (.error e)) v ∧ v.Intact (sim.perform n a.outcome).1.world := by
  have hvalue := Finish.value?_of_error? h
  have hn : (sim.perform n a.outcome).2 ≠ .overflow := Cluster.ne_overflow (by rw [hvalue]; rfl)
  obtain ⟨v, hv, hsettles, -⟩ := perform_calm hs (Prog.ensures_iff.mp (Action.ensures_iff.mp ha))
    (fun o v hv => Cluster.announced_of_still (hq o v hv)) hn
  rw [hvalue] at hv
  exact ⟨v, hv, hsettles.intact⟩

/-- A step that does one thing or fails before it leaves everything intact when it fails. -/
theorem attempt_error {a : Action ε α} {s : Session} {done : α → World → Prop} {e : ε}
    (hs : sim.Calm underway) (hstill : sim.world.Still)
    (ha : a.Ensures n underway (Attempt underway s sim.world done) sim.world)
    (hd : ∀ x v, done x v → v.Still)
    (h : (sim.perform n a.outcome).2.error? = some e) :
    sim.world.Intact (sim.perform n a.outcome).1.world := by
  obtain ⟨v, hv, hi⟩ := perform_error hs ha
    (fun _ _ hv => Attempt.elim hv (fun _ ha => ha.still hstill) hd) h
  exact hv.intact.trans hi

end Simulation

namespace Lifecycle

variable {underway : Delivery → Prop} {n : Nat} {p : Place} {s : Session}
  {d : ConfigSchemaDeclaration} {w v : World} {e : LifecycleError}

/-- What a schema declaration that failed may have left in the tables: the schema of the module
and, if only the sending of it failed, the module's first config with its links. -/
inductive Leftover (s : Session) (d : ConfigSchemaDeclaration) (w : World) (e : LifecycleError) :
    Tables → Prop
  | nothing : Leftover s d w e w.store.live
  | schema {m : ModuleId} (hm : (w.peer s).context.moduleId = some m) (now : Timestamp) :
      Leftover s d w e (w.store.live.upsertSchema (schemaRow m d now))
  | config {m : ModuleId} (hm : (w.peer s).context.moduleId = some m) (now : Timestamp)
      (hnone : w.store.live.activeConfig m = none) {t : TransportError}
      (he : e = .notify (.transport t)) {c : Config} (hc : c.moduleId = m ∧ c.active = true)
      {names : List String} (hnames : Template.variableNames c.data = .ok names) :
      Leftover s d w e { w.store.live.upsertSchema (schemaRow m d now) with
        configs := w.store.live.configs ++ [c]
        links := Table.put Prod.fst (c.id, names) w.store.live.links }

theorem Leftover.events {t : Tables} (h : Leftover s d w e t) :
    t.events = w.store.live.events ∧ t.lastEventId = w.store.live.lastEventId := by
  cases h <;> exact ⟨rfl, rfl⟩

theorem Leftover.keeps {t : Tables} (h : Leftover s d w e t) {row : Config}
    (hrow : row ∈ w.store.live.configs) : row ∈ t.configs := by
  cases h with
  | nothing => exact hrow
  | schema _ _ => exact hrow
  | config => exact List.mem_append_left _ hrow

/-- A declaration that fails leaves everything but these tables intact. -/
theorem Declared.leftover (hfresh : ∀ row ∈ w.store.live.configs, row.id ≠ .nth (w.issued + 1))
    (h : Declared n underway s d w (some (.error e)) v) :
    ∃ t, Leftover s d w e t ∧ (w.write t).Intact v := by
  cases h with
  | refused h _ => exact ⟨_, .nothing, h.intact⟩
  | invalid hm _ _ h _ => exact ⟨_, .schema hm _, h.intact⟩
  | @missed m now c t _ _ hm _ hc _ h ho =>
    refine ⟨t, ?_, h.intact⟩
    obtain ⟨te, he⟩ : ∃ te, e = .notify (.transport te) := by simpa using ho
    cases hc with
    | found _ => exact .schema hm _
    | created hnone hc =>
      obtain ⟨names, hnames, -, rfl⟩ := hc.stored
      rw [← hc.data] at hnames
      have hleft := Leftover.config (d := d) hm now hnone he ⟨hc.isModule, hc.active⟩ hnames
      rw [← Table.put_fresh (hc.id ▸ hfresh)] at hleft
      exact hleft

/-- A disconnect that fails has written nothing. -/
theorem Left.unwritten (h : Left n s w (.error e) v) :
    v.store.live = w.store.live ∧ v.store.frozen = w.store.frozen := by
  obtain ⟨readings, t, -, hd, rfl⟩ := h
  cases hd with
  | unreachable _ _ => exact ⟨rfl, rfl⟩

end Lifecycle

namespace Simulation

variable {underway : Delivery → Prop} {sim : Simulation}

/-- Whatever the state, and whatever is asked: a call that fails leaves the store alone, and it fails
exactly when the store cannot be reached or a config to be written is unknown. A connect, a ready and
a config write that return an error leave tables, sessions and rooms intact; a failed schema
declaration leaves no more than its schema and, if only the sending failed, a first config; a failed
disconnect leaves the tables alone. -/
theorem errors_leave_state (hs : sim.Calm underway) (hf : sim.world.faults = [])
    (hfresh : ∀ row ∈ sim.world.store.live.configs, row.id ≠ .nth (sim.world.issued + 1))
    (n : Nat) (p : Lifecycle.Place) (s : Session) (l : Limits) :
    (∀ call : Store.Call,
      (∀ v e, sim.world.perform call = some (v, .error e) → v.store = sim.world.store) ∧
      ((∃ v e, sim.world.perform call = some (v, .error e)) ↔
        sim.world.store.available = false ∨ call.Lacks sim.world.store.live) ∧
      (sim.world.store.live.Versionable →
        sim.world.store.live.lastEventId.toNat + call.appends < UInt64.size →
        sim.world.perform call ≠ none)) ∧
    (∀ name e, (sim.perform n (Lifecycle.onConnect p s name).outcome).2.error? = some e →
      sim.world.Intact (sim.perform n (Lifecycle.onConnect p s name).outcome).1.world) ∧
    (∀ d e, (sim.perform n (Lifecycle.onReady p s d).outcome).2.error? = some e →
      sim.world.Intact (sim.perform n (Lifecycle.onReady p s d).outcome).1.world) ∧
    (∀ m data e,
      (sim.perform n (ConfigWrite.updateActive l m data).outcome).2.error? = some e →
      sim.world.Intact (sim.perform n (ConfigWrite.updateActive l m data).outcome).1.world) ∧
    (∀ id e, (sim.perform n (ConfigWrite.activate l id).outcome).2.error? = some e →
      sim.world.Intact (sim.perform n (ConfigWrite.activate l id).outcome).1.world) ∧
    (∀ d e, (sim.perform n (Lifecycle.onConfigSchema p s d).outcome).2.error? = some e →
      ∃ t, Lifecycle.Leftover s d sim.world e t ∧
        (sim.world.write t).Intact (sim.perform n (Lifecycle.onConfigSchema p s d).outcome).1.world ∧
        t.events = sim.world.store.live.events ∧ t.lastEventId = sim.world.store.live.lastEventId ∧
        ∀ row ∈ sim.world.store.live.configs, row ∈ t.configs) ∧
    ∀ e, (sim.perform n (Lifecycle.onDisconnect p s).outcome).2.error? = some e →
      (sim.perform n (Lifecycle.onDisconnect p s).outcome).1.world.store.live =
          sim.world.store.live ∧
        (sim.perform n (Lifecycle.onDisconnect p s).outcome).1.world.store.frozen =
          sim.world.store.frozen := by
  have hstill : sim.world.Still := ⟨hf, hs.outbox⟩
  refine ⟨fun call => World.perform_failure _ call, fun name e h => ?connect, fun d e h => ?ready,
    fun m data e h => ?update, fun id e h => ?activate, fun d e h => ?schema, fun e h => ?disconnect⟩
  case connect =>
    refine attempt_error hs hstill (Lifecycle.ensures_onConnect hstill) ?_ h
    rintro x v ⟨-, -, rfl⟩
    exact ⟨hstill.faults, hstill.outbox⟩
  case ready =>
    refine attempt_error hs hstill (Lifecycle.ensures_onReady hstill) ?_ h
    rintro b v ⟨-, -, -, -, e, t, -, rfl⟩
    exact ⟨hstill.faults, hstill.outbox⟩
  case update =>
    refine attempt_error (s := s) hs hstill (ConfigWrite.ensures_updateActive hf) ?_ h
    rintro row v ⟨-, w₁, t, ha, -, rfl⟩
    exact ⟨(ha.still hstill).faults, (ha.still hstill).outbox⟩
  case activate =>
    refine attempt_error (s := s) hs hstill (ConfigWrite.ensures_activate hf) ?_ h
    rintro row v ⟨-, w₁, t, ha, -, rfl⟩
    exact ⟨(ha.still hstill).faults, (ha.still hstill).outbox⟩
  case schema =>
    obtain ⟨v, hv, hi⟩ := perform_error hs (Lifecycle.ensures_onConfigSchema hstill)
      (fun o v hv => Cluster.declared_still hv hstill) h
    obtain ⟨t, ht, hleft⟩ := hv.leftover hfresh
    exact ⟨t, ht, hleft.trans hi, ht.events.1, ht.events.2, fun row hrow => ht.keeps hrow⟩
  case disconnect =>
    obtain ⟨v, ⟨r, hr, hleft⟩, hi⟩ := perform_error hs (Lifecycle.ensures_onDisconnect hstill)
      (by
        rintro o v ⟨r, -, readings, t, -, -, rfl⟩
        exact ⟨hf, hs.outbox⟩) h
    obtain rfl := Option.some.inj hr
    obtain ⟨hlive, hfrozen⟩ := hleft.unwritten
    exact ⟨hi.live.trans hlive, hi.frozen.trans hfrozen⟩

/-- A module that is gone already declares its schema: the declaration fails, and what it leaves is
the schema and the first config. -/
theorem unsent_schema_left :
    let c₀ := Cluster.start [⟨⟨"n1"⟩, ⟨2000, 2000⟩, ⟨100, .oldestFirst⟩⟩] default
    let sim := (c₀.apply (.connect 0 ⟨"c1"⟩ .closed "a")).1.sim
    let d : ConfigSchemaDeclaration := ⟨"1", .object [], .object []⟩
    let after := sim.perform 0 (Lifecycle.onConfigSchema ⟨⟨"n1"⟩, ⟨2000, 2000⟩⟩ ⟨0, ⟨"c1"⟩⟩ d).outcome
    let e : LifecycleError := .notify (.transport (.closed ⟨"c1"⟩))
    after.2.error? = some e ∧ after.1.world.store.live.configs.length = 1 ∧
      ∃ t, Lifecycle.Leftover ⟨0, ⟨"c1"⟩⟩ d sim.world e t ∧ (sim.world.write t).Intact after.1.world := by
  intro c₀ sim d after e
  have hstates : c₀.Takes [.connect 0 ⟨"c1"⟩ .closed "a"] ∧
      (∀ row ∈ sim.world.store.live.configs, row.id ≠ .nth (sim.world.issued + 1)) ∧
      after.1.world.store.live.configs.length = 1 ∧ after.2.error? = some e := by
    decide +kernel
  obtain ⟨htakes, hfresh, hone, herror⟩ := hstates
  have hrun : Cluster.Run (fun _ _ _ => True) c₀ [] c₀ := .start
  obtain ⟨hrun₁, -⟩ := hrun.takes htakes trivial _ rfl
  have hsteady := Cluster.run_steady hrun₁
  obtain ⟨t, hleft, hintact, -⟩ :=
    (errors_leave_state hsteady.calm hsteady.faults hfresh 0 _ _ default).2.2.2.2.2.1 d e herror
  exact ⟨herror, hone, t, hleft, hintact⟩

end Simulation

end ConfigRegistry
