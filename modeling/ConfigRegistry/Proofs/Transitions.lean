import ConfigRegistry.ConfigWrite
import ConfigRegistry.Housekeeping
import ConfigRegistry.Proofs.Notifications

/-!
# What transitions come to

Each transition of a connection, each sweep and each config write is summed up in the
few things it can do. Calls are not tampered with here, so a store that can be reached
stays so for a whole step, and a step that fails early has written nothing. Everything
else about runs is derived from these summaries and never looks at the programs.
-/

namespace ConfigRegistry

open World (Passes Progress Aside Attempt)

variable {underway : Delivery → Prop} {n : Nat} {w : World}

namespace World

variable {α : Type} {s : Session} {done : α → World → Prop}

/-- An error before anything was done is told to the module, and nothing else happens. -/
theorem reported_aside {v : World} {e : LifecycleError} {post : Option (Except LifecycleError α) → World → Prop}
    (hw : w.Still) (h : Aside underway s w v)
    (hp : ∀ o v', Aside underway s w v' → (∀ x, o ≠ some (.ok x)) → post o v') :
    Progress.reported underway s post (some (.error e)) v := by
  refine ⟨(h.still hw).outbox, ?_⟩
  rintro o v' hv (rfl | rfl)
  · exact hp _ v' (h.trans hv) (by simp)
  · exact hp _ v' (h.trans hv) (by simp)

theorem Attempt.reported {v : World} {e : LifecycleError} (hw : w.Still) (h : Aside underway s w v) :
    Progress.reported underway s (Attempt underway s w done) (some (.error e)) v :=
  reported_aside hw h fun _ _ => .failed

end World

namespace Transition

variable {l : Limits} {s : Session}

/-- Variables are looked up once if there are any, and all of them must be defined. -/
theorem ensures_requireVariables {names : List String} (hf : w.faults = [])
    (ha : w.store.available = true) :
    (requireVariables l names).Ensures n underway (fun o v => (v = w ∨ v = w.served) ∧
      (o = some (.ok ()) ∧ w.store.live.missingVariables names = [] ∨ ∃ e, o = some (.error e))) w := by
  unfold requireVariables
  cases names with
  | nil =>
    exact Action.ensures_pure.mpr ⟨.inl rfl, .inl ⟨rfl, rfl⟩⟩
  | cons name rest =>
    simp only [List.isEmpty_cons, Bool.false_eq_true, ↓reduceIte, Action.ensures_bind, call,
      Action.ensures_missingVariables hf ha, World.Progress.afterOk]
    change Action.Ensures n underway _ (if (w.store.live.missingVariables (name :: rest)).isEmpty
      then _ else _) _
    by_cases hm : (w.store.live.missingVariables (name :: rest)).isEmpty
    · rw [if_pos hm]
      exact Action.ensures_pure.mpr ⟨.inr rfl, .inl ⟨rfl, List.isEmpty_iff.mp hm⟩⟩
    · rw [if_neg hm]
      exact Action.ensures_throw.mpr ⟨.inr rfl, .inr ⟨_, rfl⟩⟩

theorem ensures_variablesOf {data : Bytes} {post : Option (Except LifecycleError (List String)) → World → Prop} :
    (variablesOf data).Ensures n underway post w ↔
      post (some ((Template.variableNames data).mapError .template)) w := by
  unfold variablesOf
  cases Template.variableNames data <;> simp

end Transition

namespace Lifecycle

variable {p : Place} {s : Session}

/-- A session that has not connected is refused, another one goes on as its module. -/
theorem ensures_identified {post : Option (Except LifecycleError ModuleId) → World → Prop} :
    (identified s).Ensures n underway post w ↔
      post (some (match (w.peer s).context.moduleId with
        | some m => .ok m
        | none => .error (.notIdentified s.conn))) w := by
  unfold identified
  simp only [Action.ensures_bind, Action.ensures_context, World.Progress.afterOk]
  cases (w.peer s).context.moduleId <;> simp

theorem ensures_moduleName {post : Option (Except LifecycleError String) → World → Prop} :
    (moduleName s).Ensures n underway post w ↔
      post (some (.ok ((w.peer s).context.moduleName.getD ""))) w := by
  unfold moduleName
  simp only [Action.ensures_bind, Action.ensures_context, World.Progress.afterOk, Action.ensures_pure]

/-! ## Connecting -/

/-- The world after a module connected. -/
def connected (n : Nat) (s : Session) (name : String) (w : World) : World :=
  let m := ModuleId.ofName name
  ((w.ticked.write (w.store.live.upsertModule m name w.reading).2).modifyPeer s fun p =>
    { p with context := { p.context with moduleId := some m, moduleName := some name } }).setRooms n
      ((w.node n).rooms.register s)

theorem ensures_onConnect {name : String} (hw : w.Still) :
    (onConnect p s name).Ensures n underway
      (Attempt underway s w fun _ v => w.store.available = true ∧ Text.trimmed name ≠ "" ∧
        v = connected n s (Text.trimmed name) w) w := by
  unfold onConnect
  refine ensures_report ?_
  unfold connectSteps
  by_cases he : (Text.trimmed name).isEmpty
  · simp only [he, ↓reduceIte, Action.ensures_bind, Action.ensures_throw]
    exact Attempt.reported hw (.refl w)
  · simp only [he, Bool.false_eq_true, ↓reduceIte, Action.ensures_bind, Action.ensures_clock,
      World.Progress.afterOk]
    by_cases ha : w.store.available
    · simp only [Transition.call, Action.ensures_upsertModule (w := w.ticked) hw.faults ha,
        World.Progress.afterOk, Action.ensures_identify, Action.ensures_register]
      exact .succeeded ⟨ha, by simpa using he, rfl⟩
    · simp only [Bool.not_eq_true] at ha
      refine (Action.ensures_call_unavailable (c := .upsertModule ..) (w := w.ticked) hw.faults ha).mpr ?_
      exact Attempt.reported hw (.ticked w)

/-! ## Becoming ready -/

/-- A module became ready: its backend is stored, announced, and known to its session. -/
structure Readied (p : Place) (s : Session) (w : World) (b : Backend) (v : World) : Prop where
  available : w.store.available = true
  connection : b.connectionId = s.conn
  owner : b.nodeId = p.nodeId
  isModule : (w.peer s).context.moduleId = some b.moduleId
  announced : ∃ e t, (w.store.live.insertBackend b).append? ⟨.moduleReady, b.moduleId⟩
      w.ticked.reading = some (e, t) ∧
    v = (w.ticked.ticked.write t).modifyPeer s fun p =>
      { p with context := { p.context with backend := some b } }

/-- What a session needs to become ready: it connected, its address is one, and the store can be
reached. -/
def Able (s : Session) (d : BackendDeclaration) (w : World) : Prop :=
  (w.peer s).context.moduleId ≠ none ∧ Address.isValid d.address = true ∧ w.store.available = true

/-- A session that is able to becomes ready, and no other one does. -/
theorem ensures_onReady_iff {d : BackendDeclaration} (hw : w.Still) :
    (onReady p s d).Ensures n underway (fun o v => Attempt underway s w (Readied p s w) o v ∧
      ((∃ b, o = some (.ok b)) ↔ Able s d w)) w := by
  have hrefused : ∀ {v : World} {e : LifecycleError}, ¬ Able s d w → Aside underway s w v →
      Progress.reported underway s (fun o v => Attempt underway s w (Readied p s w) o v ∧
        ((∃ b, o = some (.ok b)) ↔ Able s d w)) (some (.error e)) v := by
    intro v e hnot h
    refine World.reported_aside hw h fun o v' hv ho => ⟨.failed hv ho, iff_of_false ?_ hnot⟩
    rintro ⟨b, rfl⟩
    exact ho b rfl
  unfold onReady
  refine ensures_report ?_
  unfold readySteps
  simp only [Action.ensures_bind, ensures_identified]
  cases hm : (w.peer s).context.moduleId with
  | none => exact hrefused (fun h => h.1 hm) (.refl w)
  | some m =>
    simp only [World.Progress.afterOk]
    by_cases hv : Address.isValid d.address
    · simp only [hv, Bool.not_true, Bool.false_eq_true, ↓reduceIte, Action.ensures_bind,
        ensures_moduleName, Action.ensures_clock, World.Progress.afterOk]
      by_cases ha : w.store.available
      · simp only [Transition.call, Action.ensures_insertBackend (w := w.ticked) hw.faults ha,
          World.Progress.afterOk]
        refine (Action.ensures_appendEvent (by exact hw.faults) (by exact ha)).mpr ?_
        intro e t ht
        simp only [World.Progress.afterOk, Action.ensures_attach, Action.ensures_pure]
        refine ⟨.succeeded ⟨ha, rfl, rfl, hm, e, t, ht, rfl⟩, iff_of_true ⟨_, rfl⟩ ⟨?_, hv, ha⟩⟩
        simp [hm]
      · simp only [Bool.not_eq_true] at ha
        refine (Action.ensures_call_unavailable (c := .insertBackend _) (w := w.ticked) hw.faults ha).mpr ?_
        exact hrefused (fun h => by simp [h.2.2] at ha) (.ticked w)
    · simp only [hv, Bool.not_false, ↓reduceIte, Action.ensures_bind, Action.ensures_throw]
      exact hrefused (fun h => hv h.2.1) (.refl w)

theorem ensures_onReady {d : BackendDeclaration} (hw : w.Still) :
    (onReady p s d).Ensures n underway (Attempt underway s w (Readied p s w)) w :=
  (ensures_onReady_iff hw).mono fun _ _ h => h.1

/-! ## Disconnecting -/

/-- The tables after the module of a session was marked as disconnected. -/
def marked (c : SessionContext) (now : Timestamp) (t : Tables) : Tables :=
  match c.moduleId with
  | none => t
  | some m => t.markDisconnected m now

/-- What a disconnect answers and leaves in the tables: with an unreachable store, an error if there
was anything to write. -/
inductive Departure (c : SessionContext) (w : World) : Except LifecycleError Unit → Tables → Prop
  | unreachable (ha : w.store.available = false) (hc : c.moduleId ≠ none ∨ c.backend ≠ none) :
      Departure c w (.error (.store .unreachable)) w.store.live
  | unknown (hm : c.moduleId = none) (hb : c.backend = none) : Departure c w (.ok ()) w.store.live
  | marks (ha : w.store.available = true) (hb : c.backend = none) (now : Timestamp) :
      Departure c w (.ok ()) (marked c now w.store.live)
  | withdraws (ha : w.store.available = true) {b : Backend} (hb : c.backend = some b)
      (now now' : Timestamp) {e : Event} {t : Tables}
      (ht : ((marked c now w.store.live).deleteBackend b.connectionId).2.append?
        ⟨.moduleDisconnected, b.moduleId⟩ now' = some (e, t)) : Departure c w (.ok ()) t

/-- A session is gone: it is in no room, holds no backend, and has departed from the tables. -/
structure Left (n : Nat) (s : Session) (w : World) (r : Except LifecycleError Unit) (v : World) :
    Prop where
  departed : ∃ readings t, w.readings ≤ readings ∧ Departure (w.peer s).context w r t ∧
    v = (({ w with readings := readings }.setRooms n ((w.node n).rooms.unregister s.conn).2).modifyPeer
      s fun p => { p with context := { p.context with backend := none } }).write t

theorem ensures_deregister {l : Limits} {b : Backend}
    {post : Option (Except LifecycleError Unit) → World → Prop} (hf : w.faults = [])
    (hu : w.store.available = false → post (some (.error (.store .unreachable))) w)
    (hd : w.store.available = true → ∀ e t,
      (w.store.live.deleteBackend b.connectionId).2.append? ⟨.moduleDisconnected, b.moduleId⟩
        w.reading = some (e, t) → post (some (.ok ())) (w.ticked.write t)) :
    (deregister l b).Ensures n underway post w := by
  unfold deregister
  simp only [Action.ensures_bind, Transition.call]
  by_cases ha : w.store.available
  · simp only [Action.ensures_deleteBackend hf ha, World.Progress.afterOk]
    refine (Action.ensures_appendEvent (by exact hf) (by exact ha)).mpr ?_
    intro e t ht
    simp only [World.Progress.afterOk, Action.ensures_pure]
    exact hd ha e t ht
  · simp only [Bool.not_eq_true] at ha
    exact (Action.ensures_call_unavailable (c := .deleteBackend _) hf ha).mpr (hu ha)

/-- The backend of a session is withdrawn whatever came of marking its module, `r`. -/
theorem ensures_withdraw {l : Limits} {r : Except LifecycleError Unit}
    {post : Option (Except LifecycleError Unit) → World → Prop} (hf : w.faults = [])
    (hn : (w.peer s).context.backend = none → post (some r) (w.modifyPeer s fun p =>
      { p with context := { p.context with backend := none } }))
    (hu : ∀ b, (w.peer s).context.backend = some b → w.store.available = false →
      post (some (firstError r (.error (.store .unreachable)))) (w.modifyPeer s fun p =>
        { p with context := { p.context with backend := none } }))
    (hd : ∀ b, (w.peer s).context.backend = some b → w.store.available = true → ∀ e t,
      (w.store.live.deleteBackend b.connectionId).2.append? ⟨.moduleDisconnected, b.moduleId⟩
        w.reading = some (e, t) →
      post (some (firstError r (.ok ()))) ((w.modifyPeer s fun p =>
        { p with context := { p.context with backend := none } }).ticked.write t)) :
    Action.Ensures n underway post (do
      let deregistered ← ExceptT.lift <| Action.outcome (ε := LifecycleError) do
        match ← Action.ask (.detach s) with
        | none => return ()
        | some b => deregister l b
      MonadExcept.ofExcept (firstError r deregistered)) w := by
  simp only [Action.ensures_bind, Action.ensures_lift, Action.ensures_outcome,
    Action.ensures_detach, World.Progress.afterOk]
  cases hb : (w.peer s).context.backend with
  | none =>
    simp only [Action.ensures_pure, Option.map_some, Action.ensures_ofExcept]
    have hr : firstError r (.ok ()) = r := by cases r <;> rfl
    rw [hr]
    exact hn hb
  | some b =>
    refine ensures_deregister hf (fun ha => ?_) fun ha e t ht => ?_
    · simp only [Option.map_some, Action.ensures_ofExcept]
      exact hu b hb ha
    · simp only [Option.map_some, Action.ensures_ofExcept]
      exact hd b hb ha e t ht

theorem ensures_onDisconnect (hw : w.Still) :
    (onDisconnect p s).Ensures n underway (fun o v => ∃ r, o = some r ∧ Left n s w r v) w := by
  have hf := hw.faults
  unfold onDisconnect
  refine Action.ensures_bind.mpr (Action.ensures_unregister.mpr ?_)
  refine Action.ensures_bind.mpr (Action.ensures_context.mpr ?_)
  refine Action.ensures_bind.mpr (Action.ensures_lift.mpr (Action.ensures_outcome.mpr ?_))
  simp only [World.setRooms_peer]
  -- Whatever comes of marking the module, the backend is withdrawn.
  cases hm : (w.peer s).context.moduleId with
  | none =>
    simp only [Action.ensures_pure]
    refine ensures_withdraw hf (fun hb => ?_) (fun b hb ha => ?_) fun b hb ha e t ht => ?_
    · exact ⟨_, rfl, w.readings, _, Nat.le_refl _, .unknown hm hb, rfl⟩
    · exact ⟨_, rfl, w.readings, _, Nat.le_refl _, .unreachable ha (.inr (by simp_all)), rfl⟩
    · have ht' : ((marked (w.peer s).context w.reading w.store.live).deleteBackend
          b.connectionId).2.append? ⟨.moduleDisconnected, b.moduleId⟩ w.reading = some (e, t) := by
        rw [marked, hm]
        exact ht
      exact ⟨_, rfl, w.readings + 1, t, Nat.le_succ _, .withdraws (w := w) ha hb _ _ ht', rfl⟩
  | some m =>
    refine Action.ensures_bind.mpr (Action.ensures_clock.mpr ?_)
    by_cases ha : w.store.available
    · refine (Action.ensures_markDisconnected (by exact hf) (by exact ha)).mpr ?_
      have hmarked : marked (w.peer s).context w.reading w.store.live =
          w.store.live.markDisconnected m w.reading := by rw [marked, hm]
      refine ensures_withdraw (by exact hf) (fun hb => ?_) (fun b hb hu => ?_) fun b hb _ e t ht => ?_
      · have hd : Departure (w.peer s).context w (.ok ()) (w.store.live.markDisconnected m w.reading) :=
          hmarked ▸ .marks ha hb w.reading
        exact ⟨_, rfl, w.readings + 1, _, Nat.le_succ _, hd, rfl⟩
      · exact absurd (ha.symm.trans hu) (by simp)
      · have ht' : ((marked (w.peer s).context w.reading w.store.live).deleteBackend
            b.connectionId).2.append? ⟨.moduleDisconnected, b.moduleId⟩ w.ticked.reading =
              some (e, t) := by
          rw [hmarked]
          exact ht
        exact ⟨_, rfl, w.readings + 2, t, by omega, .withdraws (w := w) ha hb _ _ ht', rfl⟩
    · simp only [Bool.not_eq_true] at ha
      have hr : ∀ r : Except LifecycleError Unit,
          firstError (.error (.store .unreachable)) r = .error (.store .unreachable) := fun r => rfl
      refine (Action.ensures_call_unavailable (c := .markDisconnected ..) (by exact hf) (by exact ha)).mpr ?_
      refine ensures_withdraw (by exact hf) (fun _ => ?_) (fun b _ _ => ?_) fun b _ hu => ?_
      · exact ⟨_, rfl, w.readings + 1, _, Nat.le_succ _, .unreachable ha (.inl (by simp [hm])), rfl⟩
      · exact ⟨_, rfl, w.readings + 1, _, Nat.le_succ _, .unreachable ha (.inl (by simp [hm])), rfl⟩
      · exact absurd (ha.symm.trans hu) (by simp)

/-! ## Declaring requirements -/

/-- A session that is not deaf was sent current states and joined their rooms, one after the
other. -/
inductive Subscribing (n : Nat) (underway : Delivery → Prop) (s : Session) (w : World) :
    List Notification → World → Prop
  | start : Subscribing n underway s w [] w
  | aside {ks : List Notification} {v v' : World} (h : Subscribing n underway s w ks v)
      (ha : Aside underway s v v') : Subscribing n underway s w ks v'
  | joins {ks : List Notification} {v : World} {k : Notification} {payload : Bytes}
      (h : Subscribing n underway s w ks v) (hk : (v.store.view .stale).snapshot k = .ok payload)
      (hd : v.deaf s = false) :
      Subscribing n underway s w (ks ++ [k])
        ((v.accept s k.message payload).joined n k.room s.conn)

theorem Subscribing.still {ks : List Notification} {v : World} (hw : w.Still)
    (h : Subscribing n underway s w ks v) : v.Still := by
  induction h with
  | start => exact hw
  | aside _ ha ih => exact ha.still ih
  | joins _ _ _ ih => exact ⟨ih.faults, ih.outbox⟩

theorem Subscribing.subscribed {ks : List Notification} {k : Notification} {v v' : World}
    {o : Option (Except NotifyError Unit)} (h : Subscribing n underway s w ks v)
    (hs : Notification.Subscribed n underway s k v o v') :
    (o = some (.ok ()) ∧ Subscribing n underway s w (ks ++ [k]) v') ∨
      (∀ x, o ≠ some (.ok x)) ∧ Subscribing n underway s w ks v' := by
  cases hs with
  | unreachable ha => exact .inr ⟨by simp, h⟩
  | absent e ha hk => exact .inr ⟨by simp, h.aside (.served v)⟩
  | offered ha hk hoff hd =>
    cases hoff with
    | joins hp =>
      have hdeaf : _ = v.deaf s := World.deaf_of_faces (w := v) hp.faces s
      refine .inl ⟨rfl, (h.aside ((Aside.served v).trans (.passes hp))).joins ?_ (hdeaf.trans (hd rfl))⟩
      obtain ⟨t, ps, ds, rfl, -⟩ := hp
      simpa using hk
    | missed _ hp ho =>
      refine .inr ⟨?_, h.aside ((Aside.served v).trans (.passes hp))⟩
      rcases ho with rfl | ⟨e, rfl⟩ <;> simp

/-- The rooms that a list of required modules stands for. -/
def backendsOf (names : List String) : List Notification :=
  names.map fun name => .backends (ModuleId.ofName name)

/-- What a session asks to be notified of. -/
def wanted (r : ModuleRequirements) : List Notification :=
  backendsOf r.requiredModules ++ if r.requireRoutes then [.routing] else []

theorem ensures_subscribeAll {l : Limits} {names : List String} {ks : List Notification} {v : World}
    (hw : w.Still) (h : Subscribing n underway s w ks v) :
    (subscribeAll l s names).Ensures n underway (fun o v' => ∃ done, done <+: backendsOf names ∧
      Subscribing n underway s w (ks ++ done) v' ∧
      (o = some (.ok ()) → done = backendsOf names)) v := by
  induction names generalizing ks v with
  | nil =>
    simp only [subscribeAll, Action.ensures_pure]
    exact ⟨[], List.prefix_refl _, by simpa using h, fun _ => rfl⟩
  | cons name rest ih =>
    simp only [subscribeAll, Action.ensures_bind]
    refine Notification.ensures_subscribe (h.still hw) ?_
    intro o v' hs
    rcases h.subscribed hs with ⟨rfl, h'⟩ | ⟨ho, h'⟩
    · refine (ih h').mono ?_
      rintro o v'' ⟨done, hpre, hsub, hall⟩
      refine ⟨.backends (ModuleId.ofName name) :: done, ?_, by simpa using hsub, ?_⟩
      · exact List.cons_prefix_cons.mpr ⟨rfl, hpre⟩
      · intro ho
        rw [hall ho]
        rfl
    · rcases o with _ | _ | x
      · exact ⟨[], List.nil_prefix, by simpa using h', by simp⟩
      · exact ⟨[], List.nil_prefix, by simpa using h', by simp⟩
      · exact absurd rfl (ho x)

/-- What comes of declaring requirements: the rooms joined are the first of those asked for, and
all of them when it succeeds. -/
structure Required (n : Nat) (underway : Delivery → Prop) (s : Session) (r : ModuleRequirements)
    (w : World) (o : Option (Except LifecycleError Unit)) (v : World) : Prop where
  subscribed : ∃ ks, ks <+: wanted r ∧ Subscribing n underway s w ks v ∧
    (o = some (.ok ()) → (w.peer s).context.moduleId ≠ none ∧ ks = wanted r)

/-- An error of the transition is told to the module, and nothing else happens. -/
theorem Required.reported {r : ModuleRequirements} {ks : List Notification} {v : World}
    {e : LifecycleError} (hw : w.Still) (hks : ks <+: wanted r)
    (h : Subscribing n underway s w ks v) :
    Progress.reported underway s (Required n underway s r w) (some (.error e)) v := by
  refine ⟨(h.still hw).outbox, ?_⟩
  rintro o v' hv (rfl | rfl)
  · exact ⟨ks, hks, h.aside hv, by simp⟩
  · exact ⟨ks, hks, h.aside hv, by simp⟩

theorem ensures_onRequirements {r : ModuleRequirements} (hw : w.Still) :
    (onRequirements p s r).Ensures n underway (Required n underway s r w) w := by
  unfold onRequirements
  refine ensures_report ?_
  unfold requireSteps
  simp only [Action.ensures_bind, ensures_identified]
  cases hm : (w.peer s).context.moduleId with
  | none => exact Required.reported hw List.nil_prefix .start
  | some m =>
    simp only [World.Progress.afterOk]
    rw [Action.ensures_mapError]
    refine (ensures_subscribeAll hw .start).mono ?_
    rintro o v ⟨done, hpre, hsub, hall⟩
    simp only [List.nil_append] at hsub
    have hdone : done <+: wanted r := hpre.trans (List.prefix_append _ _)
    rcases o with _ | e | x
    · exact ⟨done, hdone, hsub, by simp⟩
    · exact Required.reported hw hdone hsub
    · obtain rfl := hall rfl
      simp only [Option.map_some, mapError_ok, World.Progress.afterOk]
      by_cases hr : r.requireRoutes
      · simp only [hr, ↓reduceIte]
        rw [Action.ensures_mapError]
        refine Notification.ensures_subscribe (hsub.still hw) ?_
        intro o v' hs
        have hwanted : backendsOf r.requiredModules ++ [.routing] = wanted r := by simp [wanted, hr]
        rcases hsub.subscribed hs with ⟨rfl, h'⟩ | ⟨ho, h'⟩
        · rw [hwanted] at h'
          exact ⟨wanted r, List.prefix_refl _, h', fun _ => ⟨by simp [hm], rfl⟩⟩
        · rcases o with _ | e | x
          · exact ⟨_, hdone, h', by simp⟩
          · exact Required.reported hw hdone h'
          · exact absurd rfl (ho x)
      · simp only [hr, Bool.false_eq_true, ↓reduceIte, Action.ensures_pure]
        have hwanted : backendsOf r.requiredModules = wanted r := by simp [wanted, hr]
        exact ⟨_, hdone, hsub, fun _ => ⟨by simp [hm], hwanted⟩⟩

/-! ## Declaring a config schema -/

/-- The first config of a module, and the tables it is stored in. -/
structure Created (m : ModuleId) (document : Bytes) (issued : Nat) (live : Tables) (c : Config)
    (t : Tables) : Prop where
  id : c.id = .nth (issued + 1)
  isModule : c.moduleId = m
  data : c.data = document
  version : c.version = 1
  active : c.active = true
  stored : ∃ names, Template.variableNames document = .ok names ∧
    live.missingVariables names = [] ∧ t = (live.insertConfig c).linkVariables c.id names

theorem ensures_createConfig {l : Limits} {m : ModuleId} {name : String} {data : Bytes}
    (hf : w.faults = []) (ha : w.store.available = true) :
    (createConfig l m name data).Ensures n underway (Attempt underway s w fun c v =>
      ∃ w₁ t, Aside underway s w w₁ ∧ Created m data w.issued w.store.live c t ∧ v = w₁.write t) w := by
  unfold createConfig
  simp only [Action.ensures_bind, Transition.ensures_variablesOf]
  cases hn : Template.variableNames data with
  | error e => exact .failed (.refl w) (by simp)
  | ok names =>
    simp only [mapError_ok, World.Progress.afterOk]
    refine (Transition.ensures_requireVariables hf ha).mono ?_
    rintro o v ⟨hv, ⟨rfl, hmissing⟩ | ⟨e, rfl⟩⟩
    · simp only [World.Progress.afterOk, Action.ensures_clock, Action.ensures_freshConfigId,
        Transition.call]
      have hfv : v.faults = [] := by rcases hv with rfl | rfl <;> exact hf
      have hav : v.store.available = true := by rcases hv with rfl | rfl <;> exact ha
      refine (Action.ensures_insertConfig (by exact hfv) (by exact hav)).mpr ?_
      simp only [World.Progress.afterOk]
      refine (Action.ensures_linkVariables (by exact hfv) (by exact hav)).mpr ?_
      simp only [World.Progress.afterOk, Action.ensures_pure]
      rcases hv with rfl | rfl
      · exact .succeeded ⟨_, _, (Aside.ticked v).trans (.issued _),
          ⟨rfl, rfl, rfl, rfl, rfl, names, hn, hmissing, rfl⟩, rfl⟩
      · exact .succeeded ⟨_, _, ((Aside.served w).trans (.ticked _)).trans (.issued _),
          ⟨rfl, rfl, rfl, rfl, rfl, names, hn, hmissing, rfl⟩, rfl⟩
    · rcases hv with rfl | rfl
      · exact .failed (.refl v) (by simp)
      · exact .failed (.served w) (by simp)

/-- The config that a session is offered, and the tables then: the active one of its module, or a
new one. -/
inductive Offering (m : ModuleId) (d : ConfigSchemaDeclaration) (issued : Nat) (live : Tables) :
    Config → Tables → Prop
  | found {c : Config} (h : live.activeConfig m = some c) : Offering m d issued live c live
  | created {c : Config} {t : Tables} (h : live.activeConfig m = none)
      (hc : Created m d.defaultConfig.write issued live c t) : Offering m d issued live c t

/-- The schema row that a declaration stores. -/
def schemaRow (m : ModuleId) (d : ConfigSchemaDeclaration) (now : Timestamp) : ConfigSchema :=
  ⟨m, d.version, d.schema.write, now⟩

/-- What comes of declaring a config schema. -/
inductive Declared (n : Nat) (underway : Delivery → Prop) (s : Session) (d : ConfigSchemaDeclaration)
    (w : World) : Option (Except LifecycleError Unit) → World → Prop
  /-- Nothing was written. -/
  | refused {o : Option (Except LifecycleError Unit)} {v : World} (h : Aside underway s w v)
      (ho : ∀ x, o ≠ some (.ok x)) : Declared n underway s d w o v
  /-- Only the schema was stored: the first config is not valid. -/
  | invalid {m : ModuleId} {now : Timestamp} {o : Option (Except LifecycleError Unit)} {v : World}
      (hm : (w.peer s).context.moduleId = some m) (ha : w.store.available = true)
      (hnone : w.store.live.activeConfig m = none)
      (h : Aside underway s (w.write (w.store.live.upsertSchema (schemaRow m d now))) v)
      (ho : ∀ x, o ≠ some (.ok x)) : Declared n underway s d w o v
  /-- The config did not reach the session. -/
  | missed {m : ModuleId} {now : Timestamp} {c : Config} {t : Tables}
      {o : Option (Except LifecycleError Unit)} {v : World}
      (hm : (w.peer s).context.moduleId = some m) (ha : w.store.available = true)
      (hc : Offering m d w.issued (w.store.live.upsertSchema (schemaRow m d now)) c t)
      (hs : w.hears s = false) (h : Aside underway s (w.write t) v)
      (ho : o = none ∨ ∃ e, o = some (.error (.notify (.transport e)))) :
      Declared n underway s d w o v
  /-- The config reached the session, which joined the room of its changes. -/
  | joins {m : ModuleId} {now : Timestamp} {c : Config} {t : Tables} {v : World}
      (hm : (w.peer s).context.moduleId = some m) (ha : w.store.available = true)
      (hc : Offering m d w.issued (w.store.live.upsertSchema (schemaRow m d now)) c t)
      (h : Aside underway s (w.write t) v) (hd : w.deaf s = false) :
      Declared n underway s d w (some (.ok ()))
        ((v.accept s (Notification.config c.moduleId).message c.data).joined n
          (Notification.config c.moduleId).room s.conn)

/-- Another error is told to the module, and nothing else happens. -/
theorem Declared.reported {d : ConfigSchemaDeclaration} {e : LifecycleError} {v : World}
    (ho : v.outbox = []) (h : ∀ o v', Aside underway s v v' → (∀ x, o ≠ some (.ok x)) →
      Declared n underway s d w o v') :
    Progress.reported underway s (Declared n underway s d w) (some (.error e)) v := by
  refine ⟨ho, ?_⟩
  rintro o v' hv (rfl | rfl)
  · exact h _ v' hv (by simp)
  · exact h _ v' hv (by simp)

/-- The config that was found or created is offered to the session. -/
theorem ensures_subscribeWith {l : Limits} {d : ConfigSchemaDeclaration} {m : ModuleId}
    {now : Timestamp} {c : Config} {t : Tables} {v : World} (hw : w.Still)
    (hm : (w.peer s).context.moduleId = some m) (ha : w.store.available = true)
    (hc : Offering m d w.issued (w.store.live.upsertSchema (schemaRow m d now)) c t)
    (hv : Aside underway s (w.write t) v) :
    ((Notification.subscribeWith l s c).mapError .notify).Ensures n underway
      (Progress.reported underway s (Declared n underway s d w)) v := by
  have hstill : v.Still := hv.still (w := w.write t) ⟨hw.faults, hw.outbox⟩
  have hears : v.hears s = w.hears s := World.hears_of_faces (w := w) hv.faces s
  rw [Action.ensures_mapError]
  have hdeaf : v.deaf s = w.deaf s := World.deaf_of_faces (w := w) hv.faces s
  refine Notification.ensures_deliver hstill.outbox ?_
  intro o v' ho hd
  cases ho with
  | joins hp => exact .joins hm ha hc (hv.trans (.passes hp)) (hdeaf ▸ hd rfl)
  | missed hs hp ho =>
    rw [hears] at hs
    have hv' := hv.trans (.passes hp)
    rcases ho with rfl | ⟨e, rfl⟩
    · exact .missed hm ha hc hs hv' (.inl rfl)
    · refine ⟨(hv'.still (w := w.write t) ⟨hw.faults, hw.outbox⟩).outbox, ?_⟩
      intro o v'' hv'' ho'
      exact .missed hm ha hc hs (hv'.trans hv'') (ho'.symm.imp_right fun ho' => ⟨e, ho'⟩)

theorem ensures_onConfigSchema {d : ConfigSchemaDeclaration} (hw : w.Still) :
    (onConfigSchema p s d).Ensures n underway (Declared n underway s d w) w := by
  unfold onConfigSchema
  refine ensures_report ?_
  unfold schemaSteps
  simp only [Action.ensures_bind, ensures_identified]
  cases hm : (w.peer s).context.moduleId with
  | none => exact Declared.reported hw.outbox fun o v' hv ho => .refused hv ho
  | some m =>
    simp only [World.Progress.afterOk, Action.ensures_clock, Transition.call]
    by_cases ha : w.store.available
    · refine (Action.ensures_upsertSchema (by exact hw.faults) (by exact ha)).mpr ?_
      simp only [World.Progress.afterOk]
      refine (Action.ensures_activeConfig (by exact hw.faults) (by exact ha)).mpr ?_
      simp only [World.Progress.afterOk]
      have hrow : ConfigSchema.mk m d.version d.schema.write w.reading = schemaRow m d w.reading := rfl
      rw [hrow]
      generalize w.reading = now
      generalize hv : (w.ticked.write (w.ticked.store.live.upsertSchema
        (schemaRow m d now))).served = v
      have hstored : Aside underway s (w.write (w.store.live.upsertSchema (schemaRow m d now))) v :=
        hv ▸ (Aside.ticked _).trans (.served _)
      have hview : ((w.ticked.write (w.ticked.store.live.upsertSchema (schemaRow m d now))).store.view
          .strong).activeConfig m = w.store.live.activeConfig m := rfl
      rw [hview]
      cases hactive : w.store.live.activeConfig m with
      | some c =>
        simp only [pure_bind]
        exact ensures_subscribeWith hw hm ha (.found hactive) hstored
      | none =>
        have hlive : v.store.live = w.store.live.upsertSchema (schemaRow m d now) := by rw [← hv]; rfl
        simp only [Action.ensures_bind, ensures_moduleName, World.Progress.afterOk]
        refine (ensures_createConfig (s := s) (by rw [← hv]; exact hw.faults) (by rw [← hv]; exact ha)).mono ?_
        intro o v' hc
        cases hc with
        | failed h ho =>
          have hv' := hstored.trans h
          rcases o with _ | e | c
          · exact .invalid hm ha hactive hv' (by simp)
          · refine Declared.reported (hv'.still (w := w.write _) ⟨hw.faults, hw.outbox⟩).outbox ?_
            exact fun o v'' hv'' ho' => .invalid hm ha hactive (hv'.trans hv'') ho'
          · exact absurd rfl (ho c)
        | succeeded h =>
          obtain ⟨w₁, t, haside, hcreated, rfl⟩ := h
          rw [hlive] at hcreated
          have hissued : v.issued = w.issued := by rw [← hv]; rfl
          rw [hissued] at hcreated
          refine ensures_subscribeWith hw hm ha (.created hactive hcreated) ?_
          exact (hstored.trans haside).write t
    · simp only [Bool.not_eq_true] at ha
      refine (Action.ensures_call_unavailable (c := .upsertSchema _) (w := w.ticked) hw.faults ha).mpr ?_
      refine Declared.reported hw.outbox fun o v' hv ho => .refused ?_ ho
      exact (Aside.ticked w).trans hv

end Lifecycle

namespace ConfigWrite

variable {l : Limits} {s : Session}

/-- The active config of a module was given new data, and this was announced. -/
structure Updated (m : ModuleId) (data : Bytes) (live : Tables) (c : Config) (t : Tables) : Prop where
  written : ∃ active old names now now' t₁ e, live.activeConfig m = some active ∧
    live.config active.id = some old ∧ Template.variableNames data = .ok names ∧
    live.missingVariables names = [] ∧ live.updateConfigData? old data now = some (c, t₁) ∧
    (t₁.linkVariables c.id names).append? ⟨.configUpdated, m⟩ now' = some (e, t)

theorem ensures_updateActive {m : ModuleId} {data : Bytes} (hf : w.faults = []) :
    (updateActive l m data).Ensures n underway (Attempt underway s w fun c v =>
      w.store.available = true ∧ ∃ w₁ t, Aside underway s w w₁ ∧
        Updated m data w.store.live c t ∧ v = w₁.write t) w := by
  unfold updateActive
  simp only [Action.ensures_bind, Transition.call]
  by_cases ha : w.store.available
  · refine (Action.ensures_activeConfig hf ha).mpr ?_
    simp only [World.Progress.afterOk]
    cases hactive : w.store.live.activeConfig m with
    | none =>
      simp only [Store.view, hactive, Action.ensures_throw]
      exact .failed (.served w) (by simp)
    | some active =>
      simp only [Store.view, hactive, Action.ensures_bind, Transition.ensures_variablesOf]
      cases hn : Template.variableNames data with
      | error e => exact .failed (.served w) (by simp)
      | ok names =>
        simp only [mapError_ok, World.Progress.afterOk]
        refine (Transition.ensures_requireVariables (w := w.served) hf ha).mono ?_
        rintro o v ⟨hv, ⟨rfl, hmissing⟩ | ⟨e, rfl⟩⟩
        · have hfv : v.faults = [] := by rcases hv with rfl | rfl <;> exact hf
          have hav : v.store.available = true := by rcases hv with rfl | rfl <;> exact ha
          have hlive : v.store.live = w.store.live := by rcases hv with rfl | rfl <;> rfl
          have haside : Aside underway s w v := by
            rcases hv with rfl | rfl
            · exact .served w
            · exact (Aside.served w).trans (.served _)
          simp only [World.Progress.afterOk]
          refine (Action.ensures_updateConfigData hfv hav).mpr ?_
          rw [hlive]
          cases hold : w.store.live.config active.id with
          | none => exact .failed (haside.trans (.ticked v)) (by simp)
          | some old =>
            intro c t₁ hupdated
            simp only [World.Progress.afterOk]
            refine (Action.ensures_linkVariables (by exact hfv) (by exact hav)).mpr ?_
            simp only [World.Progress.afterOk, announce, Action.ensures_bind, Transition.call]
            refine (Action.ensures_appendEvent (by exact hfv) (by exact hav)).mpr ?_
            intro e t ht
            simp only [World.Progress.afterOk, Action.ensures_pure]
            refine .succeeded ⟨ha, v.ticked.ticked, t, (haside.trans (.ticked _)).trans (.ticked _), ?_, rfl⟩
            exact ⟨active, old, names, _, _, t₁, e, hactive, hold, hn, hmissing, hupdated, ht⟩
        · rcases hv with rfl | rfl
          · exact .failed (.served w) (by simp)
          · exact .failed ((Aside.served w).trans (.served _)) (by simp)
  · simp only [Bool.not_eq_true] at ha
    refine (Action.ensures_call_unavailable (c := .activeConfig ..) hf ha).mpr ?_
    exact .failed (.refl w) (by simp)

/-- A config became the active one of its module, and this was announced. -/
structure Activated (id : ConfigId) (live : Tables) (t : Tables) : Prop where
  written : ∃ c now e, live.config id = some c ∧
    (live.activateConfig c).2.append? ⟨.configUpdated, c.moduleId⟩ now = some (e, t)

theorem ensures_activate {id : ConfigId} (hf : w.faults = []) :
    (activate l id).Ensures n underway (Attempt underway s w fun _ v =>
      w.store.available = true ∧ ∃ w₁ t, Aside underway s w w₁ ∧
        Activated id w.store.live t ∧ v = w₁.write t) w := by
  unfold activate
  simp only [Action.ensures_bind, Transition.call, announce]
  by_cases ha : w.store.available
  · refine (Action.ensures_activateConfig hf ha).mpr ?_
    cases hc : w.store.live.config id with
    | none => exact .failed (.refl w) (by simp)
    | some c =>
      simp only [World.Progress.afterOk]
      refine (Action.ensures_appendEvent (by exact hf) (by exact ha)).mpr ?_
      intro e t ht
      simp only [World.Progress.afterOk, Action.ensures_pure]
      exact .succeeded ⟨ha, w.ticked, t, .ticked w, ⟨c, _, e, hc, ht⟩, rfl⟩
  · simp only [Bool.not_eq_true] at ha
    refine (Action.ensures_call_unavailable (c := .activateConfig _) hf ha).mpr ?_
    exact .failed (.refl w) (by simp)

end ConfigWrite

namespace Sweep

variable {l : Limits} {s : Session}

/-- Backends were deleted and this was announced; without any to delete nothing was written. -/
inductive Removed (checked : Nat) (bs : List Backend) (w : World) : SweepReport → World → Prop
  | nothing (h : bs = []) : Removed checked bs w ⟨checked, 0, []⟩ w
  | some (h : bs ≠ []) {es : List Event} {t : Tables}
      (ht : Tables.appendAll? w.reading ((modulesOf bs).map fun m => ⟨.moduleDisconnected, m⟩)
        (Tables.deleteBackends (bs.map (·.connectionId)) w.store.live).2 = some (es, t)) :
      Removed checked bs w
        ⟨checked, (Tables.deleteBackends (bs.map (·.connectionId)) w.store.live).1.length, modulesOf bs⟩
        (w.ticked.write t)

theorem ensures_remove {checked : Nat} {bs : List Backend}
    {post : Option (Except HousekeepingError SweepReport) → World → Prop} (hf : w.faults = [])
    (ha : w.store.available = true) (hp : ∀ r v, Removed checked bs w r v → post (some (.ok r)) v) :
    (remove l checked bs).Ensures n underway post w := by
  unfold remove
  by_cases hb : bs.isEmpty
  · simp only [hb, ↓reduceIte, Action.ensures_pure]
    exact hp _ _ (.nothing (List.isEmpty_iff.mp hb))
  · simp only [hb, Bool.false_eq_true, ↓reduceIte, Action.ensures_bind, call]
    refine (Action.ensures_deleteBackends hf ha).mpr ?_
    simp only [World.Progress.afterOk]
    refine (Action.ensures_appendEvents (by exact hf) (by exact ha)).mpr ?_
    intro es t ht
    simp only [World.Progress.afterOk, Action.ensures_pure]
    exact hp _ _ (.some (fun h => hb (List.isEmpty_iff.mpr h)) ht)

/-- The backends of a node whose connections are not registered. -/
def phantoms (node : NodeId) (rooms : RoomIndex) (t : Tables) : List Backend :=
  (t.backendsByNode node).filter fun b => !rooms.isConnected b.connectionId

/-- The connections that were asked about and found are those that are registered. -/
theorem phantoms_eq (node : NodeId) (rooms : RoomIndex) (t : Tables) :
    ((t.backendsByNode node).filter fun b =>
      !(((t.backendsByNode node).map (·.connectionId)).filter fun c =>
        rooms.isConnected c).contains b.connectionId) = phantoms node rooms t := by
  unfold phantoms
  refine List.filter_congr fun b hb => ?_
  have hmem : b.connectionId ∈ (t.backendsByNode node).map (·.connectionId) :=
    List.mem_map_of_mem hb
  by_cases hc : rooms.isConnected b.connectionId
  · simp [hc, List.mem_filter, hmem]
  · simp [hc, List.mem_filter]

theorem ensures_clearPhantoms {node : NodeId} (hf : w.faults = []) :
    (clearPhantoms node l).Ensures n underway (Attempt underway s w fun r v =>
      w.store.available = true ∧ Removed (w.store.live.backendsByNode node).length
        (phantoms node (w.node n).rooms w.store.live) w.served r v) w := by
  unfold clearPhantoms
  simp only [Action.ensures_bind, call]
  by_cases ha : w.store.available
  · refine (Action.ensures_backendsByNode hf ha).mpr ?_
    simp only [World.Progress.afterOk, Action.ensures_connected, Store.view, World.served_node,
      phantoms_eq]
    exact ensures_remove hf ha fun r v h => .succeeded ⟨ha, h⟩
  · simp only [Bool.not_eq_true] at ha
    refine (Action.ensures_call_unavailable (c := .backendsByNode ..) hf ha).mpr ?_
    exact .failed (.refl w) (by simp)

theorem ensures_deleteOwn {node : NodeId} (hf : w.faults = []) :
    (deleteOwn node l).Ensures n underway (Attempt underway s w fun r v =>
      w.store.available = true ∧ Removed (w.store.live.backendsByNode node).length
        (w.store.live.backendsByNode node) w.served r v) w := by
  unfold deleteOwn
  simp only [Action.ensures_bind, call]
  by_cases ha : w.store.available
  · refine (Action.ensures_backendsByNode hf ha).mpr ?_
    simp only [World.Progress.afterOk, Store.view]
    exact ensures_remove hf ha fun r v h => .succeeded ⟨ha, h⟩
  · simp only [Bool.not_eq_true] at ha
    refine (Action.ensures_call_unavailable (c := .backendsByNode ..) hf ha).mpr ?_
    exact .failed (.refl w) (by simp)

end Sweep

end ConfigRegistry
