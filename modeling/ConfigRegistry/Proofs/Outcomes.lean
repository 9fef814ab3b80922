import ConfigRegistry.Proofs.Protocols

/-!
# Where an action ends

When nothing keeps its requests from being answered at once, an action ends in the turn in which
it starts. The rules here follow it step by step and give its run as an equation, so they say
alike that it succeeds, that it fails, and that a number runs out.
-/

namespace ConfigRegistry

variable {ε δ α β : Type} {n : Nat} {w u v : World}

/-! ## Worlds that answer -/

/-- No call is tampered with, and the store can be reached. -/
structure World.Responsive (w : World) : Prop where
  faults : w.faults = []
  available : w.store.available = true

namespace World.Responsive

theorem served (hw : w.Responsive) : w.served.Responsive := ⟨hw.faults, hw.available⟩

theorem ticked (hw : w.Responsive) : w.ticked.Responsive := ⟨hw.faults, hw.available⟩

theorem write (hw : w.Responsive) (t : Tables) : (w.write t).Responsive := ⟨hw.faults, hw.available⟩

end World.Responsive

theorem World.hears_accept {s u : Session} {event : String} {payload : Bytes} :
    (w.accept s event payload).hears u = w.hears u :=
  hears_of_faces (faces_modify_accepted w.peers s.serial 1) u

/-! ## Rules -/

namespace Action

/-- An action goes on in the world in which the one before it ended, unless that failed. -/
theorem run_bind {a : Action ε β} {f : β → Action ε α} :
    w.run n (a >>= f).outcome = (w.run n a.outcome).andThen fun u r =>
      match r with
      | .ok x => u.run n (f x).outcome
      | .error e => .finished u (.error e) := by
  rw [outcome_bind, World.run_bind']
  congr 1
  funext u r
  cases r <;> rfl

theorem run_bind_ok {a : Action ε β} {f : β → Action ε α} {x : β}
    (ha : w.run n a.outcome = .finished u (.ok x)) :
    w.run n (a >>= f).outcome = u.run n (f x).outcome := by
  rw [run_bind, ha]
  rfl

theorem run_bind_error {a : Action ε β} {f : β → Action ε α} {e : ε}
    (ha : w.run n a.outcome = .finished u (.error e)) :
    w.run n (a >>= f).outcome = .finished u (.error e) := by
  rw [run_bind, ha]
  rfl

theorem run_bind_overflow {a : Action ε β} {f : β → Action ε α}
    (ha : w.run n a.outcome = .overflow) : w.run n (a >>= f).outcome = .overflow := by
  rw [run_bind, ha]
  rfl

theorem run_mapError {a : Action δ α} {f : δ → ε} {r : Except δ α}
    (ha : w.run n a.outcome = .finished u r) :
    w.run n (a.mapError f).outcome = .finished u (r.mapError f) := by
  rw [outcome_mapError, World.run_bind', ha]
  rfl

theorem run_mapError_overflow {a : Action δ α} {f : δ → ε} (ha : w.run n a.outcome = .overflow) :
    w.run n (a.mapError f).outcome = .overflow := by
  rw [outcome_mapError, World.run_bind', ha]
  rfl

/-- Where an action ends, what it ensures holds. -/
theorem Ensures.of_run {a : Action ε α} {r : Except ε α}
    {post : Option (Except ε α) → World → Prop} (ha : a.Ensures n (fun _ => False) post w)
    (hrun : w.run n a.outcome = .finished v r) : post (some r) v := by
  have hends := Prog.ensures_iff.mp (ensures_iff.mp ha)
  rw [hrun] at hends
  exact hends

/-! ### Requests -/

/-- A request that cannot fail is answered at once. -/
theorem run_ask {r : Request} {reply : r.Reply} (h : w.answer n r = .now u reply) :
    w.run n (ask r : Action ε r.Reply).outcome = .finished u (.ok reply) := by
  rw [ask, outcome_lift, World.run_bind', Prog.request, World.run, h]
  rfl

theorem run_members {r : Room} :
    w.run n (ask (ε := ε) (.members r)).outcome = .finished w (.ok ((w.node n).rooms.members r)) :=
  run_ask rfl

theorem run_clock :
    w.run n (ask (ε := ε) .clock).outcome = .finished w.ticked (.ok w.reading) := run_ask rfl

theorem run_freshConfigId : w.run n (ask (ε := ε) .freshConfigId).outcome =
    .finished { w with issued := w.issued + 1 } (.ok (.nth (w.issued + 1))) := run_ask rfl

section Calls

variable {limit : Nat} {c : Store.Call} {f : StoreError → ε}

theorem run_call (hw : w.Responsive) :
    w.run n (call limit c).outcome = match w.store.serve w.reading c with
      | .ok x st => .finished { (if c.readsClock then w.ticked else w) with store := st } (.ok x)
      | .error e => .finished (if c.readsClock then w.ticked else w) (.error e)
      | .overflow => .overflow := by
  change w.run n (.ask (.store (some limit) c) .done) = _
  simp only [World.run, World.answer_store hw.faults, World.replyAfter, ↓reduceIte,
    World.perform_available c hw.available]
  cases w.store.serve w.reading c <;> rfl

theorem run_call_ok {x : c.Result} {st : Store} (hw : w.Responsive)
    (hs : w.store.serve w.reading c = .ok x st) :
    w.run n ((call limit c).mapError f).outcome =
      .finished { (if c.readsClock then w.ticked else w) with store := st } (.ok x) := by
  refine run_mapError (r := .ok x) ?_
  rw [run_call hw, hs]

/-- A store that cannot be reached does nothing. -/
theorem run_call_unreachable (hf : w.faults = []) (ha : w.store.available = false) :
    w.run n ((call limit c).mapError f).outcome =
      .finished (if c.readsClock then w.ticked else w) (.error (f .unreachable)) := by
  refine run_mapError (r := .error StoreError.unreachable) ?_
  change w.run n (.ask (.store (some limit) c) .done) = _
  simp only [World.run, World.answer_store hf, World.replyAfter, ↓reduceIte,
    World.perform_unavailable c ha, StoreError.unreachable]

theorem run_write {o : Option (c.Result × Tables)} {x : c.Result} {t : Tables} (hw : w.Responsive)
    (hs : w.store.serve w.reading c = .ofWrite w.store o) (ho : o = some (x, t)) :
    w.run n ((call limit c).mapError f).outcome =
      .finished ((if c.readsClock then w.ticked else w).write t) (.ok x) := by
  subst ho
  refine (run_call_ok hw hs).trans ?_
  cases c.readsClock <;> rfl

/-- A write for which a number runs out. -/
theorem run_write_overflow {o : Option (c.Result × Tables)} (hw : w.Responsive)
    (hs : w.store.serve w.reading c = .ofWrite w.store o) (ho : o = none) :
    w.run n ((call limit c).mapError f).outcome = .overflow := by
  subst ho
  refine run_mapError_overflow ?_
  rw [run_call hw, hs]
  rfl

end Calls

/-- A message to a recording session arrives. -/
theorem run_emit {limit : Nat} {s : Session} {event : String} {payload : Bytes}
    {f : TransportError → ε} (hs : w.hears s = true) :
    w.run n ((emit limit s event payload).mapError f).outcome =
      .finished (w.accept s event payload) (.ok ()) := by
  refine run_mapError (r := .ok ()) ?_
  change w.run n (.ask (.emit (some limit) s event payload) .done) = _
  rw [World.run, World.answer_heard n hs]
  rfl

end Action

/-! ## Steps of transitions -/

/-- The world after these variables were looked up: without any, nothing is asked. -/
def World.lookedUp (names : List String) (w : World) : World := if names.isEmpty then w else w.served

theorem World.lookedUp_eq (names : List String) (w : World) : w.lookedUp names =
    { w with store := { w.store with reads := (w.lookedUp names).store.reads } } := by
  unfold lookedUp
  split <;> rfl

@[simp] theorem World.lookedUp_live (names : List String) (w : World) :
    (w.lookedUp names).store.live = w.store.live := by
  rw [lookedUp_eq]

@[simp] theorem World.lookedUp_reading (names : List String) (w : World) :
    (w.lookedUp names).reading = w.reading := by
  rw [lookedUp_eq]
  rfl

theorem World.Responsive.lookedUp (hw : w.Responsive) (names : List String) :
    (w.lookedUp names).Responsive := by
  unfold World.lookedUp
  split
  · exact hw
  · exact hw.served

namespace Transition

variable {l : Limits} {names : List String}

theorem run_variablesOf_ok {data : Bytes} (h : Template.variableNames data = .ok names) :
    w.run n (variablesOf data).outcome = .finished w (.ok names) := by
  rw [variablesOf, h]
  rfl

theorem run_variablesOf_error {data : Bytes} {e : Template.Fault}
    (h : Template.variableNames data = .error e) :
    w.run n (variablesOf data).outcome = .finished w (.error (.template e)) := by
  rw [variablesOf, h]
  rfl

/-- Names are refused if some are missing. -/
theorem run_requireVariables (n : Nat) (l : Limits) (names : List String) (hw : w.Responsive) :
    w.run n (requireVariables l names).outcome = .finished (w.lookedUp names)
      (if w.store.live.missingVariables names = [] then .ok ()
        else .error (.missingVariables (w.store.live.missingVariables names))) := by
  unfold requireVariables World.lookedUp
  by_cases hnames : names.isEmpty
  · rw [List.isEmpty_iff.mp hnames]
    rfl
  · rw [if_neg hnames, if_neg hnames]
    refine (Action.run_bind_ok (Action.run_call_ok hw rfl)).trans ?_
    change World.run n (if (w.store.live.missingVariables names).isEmpty then _ else _ : Action _ _).outcome
      w.served = _
    by_cases hmissing : w.store.live.missingVariables names = []
    · rw [if_pos (List.isEmpty_iff.mpr hmissing), if_pos hmissing]
      rfl
    · rw [if_neg (mt List.isEmpty_iff.mp hmissing), if_neg hmissing]
      rfl

end Transition

namespace Lifecycle

variable {s : Session}

/-- A session that connected goes on as its module. -/
theorem run_identified {m : ModuleId} (hm : (w.peer s).context.moduleId = some m) :
    w.run n (identified s).outcome = .finished w (.ok m) := by
  have hcontext : w.run n (Action.ask (ε := LifecycleError) (.context s)).outcome =
      .finished w (.ok (w.peer s).context) := Action.run_ask rfl
  unfold identified
  rw [Action.run_bind_ok hcontext, hm]
  rfl

/-- A transition that succeeds has nothing to report. -/
theorem run_report_ok {a : Action LifecycleError α} {x : α}
    (ha : w.run n a.outcome = .finished v (.ok x)) :
    w.run n (report s a).outcome = .finished v (.ok x) := by
  unfold report
  change w.run n (a.outcome >>= _) = _
  rw [World.run_bind', ha]
  rfl

end Lifecycle

end ConfigRegistry
