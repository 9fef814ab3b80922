import ConfigRegistry.Proofs.Cluster
import Mathlib.Data.List.Forall2

/-!
# What the local copy cannot change

Stale reads may be served from a frozen copy of the tables. Two worlds are twins when
they differ in nothing but that copy and the number of reads served. A program that
asks for no stale read runs alike in twin worlds: request by request the answers are
the same, and what is left are twins again. The writes of a node are such programs.
-/

namespace ConfigRegistry

/-! ## Programs without stale reads -/

/-- Whether a call is a read that the local copy may serve. -/
def Store.Call.isLocal : Store.Call → Bool
  | .eventsAfter _ _ _ c | .moduleById _ c | .modules c | .backendsByModule _ c
  | .backendsByNode _ c | .allBackends c | .activeConfig _ c | .config _ c | .schema _ c
  | .missingVariables _ c | .linkedVariables _ c => c = .stale
  | _ => false

def Request.isLocal : Request → Bool
  | .store _ call => call.isLocal
  | _ => false

/-- Whatever it is replied, the program never asks for a stale read. -/
inductive Prog.Authoritative {α : Type} : Prog α → Prop
  | done (x : α) : Authoritative (.done x)
  | ask {r : Request} {next : r.Reply → Prog α} (hr : r.isLocal = false)
      (hnext : ∀ reply, (next reply).Authoritative) : Authoritative (.ask r next)

def Action.Authoritative {ε α : Type} (a : Action ε α) : Prop := Prog.Authoritative a.outcome

namespace Prog.Authoritative

variable {α β : Type}

theorem pure (x : α) : (Pure.pure x : Prog α).Authoritative := .done x

theorem request {r : Request} (hr : r.isLocal = false) : (Prog.request r).Authoritative :=
  .ask hr .done

theorem bind {p : Prog α} {f : α → Prog β} (hp : p.Authoritative) (hf : ∀ x, (f x).Authoritative) :
    (p >>= f).Authoritative := by
  change (p.bind f).Authoritative
  induction hp with
  | done x => exact hf x
  | ask hr _ ih => exact .ask hr ih

end Prog.Authoritative

namespace Action.Authoritative

variable {ε δ α β : Type}

theorem pure (x : α) : (Pure.pure x : Action ε α).Authoritative := .done _

theorem throw (e : ε) : (MonadExcept.throw e : Action ε α).Authoritative := .done _

theorem bind {a : Action ε β} {f : β → Action ε α} (ha : a.Authoritative)
    (hf : ∀ x, (f x).Authoritative) : (a >>= f).Authoritative := by
  unfold Action.Authoritative
  rw [Action.outcome_bind]
  refine Prog.Authoritative.bind ha fun r => ?_
  cases r with
  | ok x => exact hf x
  | error e => exact .pure _

/-- Nothing follows an error. -/
theorem refused (e : ε) (f : β → Action ε α) :
    ((MonadExcept.throw e : Action ε β) >>= f).Authoritative := .done _

theorem mapError {a : Action δ α} (f : δ → ε) (ha : a.Authoritative) :
    (a.mapError f).Authoritative := by
  unfold Action.Authoritative
  rw [Action.outcome_mapError]
  exact Prog.Authoritative.bind ha fun r => .pure _

theorem lift {p : Prog α} (hp : p.Authoritative) :
    (ExceptT.lift p : Action ε α).Authoritative := by
  change (Action.outcome (ε := ε) (ExceptT.lift p)).Authoritative
  rw [Action.outcome_lift]
  exact Prog.Authoritative.bind hp fun x => .pure _

theorem ask {r : Request} (hr : r.isLocal = false) : (Action.ask r : Action ε r.Reply).Authoritative :=
  lift (.request hr)

theorem call {limit : Nat} {c : Store.Call} (hc : c.isLocal = false) :
    (Action.call limit c).Authoritative := Prog.Authoritative.request hc

theorem emit (limit : Nat) (s : Session) (event : String) (payload : Bytes) :
    (Action.emit limit s event payload).Authoritative := Prog.Authoritative.request rfl

theorem ofExcept (r : Except ε α) : (MonadExcept.ofExcept r : Action ε α).Authoritative := by
  cases r with
  | ok x => exact .pure x
  | error e => exact .throw e

end Action.Authoritative

/-! ## The writes of a node -/

section Writes

open ConfigRegistry.Action (Authoritative)

variable {l : Limits} {p : Lifecycle.Place} {s : Session}

namespace Transition

theorem authoritative_call {c : Store.Call} (hc : c.isLocal = false) :
    (call l c).Authoritative := .mapError _ (.call hc)

theorem authoritative_variablesOf (data : Bytes) : (variablesOf data).Authoritative := by
  unfold variablesOf
  cases Template.variableNames data with
  | ok names => exact .pure names
  | error e => exact .throw _

theorem authoritative_requireVariables (names : List String) :
    (requireVariables l names).Authoritative := by
  unfold requireVariables
  split
  · exact .pure ()
  · refine .bind (authoritative_call rfl) fun missing => ?_
    split
    · exact .pure ()
    · exact .throw _

end Transition

namespace Lifecycle

open Transition

theorem authoritative_report {α : Type} {a : Action LifecycleError α} (ha : a.Authoritative) :
    (report s a).Authoritative := by
  refine Prog.Authoritative.bind ha fun r => ?_
  cases r with
  | ok x => exact .pure _
  | error e =>
    change Prog.Authoritative (if e.isDataIntegrity then _ else _)
    split
    · exact Prog.Authoritative.bind (.request rfl) fun _ => .pure _
    · exact .pure _

theorem authoritative_identified : (identified s).Authoritative := by
  refine .bind (.ask rfl) fun c => ?_
  cases c.moduleId with
  | some m => exact .pure m
  | none => exact .throw _

theorem authoritative_moduleName : (moduleName s).Authoritative := .bind (.ask rfl) fun _ => .pure _

theorem authoritative_onConnect (name : String) : (onConnect p s name).Authoritative := by
  refine authoritative_report ?_
  unfold connectSteps
  dsimp only
  split
  · exact .refused _ _
  · refine .bind (.ask rfl) fun now => ?_
    refine .bind (authoritative_call rfl) fun _ => ?_
    exact .bind (.ask rfl) fun _ => .ask rfl

theorem authoritative_onReady (d : BackendDeclaration) : (onReady p s d).Authoritative := by
  refine authoritative_report ?_
  refine .bind authoritative_identified fun m => ?_
  split
  · exact .refused _ _
  · refine .bind authoritative_moduleName fun name => ?_
    refine .bind (.ask rfl) fun now => ?_
    refine .bind (authoritative_call rfl) fun _ => ?_
    refine .bind (authoritative_call rfl) fun _ => ?_
    exact .bind (.ask rfl) fun _ => .pure _

theorem authoritative_createConfig (m : ModuleId) (name : String) (data : Bytes) :
    (createConfig l m name data).Authoritative := by
  refine .bind (authoritative_variablesOf data) fun names => ?_
  refine .bind (authoritative_requireVariables names) fun _ => ?_
  refine .bind (.ask rfl) fun now => ?_
  refine .bind (.ask rfl) fun id => ?_
  refine .bind (authoritative_call rfl) fun _ => ?_
  exact .bind (authoritative_call rfl) fun _ => .pure _

/-- The first config is the one just read or written, not one that the local copy shows. -/
theorem authoritative_onConfigSchema (d : ConfigSchemaDeclaration) :
    (onConfigSchema p s d).Authoritative := by
  have hsend : ∀ c, ((Notification.subscribeWith p.limits s c).mapError
      LifecycleError.notify).Authoritative := by
    intro c
    refine .mapError _ (.bind (.mapError _ (.emit _ _ _ _)) fun _ => ?_)
    exact .bind (.ask rfl) fun _ => .pure _
  refine authoritative_report ?_
  refine .bind authoritative_identified fun m => ?_
  refine .bind (.ask rfl) fun now => ?_
  refine .bind (authoritative_call rfl) fun _ => ?_
  refine .bind (authoritative_call rfl) fun found => ?_
  cases found with
  | some c => exact .bind (.pure c) hsend
  | none =>
    refine .bind authoritative_moduleName fun name => ?_
    exact .bind (authoritative_createConfig _ _ _) hsend

theorem authoritative_deregister (b : Backend) : (deregister l b).Authoritative := by
  refine .bind (authoritative_call rfl) fun _ => ?_
  exact .bind (authoritative_call rfl) fun _ => .pure _

theorem authoritative_onDisconnect : (onDisconnect p s).Authoritative := by
  refine .bind (.ask rfl) fun _ => .bind (.ask rfl) fun c => ?_
  refine .bind (.lift ?_) fun marked => .bind (.lift ?_) fun deregistered => .ofExcept _
  · cases c.moduleId with
    | none => exact Authoritative.pure ()
    | some m => exact Authoritative.bind (.ask rfl) fun now => authoritative_call rfl
  · refine Authoritative.bind (.ask rfl) fun held => ?_
    cases held with
    | none => exact .pure ()
    | some b => exact authoritative_deregister b

end Lifecycle

namespace ConfigWrite

open Transition

theorem authoritative_announce (m : ModuleId) : (announce l m).Authoritative :=
  .bind (authoritative_call rfl) fun _ => .pure _

theorem authoritative_updateActive (m : ModuleId) (data : Bytes) :
    (updateActive l m data).Authoritative := by
  refine .bind (authoritative_call rfl) fun found => ?_
  cases found with
  | none => exact .throw _
  | some active =>
    refine .bind (authoritative_variablesOf data) fun names => ?_
    refine .bind (authoritative_requireVariables names) fun _ => ?_
    refine .bind (authoritative_call rfl) fun updated => ?_
    refine .bind (authoritative_call rfl) fun _ => ?_
    exact .bind (authoritative_announce m) fun _ => .pure _

theorem authoritative_activate (id : ConfigId) : (activate l id).Authoritative := by
  refine .bind (authoritative_call rfl) fun c => ?_
  exact .bind (authoritative_announce _) fun _ => .pure _

end ConfigWrite

namespace Sweep

theorem authoritative_call {c : Store.Call} (hc : c.isLocal = false) :
    (call l c).Authoritative := .mapError _ (.call hc)

theorem authoritative_remove (checked : Nat) (bs : List Backend) :
    (remove l checked bs).Authoritative := by
  unfold remove
  split
  · exact .pure _
  · refine .bind (authoritative_call rfl) fun deleted => ?_
    exact .bind (authoritative_call rfl) fun _ => .pure _

theorem authoritative_clearPhantoms (node : NodeId) : (clearPhantoms node l).Authoritative := by
  refine .bind (authoritative_call rfl) fun owned => ?_
  exact .bind (.ask rfl) fun connected => authoritative_remove _ _

theorem authoritative_deleteOwn (node : NodeId) : (deleteOwn node l).Authoritative :=
  .bind (authoritative_call rfl) fun _ => authoritative_remove _ _

end Sweep

theorem Retention.authoritative_eventsAt (ttl : Duration) (now : Timestamp) :
    (Retention.eventsAt l ttl now).Authoritative := by
  refine .bind (.ask rfl) fun leading => ?_
  split
  · exact .pure _
  · split
    · exact .bind (.ask rfl) fun never => nomatch never
    · exact .bind (Sweep.authoritative_call rfl) fun _ => .pure _

end Writes

/-! ## Twin worlds -/

namespace World

/-- The worlds differ in nothing but what the local copy shows and how many reads were served. -/
def Twin (w v : World) : Prop :=
  ∃ frozen reads, v = { w with store := { w.store with frozen := frozen, reads := reads } }

variable {w v : World}

theorem Twin.setTime (h : w.Twin v) (t : Nat) : Twin { w with time := t } { v with time := t } := by
  obtain ⟨frozen, reads, rfl⟩ := h
  exact ⟨frozen, reads, rfl⟩

theorem Twin.time (h : w.Twin v) : v.time = w.time := by
  obtain ⟨frozen, reads, rfl⟩ := h
  rfl

end World

/-- Both outcomes are the same, but for the local copy and the number of reads. -/
inductive Store.Outcome.Alike {α : Type} : Store.Outcome α → Store.Outcome α → Prop
  | ok (x : α) (s : Store) (frozen : Option Tables) (reads : Nat) :
      Alike (.ok x s) (.ok x { s with frozen := frozen, reads := reads })
  | error (e : StoreError) : Alike (.error e) (.error e)
  | overflow : Alike .overflow .overflow

theorem Store.ofWrite_alike {α : Type} (s : Store) (frozen : Option Tables) (reads : Nat)
    (o : Option (α × Tables)) :
    (Store.Outcome.ofWrite s o).Alike
      (Store.Outcome.ofWrite { s with frozen := frozen, reads := reads } o) := by
  cases o with
  | none => exact .overflow
  | some x => exact .ok x.1 { s with live := x.2 } frozen reads

theorem Store.view_authoritative {c : Consistency} (hc : c ≠ .stale) (s : Store) :
    s.view c = s.live := by
  cases c with
  | stale => exact absurd rfl hc
  | weak => rfl
  | strong => rfl

/-- A call that is no stale read is served from the live tables. -/
theorem Store.serve_alike {c : Store.Call} (hc : c.isLocal = false) (now : Timestamp) (s : Store)
    (frozen : Option Tables) (reads : Nat) :
    (s.serve now c).Alike ({ s with frozen := frozen, reads := reads }.serve now c) := by
  have hread : ∀ {α : Type} (x : α), (Store.Outcome.ok x { s with reads := s.reads + 1 }).Alike
      (.ok x { s with frozen := frozen, reads := reads + 1 }) :=
    fun x => .ok x { s with reads := s.reads + 1 } frozen (reads + 1)
  cases c with
  | eventsAfter _ _ _ k | moduleById _ k | modules k | backendsByModule _ k | backendsByNode _ k
    | allBackends k | activeConfig _ k | config _ k | schema _ k | missingVariables _ k
    | linkedVariables _ k =>
    have hk : k ≠ .stale := by simpa [Store.Call.isLocal] using hc
    simp only [Store.serve, Store.view_authoritative hk]
    exact hread _
  | updateConfigData id data | activateConfig id =>
    simp only [Store.serve]
    cases hrow : s.live.config id with
    | none => exact .error _
    | some row => exact Store.ofWrite_alike ..
  | _ =>
    simp only [Store.serve]
    exact Store.ofWrite_alike ..

theorem Store.answer_alike {c : Store.Call} (hc : c.isLocal = false) (now : Timestamp) (s : Store)
    (frozen : Option Tables) (reads : Nat) :
    (s.answer now c).Alike ({ s with frozen := frozen, reads := reads }.answer now c) := by
  unfold Store.answer
  by_cases ha : s.available
  · rw [if_pos ha, if_pos (by exact ha)]
    exact Store.serve_alike hc now s frozen reads
  · rw [if_neg ha, if_neg (by exact ha)]
    exact .error _

/-! ## Runs in twin worlds -/

open World (Progress)

/-- Both are missing, or both are there and the same, with worlds that are twins. -/
inductive World.Paired {β : Type} : Option (World × β) → Option (World × β) → Prop
  | none : Paired none none
  | some {w v : World} (h : w.Twin v) (x : β) : Paired (some (w, x)) (some (v, x))

inductive Answer.Alike {β : Type} : Answer β → Answer β → Prop
  | now {w v : World} (h : w.Twin v) (reply : β) : Alike (.now w reply) (.now v reply)
  | later {w v : World} (h : w.Twin v) (due : Nat) {f g : World → Option (World × β)}
      (hfg : ∀ w v, w.Twin v → World.Paired (f w) (g v)) : Alike (.later w due f) (.later v due g)
  | never {w v : World} (h : w.Twin v) : Alike (.never w) (.never v)
  | overflow : Alike .overflow .overflow

/-- Both programs got equally far. What waits goes on alike in all worlds that are twins. -/
inductive World.Progress.Alike {α : Type} : Progress α → Progress α → Prop
  | finished {w v : World} (h : w.Twin v) (x : α) : Alike (.finished w x) (.finished v x)
  | waiting {w v : World} (h : w.Twin v) (due : Nat) {f g : World → Progress α}
      (hfg : ∀ w v, w.Twin v → (f w).Alike (g v)) : Alike (.waiting w due f) (.waiting v due g)
  | stuck {w v : World} (h : w.Twin v) : Alike (.stuck w) (.stuck v)
  | overflow : Alike .overflow .overflow

namespace World

variable {w v : World} {α β : Type}

theorem perform_paired {call : Store.Call} (hc : call.isLocal = false) (h : w.Twin v) :
    Paired (w.perform call) (v.perform call) := by
  obtain ⟨frozen, reads, rfl⟩ := h
  have hanswer := Store.answer_alike hc w.reading w.store frozen reads
  rw [perform_of_answer rfl]
  generalize ho : w.store.answer w.reading call = o at hanswer
  generalize ho' : Store.answer w.reading { w.store with frozen := frozen, reads := reads } call = o'
    at hanswer
  rw [perform_of_answer (w := { w with store := { w.store with frozen := frozen, reads := reads } }) ho']
  have hticked : Twin (if call.readsClock then w.ticked else w)
      (if call.readsClock then
        World.ticked { w with store := { w.store with frozen := frozen, reads := reads } }
      else { w with store := { w.store with frozen := frozen, reads := reads } }) := by
    split <;> exact ⟨frozen, reads, rfl⟩
  cases hanswer with
  | ok x s frozen' reads' =>
    obtain ⟨f, r, hv⟩ := hticked
    rw [hv]
    exact .some ⟨frozen', reads', rfl⟩ _
  | error e => exact .some hticked _
  | overflow => exact .none

theorem replyAfter_alike {f g : World → Option (World × β)} (h : w.Twin v) (ms : Nat)
    (hfg : ∀ w v, w.Twin v → Paired (f w) (g v)) :
    (w.replyAfter ms f).Alike (v.replyAfter ms g) := by
  unfold replyAfter
  split
  · have hnow := hfg w v h
    generalize f w = o at hnow
    generalize g v = o' at hnow
    cases hnow with
    | none => exact .overflow
    | some h x => exact .now h x
  · rw [h.time]
    exact .later h _ hfg

theorem replyRace_alike {f g : World → Option (World × β)} (h : w.Twin v) (r : Race)
    (hfg : ∀ w v, w.Twin v → Paired (f w) (g v)) (expired : Nat → β) :
    (w.replyRace r f expired).Alike (v.replyRace r g expired) := by
  cases r with
  | completes ms => exact replyAfter_alike h ms hfg
  | expires ms => exact replyAfter_alike h ms fun w v h => .some h _
  | never => exact .never h

theorem callStore_alike {call : Store.Call} (hc : call.isLocal = false) (limit : Option Nat)
    (h : w.Twin v) : (w.callStore limit call).Alike (v.callStore limit call) := by
  have hcall : ∀ w v : World, w.Twin v → Paired (w.perform call) (v.perform call) :=
    fun w v h => perform_paired hc h
  have hfault : (v.takeFault call.name).1 = (w.takeFault call.name).1 ∧
      (w.takeFault call.name).2.Twin (v.takeFault call.name).2 := by
    obtain ⟨frozen, reads, rfl⟩ := h
    simp only [takeFault]
    generalize Table.find? Prod.fst call.name w.faults = found
    rcases found with _ | ⟨_, _ | ⟨fault, rest⟩⟩ <;> exact ⟨rfl, frozen, reads, rfl⟩
  obtain ⟨hsame, htwin⟩ := hfault
  unfold callStore
  generalize w.takeFault call.name = taken at hsame htwin
  generalize v.takeFault call.name = taken' at hsame htwin
  obtain ⟨fault, w₁⟩ := taken
  obtain ⟨fault', v₁⟩ := taken'
  obtain rfl : fault' = fault := hsame
  cases fault' with
  | pass => exact replyAfter_alike htwin 0 hcall
  | fail e => exact .now htwin _
  | delay ms => exact replyRace_alike htwin _ hcall _
  | hang => exact replyRace_alike htwin _ hcall _
  | lost =>
    have hdone := hcall w₁ v₁ htwin
    simp only
    generalize w₁.perform call = o at hdone
    generalize v₁.perform call = o' at hdone
    cases hdone with
    | none => exact .overflow
    | some h x => exact replyRace_alike h _ hcall _

theorem sendTo_alike (limit : Option Nat) (s : Session) (event : String) (payload : Bytes)
    (h : w.Twin v) : (w.sendTo limit s event payload).Alike (v.sendTo limit s event payload) := by
  have hdone : ∀ w v : World, w.Twin v →
      Paired (some (w.accept s event payload, (.ok () : Except TransportError Unit)))
        (some (v.accept s event payload, .ok ())) := by
    rintro w v ⟨frozen, reads, rfl⟩
    exact .some ⟨frozen, reads, rfl⟩ _
  have hpeer : v.peer s = w.peer s := by
    obtain ⟨frozen, reads, rfl⟩ := h
    rfl
  unfold sendTo
  rw [hpeer]
  cases (w.peer s).behaviour with
  | record => exact replyAfter_alike h 0 hdone
  | closed => exact .now h _
  | hang => exact replyRace_alike h _ hdone _
  | slow ms => exact replyRace_alike h _ hdone _
  | failAfter k =>
    simp only
    split
    · exact replyAfter_alike h 0 hdone
    · exact .now h _

theorem answer_alike {r : Request} (hr : r.isLocal = false) (n : Nat) (h : w.Twin v) :
    (w.answer n r).Alike (v.answer n r) := by
  cases r with
  | store limit call => exact callStore_alike hr limit h
  | emit limit s event payload => exact sendTo_alike limit s event payload h
  | overflow => exact .overflow
  | _ =>
    obtain ⟨frozen, reads, rfl⟩ := h
    exact .now ⟨frozen, reads, rfl⟩ _

/-- A program without stale reads gets equally far in twin worlds. -/
theorem run_alike {p : Prog α} (hp : p.Authoritative) (n : Nat) (h : w.Twin v) :
    (w.run n p).Alike (v.run n p) := by
  induction hp generalizing w v with
  | done x => exact .finished h x
  | @ask r next hr _ ih =>
    have hanswer := answer_alike hr n h
    simp only [run]
    generalize w.answer n r = a at hanswer
    generalize v.answer n r = a' at hanswer
    cases hanswer with
    | now h reply => exact ih reply h
    | @later w v h due f g hfg =>
      refine .waiting h due fun w v h => ?_
      have hreply := hfg w v h
      generalize f w = o at hreply
      generalize g v = o' at hreply
      cases hreply with
      | none => exact .overflow
      | some h x => exact ih x h
    | never h => exact .stuck h
    | overflow => exact .overflow

end World

/-! ## Steps in twin simulations -/

/-- Both wait for the same time, and then send a message alike. -/
inductive Sleeper.Alike : Sleeper → Sleeper → Prop
  | sending (due : Nat) {f g : World → Progress Unit}
      (hfg : ∀ w v, w.Twin v → (f w).Alike (g v)) : Alike ⟨due, .sending f⟩ ⟨due, .sending g⟩

namespace Simulation

/-- The worlds are twins, and what waits in the background are messages that are sent alike. -/
structure Twin (s t : Simulation) : Prop where
  world : s.world.Twin t.world
  sleepers : List.Forall₂ Sleeper.Alike s.sleepers t.sleepers

variable {w v : World} {s t : Simulation} {xs ys : List Sleeper}

theorem due_eq (h : List.Forall₂ Sleeper.Alike xs ys) : xs.map (·.due) = ys.map (·.due) := by
  induction h with
  | nil => rfl
  | cons hx _ ih =>
    cases hx with
    | sending due _ => exact congrArg (due :: ·) ih

theorem filter_alike (f : Nat → Bool) (h : List.Forall₂ Sleeper.Alike xs ys) :
    List.Forall₂ Sleeper.Alike (xs.filter fun x => f x.due) (ys.filter fun y => f y.due) := by
  induction h with
  | nil => exact .nil
  | cons hx _ ih =>
    cases hx with
    | sending due hfg =>
      simp only [List.filter_cons]
      split
      · exact .cons (.sending due hfg) ih
      · exact ih

theorem append_alike {xs' ys' : List Sleeper} (h : List.Forall₂ Sleeper.Alike xs ys)
    (h' : List.Forall₂ Sleeper.Alike xs' ys') :
    List.Forall₂ Sleeper.Alike (xs ++ xs') (ys ++ ys') := List.rel_append h h'

theorem settleSending_alike {p q : Progress Unit} (hpq : p.Alike q) (h : w.Twin v) :
    (settleSending p w).1.Twin (settleSending q v).1 ∧
      List.Forall₂ Sleeper.Alike (settleSending p w).2.toList (settleSending q v).2.toList := by
  cases hpq with
  | finished h x => exact ⟨h, .nil⟩
  | waiting h due hfg => exact ⟨h, .cons (.sending due hfg) .nil⟩
  | stuck h => exact ⟨h, .nil⟩
  | overflow => exact ⟨h, .nil⟩

theorem wakeAll_alike (hxs : List.Forall₂ Sleeper.Alike xs ys) (h : w.Twin v) :
    (wakeAll xs w).1.Twin (wakeAll ys v).1 ∧
      List.Forall₂ Sleeper.Alike (wakeAll xs w).2 (wakeAll ys v).2 := by
  induction hxs generalizing w v with
  | nil => exact ⟨h, .nil⟩
  | cons hx _ ih =>
    cases hx with
    | sending due hfg =>
      obtain ⟨hworld, hagain⟩ := settleSending_alike (hfg w v h) h
      obtain ⟨hworld', hmore⟩ := ih hworld
      exact ⟨hworld', append_alike hagain hmore⟩

theorem sendAll_alike (ms : List Notice) (h : w.Twin v) :
    (sendAll ms w).1.Twin (sendAll ms v).1 ∧
      List.Forall₂ Sleeper.Alike (sendAll ms w).2 (sendAll ms v).2 := by
  induction ms generalizing w v with
  | nil => exact ⟨h, .nil⟩
  | cons m rest ih =>
    have hprogram : (Notice.program m).Authoritative :=
      .bind (.request rfl) fun _ => .pure ()
    obtain ⟨hworld, hwaits⟩ := settleSending_alike (World.run_alike hprogram 0 h) h
    obtain ⟨hworld', hmore⟩ := ih hworld
    exact ⟨hworld', append_alike hwaits hmore⟩

theorem Twin.settle (h : s.Twin t) : s.settle.Twin t.settle := by
  obtain ⟨w, xs⟩ := s
  obtain ⟨v, ys⟩ := t
  obtain ⟨hworld, hsleepers⟩ := h
  simp only at hworld hsleepers
  have htime := hworld.time
  simp only [Simulation.settle, htime]
  obtain ⟨hwoken, hagain⟩ := wakeAll_alike
    (filter_alike (fun due => decide (due ≤ w.time)) hsleepers) hworld
  have hlater := filter_alike (fun due => !decide (due ≤ w.time)) hsleepers
  generalize wakeAll (xs.filter fun x => decide (x.due ≤ w.time)) w = woken at hwoken hagain
  generalize wakeAll (ys.filter fun y => decide (y.due ≤ w.time)) v = woken' at hwoken hagain
  obtain ⟨w₁, again⟩ := woken
  obtain ⟨v₁, again'⟩ := woken'
  obtain ⟨frozen, reads, hv₁⟩ := hwoken
  simp only at hv₁ hagain
  subst hv₁
  obtain ⟨hsent, hsending⟩ := sendAll_alike w₁.outbox
    (w := { w₁ with outbox := [] }) ⟨frozen, reads, rfl⟩
  exact ⟨hsent, append_alike (append_alike hlater hagain) hsending⟩

theorem Twin.setTime (h : s.Twin t) (time : Nat) : (s.setTime time).Twin (t.setTime time) :=
  ⟨h.world.setTime time, h.sleepers⟩

theorem Twin.passTime (h : s.Twin t) (k target : Nat) :
    (passTime k target s).Twin (passTime k target t) := by
  induction k generalizing s t with
  | zero => exact h.setTime target
  | succ k ih =>
    have hearliest : t.settle.earliest? = s.settle.earliest? :=
      congrArg List.min? (due_eq h.settle.sleepers).symm
    simp only [Simulation.passTime, hearliest]
    cases s.settle.earliest? with
    | none => exact h.settle.setTime target
    | some due =>
      simp only
      split
      · exact ih (h.settle.setTime due)
      · exact h.settle.setTime target

theorem Twin.waitUntil (h : s.Twin t) (target : Nat) :
    (s.waitUntil target).Twin (t.waitUntil target) := by
  unfold Simulation.waitUntil
  rw [h.world.time]
  split
  · exact h.passTime _ target
  · exact h

theorem drive_alike {α : Type} (limit : Nat) {p q : Progress α} (hpq : p.Alike q) (h : s.Twin t) :
    (drive limit p s).2 = (drive limit q t).2 ∧ (drive limit p s).1.Twin (drive limit q t).1 := by
  induction hpq generalizing s t with
  | finished hw x => exact ⟨rfl, hw, h.sleepers⟩
  | @waiting w v hw due f g hfg ih =>
    have hwait : Twin { s with world := w } { t with world := v } := ⟨hw, h.sleepers⟩
    simp only [drive]
    split
    · exact ih _ _ (hwait.waitUntil due).world (hwait.waitUntil due)
    · exact ⟨rfl, hwait.waitUntil limit⟩
  | @stuck w v hw =>
    have hwait : Twin { s with world := w } { t with world := v } := ⟨hw, h.sleepers⟩
    exact ⟨rfl, hwait.waitUntil limit⟩
  | overflow => exact ⟨rfl, h⟩

/-- A program without stale reads ends the same way in twin simulations and leaves them twins. -/
theorem perform_alike {α : Type} {p : Prog α} (hp : p.Authoritative) (n : Nat) (h : s.Twin t) :
    (s.perform n p).2 = (t.perform n p).2 ∧ (s.perform n p).1.Twin (t.perform n p).1 := by
  obtain ⟨hfinish, htwin⟩ := drive_alike (s.world.time + patience)
    (World.run_alike hp n h.world) h
  unfold perform
  rw [h.world.time]
  exact ⟨hfinish, htwin.settle⟩

/-- Run in two simulations, a program ends the same way and leaves twins. -/
def Agree {α : Type} (s t : Simulation) (n : Nat) (p : Prog α) : Prop :=
  (s.perform n p).2 = (t.perform n p).2 ∧ (s.perform n p).1.Twin (t.perform n p).1

/-- What a node writes does not depend on what stale reads show: in simulations that differ in
nothing but the local copy and the number of reads, and whatever befalls the calls, every write ends
the same way and leaves the same messages, live tables, sessions and rooms. -/
theorem writes_ignore_local_copy (h : s.Twin t) (n : Nat) (place : Lifecycle.Place) (x : Session)
    (l : Limits) :
    (∀ name, Agree s t n (Lifecycle.onConnect place x name).outcome) ∧
    (∀ d, Agree s t n (Lifecycle.onReady place x d).outcome) ∧
    (∀ d, Agree s t n (Lifecycle.onConfigSchema place x d).outcome) ∧
    Agree s t n (Lifecycle.onDisconnect place x).outcome ∧
    (∀ m data, Agree s t n (ConfigWrite.updateActive l m data).outcome) ∧
    (∀ id, Agree s t n (ConfigWrite.activate l id).outcome) ∧
    (∀ node, Agree s t n (Sweep.clearPhantoms node l).outcome) ∧
    (∀ node, Agree s t n (Sweep.deleteOwn node l).outcome) ∧
    ∀ ttl now, Agree s t n (Retention.eventsAt l ttl now).outcome := by
  refine ⟨fun name => ?connect, fun d => ?ready, fun d => ?schema, ?disconnect, fun m data => ?update,
    fun id => ?activate, fun node => ?clear, fun node => ?leave, fun ttl now => ?retain⟩
  case connect => exact perform_alike (Lifecycle.authoritative_onConnect name) n h
  case ready => exact perform_alike (Lifecycle.authoritative_onReady d) n h
  case schema => exact perform_alike (Lifecycle.authoritative_onConfigSchema d) n h
  case disconnect => exact perform_alike Lifecycle.authoritative_onDisconnect n h
  case update => exact perform_alike (ConfigWrite.authoritative_updateActive m data) n h
  case activate => exact perform_alike (ConfigWrite.authoritative_activate id) n h
  case clear => exact perform_alike (Sweep.authoritative_clearPhantoms node) n h
  case leave => exact perform_alike (Sweep.authoritative_deleteOwn node) n h
  case retain => exact perform_alike (Retention.authoritative_eventsAt ttl now) n h

/-- A config of module `a` was stored while the local replica lags behind. -/
def lagging : Simulation :=
  let c₀ := Cluster.start [⟨⟨"n1"⟩, ⟨2000, 2000⟩, ⟨100, .oldestFirst⟩⟩] default
  let c₁ := (c₀.apply (.connect 0 ⟨"c1"⟩ .record "a")).1
  let c₂ := (c₁.apply .lag).1
  (c₂.apply (.call (.insertConfig ⟨default, ModuleId.ofName "a", "a", [0x7B, 0x7D], 1, true, default,
    default⟩))).1.sim

/-- The same with a replica that has caught up. -/
def caughtUp : Simulation :=
  { lagging with world := { lagging.world with store := lagging.world.store.catchUp } }

/-- The module is sent its config either way. -/
theorem schema_ignores_lag :
    (lagging.world.store.view .stale).activeConfig (ModuleId.ofName "a") = none ∧
    (caughtUp.world.store.view .stale).activeConfig (ModuleId.ofName "a") ≠ none ∧
    let p := (Lifecycle.onConfigSchema ⟨⟨"n1"⟩, ⟨2000, 2000⟩⟩ ⟨0, ⟨"c1"⟩⟩
      ⟨"1", .object [], .object []⟩).outcome
    (lagging.perform 0 p).1.world.deliveries = [⟨⟨0, ⟨"c1"⟩⟩, Notification.configMessage, [0x7B, 0x7D]⟩] ∧
      Agree lagging caughtUp 0 p := by
  have hstates : (lagging.world.store.view .stale).activeConfig (ModuleId.ofName "a") = none ∧
      (caughtUp.world.store.view .stale).activeConfig (ModuleId.ofName "a") ≠ none ∧
      (lagging.perform 0 (Lifecycle.onConfigSchema ⟨⟨"n1"⟩, ⟨2000, 2000⟩⟩ ⟨0, ⟨"c1"⟩⟩
        ⟨"1", .object [], .object []⟩).outcome).1.world.deliveries =
          [⟨⟨0, ⟨"c1"⟩⟩, Notification.configMessage, [0x7B, 0x7D]⟩] ∧
      lagging.sleepers.isEmpty = true := by
    decide +kernel
  obtain ⟨hlagging, hcaught, hsent, hidle⟩ := hstates
  have hsleepers : List.Forall₂ Sleeper.Alike lagging.sleepers caughtUp.sleepers := by
    have hnone : lagging.sleepers = [] := List.isEmpty_iff.mp hidle
    have hsame : caughtUp.sleepers = lagging.sleepers := rfl
    rw [hsame, hnone]
    exact .nil
  have htwin : lagging.Twin caughtUp := ⟨⟨none, lagging.world.store.reads, rfl⟩, hsleepers⟩
  exact ⟨hlagging, hcaught, hsent, (writes_ignore_local_copy htwin 0 _ _ default).2.2.1 _⟩

end Simulation

end ConfigRegistry
