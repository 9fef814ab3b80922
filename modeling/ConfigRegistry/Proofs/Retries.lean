import ConfigRegistry.Proofs.Failures
import ConfigRegistry.Proofs.Presence
import ConfigRegistry.Proofs.Snapshots

/-!
# Removing backends under failing calls

A sweep or a disconnect deletes rows and then announces that they went away, in two calls to
the store. Either may fail for the time being, and the operation is repeated until it returns
without an error. What an attempt finds to withdraw (`Withdrawal.targets`) is gone once the
rows are deleted, so it is this one attempt that announces them or nobody does.
-/

namespace ConfigRegistry

open World (Progress)

variable {n : Nat} {w v : World}

namespace World

/-! ## Calls that fail for the time being -/

/-- Each call of the store takes effect, or fails for the time being without one, in any pattern. -/
def Flaky (w : World) : Prop :=
  ∀ plan ∈ w.faults, ∀ f ∈ plan.2, f = .pass ∨ ∃ e : StoreError, f = .fail e ∧ e.isTransient = true

/-- What befalls the next call of a name. -/
def fate (name : String) (w : World) : Fault :=
  match Table.find? Prod.fst name w.faults with
  | some (_, f :: _) => f
  | _ => .pass

/-- What is left to befall calls after the next one of a name. -/
def spared (name : String) (w : World) : List (String × List Fault) :=
  match Table.find? Prod.fst name w.faults with
  | some (_, _ :: rest) => Table.put Prod.fst (name, rest) w.faults
  | _ => w.faults

theorem takeFault_eq (name : String) (w : World) :
    w.takeFault name = (w.fate name, { w with faults := w.spared name }) := by
  unfold takeFault fate spared
  rcases Table.find? Prod.fst name w.faults with _ | ⟨_, _ | _⟩ <;> rfl

theorem fate_cases (hw : w.Flaky) (name : String) :
    w.fate name = .pass ∨ ∃ e : StoreError, w.fate name = .fail e ∧ e.isTransient = true := by
  unfold fate
  split
  case h_1 f rest hfind => exact hw _ (List.mem_of_find?_eq_some hfind) f List.mem_cons_self
  case h_2 => exact .inl rfl

theorem flaky_spared (hw : w.Flaky) (name : String) (hv : v.faults = w.spared name) : v.Flaky := by
  unfold Flaky
  rw [hv, spared]
  split
  case h_1 f rest hfind =>
    intro plan hplan g hg
    rcases Table.mem_put.mp hplan with ⟨hplan, -⟩ | rfl
    · exact hw plan hplan g hg
    · exact hw _ (List.mem_of_find?_eq_some hfind) g (List.mem_cons_of_mem f hg)
  case h_2 => exact hw

/-- A call does not change what befalls calls of other names. -/
theorem fate_spared {name other : String} (hne : other ≠ name) (hv : v.faults = w.spared name) :
    v.fate other = w.fate other := by
  have hfind : Table.find? Prod.fst other (w.spared name) = Table.find? Prod.fst other w.faults := by
    unfold spared
    split
    case h_1 f rest _ => exact Table.find?_put_ne hne
    case h_2 => rfl
  unfold fate
  rw [hv, hfind]

/-- The world behind a call of a name: a fault is used up, and the clock may have been read. -/
def behind (name : String) (readings : Nat) (w : World) : World :=
  { w with faults := w.spared name, readings := readings }

theorem flaky_behind (hw : w.Flaky) (name : String) (readings : Nat) : (w.behind name readings).Flaky :=
  flaky_spared hw name rfl

/-- What a call comes to: an error that leaves all as it was but the clock and the faults to come,
or its answer, when it is let through to a store that can be reached. -/
inductive Called (w : World) (c : Store.Call) : Except StoreError c.Result → World → Prop
  | refused (e : StoreError) (readings : Nat)
      (hwhy : w.fate c.name = .pass → w.store.available = false) :
      Called w c (.error e) (w.behind c.name readings)
  | answered {x : c.Result} {st : Store} (hpass : w.fate c.name = .pass)
      (ha : w.store.available = true) (hserve : w.store.serve w.reading c = .ok x st) (readings : Nat) :
      Called w c (.ok x) { w.behind c.name readings with store := st }

end World

/-- The rule for calls that ask for nothing that may be missing. -/
theorem Prog.ensures_flaky {underway : Delivery → Prop} {limit : Option Nat} {c : Store.Call}
    {post : Option (Except StoreError c.Result) → World → Prop} (hw : w.Flaky)
    (hc : ¬ c.Lacks w.store.live) (hp : ∀ r v, w.Called c r v → post (some r) v) :
    (Prog.request (.store limit c)).Ensures n underway post w := by
  refine (Prog.ensures_request (r := .store limit c)).mpr ?_
  change (w.callStore limit c).Ensures underway post
  unfold World.callStore
  rw [World.takeFault_eq]
  rcases World.fate_cases hw c.name with hpass | ⟨e, hfail, -⟩
  case inr =>
    rw [hfail]
    exact hp _ _ (.refused e w.readings fun hpass => by rw [hfail] at hpass; cases hpass)
  rw [hpass]
  simp only [World.replyAfter, ↓reduceIte]
  by_cases ha : w.store.available = true
  case neg =>
    have ha' : w.store.available = false := by simpa using ha
    rw [World.perform_unavailable (w := { w with faults := w.spared c.name }) c ha']
    refine hp _ _ ?_
    cases c.readsClock
    · exact .refused _ w.readings fun _ => ha'
    · exact .refused _ (w.readings + 1) fun _ => ha'
  rw [World.perform_available (w := { w with faults := w.spared c.name }) c ha]
  have hreading : World.reading { w with faults := w.spared c.name } = w.reading := rfl
  rw [hreading]
  cases hserve : w.store.serve w.reading c with
  | overflow => trivial
  | error e => exact absurd ((Store.serve_error_iff c).mp ⟨e, hserve⟩) hc
  | ok x st =>
    refine hp _ _ ?_
    cases c.readsClock
    · exact .answered hpass ha hserve w.readings
    · exact .answered hpass ha hserve (w.readings + 1)

theorem Action.ensures_call_flaky {ε : Type} {underway : Delivery → Prop} {limit : Nat} {c : Store.Call}
    {f : StoreError → ε} {post : Option (Except ε c.Result) → World → Prop} (hw : w.Flaky)
    (hc : ¬ c.Lacks w.store.live) (hp : ∀ r v, w.Called c r v → post (some (r.mapError f)) v) :
    ((Action.call limit c).mapError f).Ensures n underway post w :=
  Action.ensures_mapError.mpr (Action.ensures_iff.mpr (Prog.ensures_flaky hw hc hp))

/-! ## Attempts to withdraw backends -/

/-- The operations that delete rows of backends and announce that they went away. -/
inductive Withdrawal where
  | clearPhantoms
  | deleteOwn
  | disconnect (s : Session)

namespace Withdrawal

open Lifecycle (Place)

/-- Runs an action for whether it succeeds. -/
def succeeds {ε α : Type} (a : Action ε α) : Prog Bool := do
  return match ← a.outcome with
    | .ok _ => true
    | .error _ => false

/-- One attempt at an operation: whether it returns without an error. -/
def attempt (p : Place) : Withdrawal → Prog Bool
  | clearPhantoms => succeeds (Sweep.clearPhantoms p.nodeId p.limits)
  | deleteOwn => succeeds (Sweep.deleteOwn p.nodeId p.limits)
  | disconnect s => succeeds (Lifecycle.onDisconnect p s)

/-- The backends an attempt sets out to withdraw. -/
def targets (p : Place) (n : Nat) (w : World) : Withdrawal → List Backend
  | clearPhantoms => Sweep.phantoms p.nodeId (w.node n).rooms w.store.live
  | deleteOwn => w.store.live.backendsByNode p.nodeId
  | disconnect s => (w.peer s).context.backend.toList

/-- The name of the call that announces what was withdrawn. -/
def announcement : Withdrawal → String
  | disconnect _ => "append_event"
  | _ => "append_events"

/-- The attempts at an operation, one after the other, until one returns without an error. Each is
given by the worlds before and after it. -/
inductive Retried (n : Nat) (attempt : Prog Bool) : World → List (World × World) → World → Prop where
  | done {w v : World} (h : w.run n attempt = .finished v true) : Retried n attempt w [(w, v)] v
  | again {w v u : World} {xs : List (World × World)} (h : w.run n attempt = .finished v false)
      (goes_on : Retried n attempt v xs u) : Retried n attempt w ((w, v) :: xs) u

/-! ### What one attempt does -/

/-- Announcing that backends went away. -/
def payloads (bs : List Backend) : List EventPayload :=
  (Sweep.modulesOf bs).map fun m => ⟨.moduleDisconnected, m⟩

/-- Rows are deleted, and announced if the announcement is let through. -/
structure Withdrawn (announcement : String) (bs : List Backend) (w : World) (t : Tables) : Prop where
  rows : t.backends = w.store.live.backends.filter fun b => b.connectionId ∉ bs.map (·.connectionId)
  announced : w.fate announcement = .pass →
    ∃ es, t.events = w.store.live.events ++ es ∧ es.map (·.payload) = payloads bs
  silent : w.fate announcement ≠ .pass → t.events = w.store.live.events

/-- What deleting rows and announcing it comes to. -/
inductive Removal (announcement : String) (bs : List Backend) (w : World) : World → Prop where
  | kept {faults : List (String × List Fault)} (readings : Nat)
      (hflaky : World.Flaky { w with faults := faults }) :
      Removal announcement bs w { w with faults := faults, readings := readings }
  | withdrawn {faults : List (String × List Fault)} {t : Tables} (readings : Nat)
      (hflaky : World.Flaky { w with faults := faults }) (ht : Withdrawn announcement bs w t) :
      Removal announcement bs w
        { w with faults := faults, readings := readings, store := { w.store with live := t } }

variable {underway : Delivery → Prop} {l : Limits} {p : Place} {bs : List Backend}

/-- Behind the deletion of rows, a call that appends their announcement completes the removal. -/
theorem Removal.of_called {deletion : String} {readings : Nat} {t : Tables} {c : Store.Call}
    {r : Except StoreError c.Result} (hw : w.Flaky) (ha : w.store.available = true)
    (hne : c.name ≠ deletion) (hevents : t.events = w.store.live.events)
    (hrows : t.backends = w.store.live.backends.filter fun b => b.connectionId ∉ bs.map (·.connectionId))
    (hserve : ∀ st x now, Store.serve now { w.store with live := t } c = .ok x st →
      ∃ es t', t.Extends es t' ∧ es.map (·.payload) = payloads bs ∧ st = { w.store with live := t' })
    (hr : ((w.behind deletion readings).write t).Called c r v) : Removal c.name bs w v := by
  have hflaky := World.flaky_behind hw deletion readings
  have hfate : World.fate c.name (w.behind deletion readings) = w.fate c.name :=
    World.fate_spared hne rfl
  cases hr with
  | refused e readings' hwhy =>
    refine .withdrawn readings' (World.flaky_spared hflaky c.name rfl) ⟨hrows, fun hpass => ?_, fun _ => hevents⟩
    exact absurd ((hwhy (hfate.trans hpass)).symm.trans ha) (by simp)
  | answered hpass _ hserved readings' =>
    obtain ⟨es, t', hx, hpayloads, rfl⟩ := hserve _ _ _ hserved
    refine .withdrawn readings' (World.flaky_spared hflaky c.name rfl) ⟨?_, fun _ => ⟨es, ?_, hpayloads⟩, ?_⟩
    · rw [hx.rest]
      exact hrows
    · rw [hx.events, hevents]
    · exact fun hfail => absurd (hfate.symm.trans hpass) hfail

theorem ensures_remove {checked : Nat} (hw : w.Flaky) :
    (Sweep.remove l checked bs).Ensures n underway
      (fun _ v => Removal "append_events" bs w v) w := by
  unfold Sweep.remove
  by_cases hb : bs.isEmpty
  · rw [if_pos hb]
    exact Action.ensures_pure.mpr (Removal.kept w.readings hw)
  rw [if_neg hb]
  refine Action.ensures_bind.mpr (Action.ensures_call_flaky hw nofun fun r v hr => ?_)
  cases hr with
  | refused e readings => exact .kept readings (World.flaky_spared hw _ rfl)
  | answered hpass ha hserve readings =>
    obtain ⟨rfl, rfl⟩ := hserve
    have hdeleted := Tables.deleteBackends_eq (bs.map (·.connectionId)) w.store.live
    refine Action.ensures_bind.mpr (Action.ensures_call_flaky (World.flaky_behind hw _ readings) nofun
      fun r u hr => ?_)
    have hu : Removal "append_events" bs w u := by
      refine .of_called (c := .appendEvents (payloads bs)) hw ha
        (show "append_events" ≠ "delete_backends" by decide) (by rw [hdeleted]) (by rw [hdeleted])
        (fun st es now hserve => ?_) hr
      obtain ⟨t, hx, hpayloads, rfl⟩ := Store.serve_appendEvents hserve
      exact ⟨es, t, hx, hpayloads, rfl⟩
    cases r with
    | error e => exact hu
    | ok es => exact Action.ensures_pure.mpr hu

theorem ensures_deregister {b : Backend} (hw : w.Flaky) :
    (Lifecycle.deregister l b).Ensures n underway
      (fun _ v => Removal "append_event" [b] w v) w := by
  unfold Lifecycle.deregister
  refine Action.ensures_bind.mpr (Action.ensures_call_flaky hw nofun fun r v hr => ?_)
  cases hr with
  | refused e readings => exact .kept readings (World.flaky_spared hw _ rfl)
  | answered hpass ha hserve readings =>
    obtain ⟨rfl, rfl⟩ := hserve
    refine Action.ensures_bind.mpr (Action.ensures_call_flaky (World.flaky_behind hw _ readings) nofun
      fun r u hr => ?_)
    have hu : Removal "append_event" [b] w u := by
      have hrows : (w.store.live.deleteBackend b.connectionId).2.backends
          = w.store.live.backends.filter fun r => r.connectionId ∉ [b].map (·.connectionId) := by
        simp [Tables.deleteBackend, Table.erase]
      refine .of_called (t := (w.store.live.deleteBackend b.connectionId).2)
        (c := .appendEvent ⟨.moduleDisconnected, b.moduleId⟩) hw ha
        (show "append_event" ≠ "delete_backend" by decide) rfl hrows (fun st e now hserve => ?_) hr
      obtain ⟨t, hx, hpayload, rfl⟩ := Store.serve_appendEvent hserve
      exact ⟨[e], t, hx, by simp [payloads, Sweep.modulesOf, Sweep.insertId, hpayload], rfl⟩
    cases r with
    | error e => exact hu
    | ok e => exact Action.ensures_pure.mpr hu

/-- What one attempt comes to: the rows stay, or what the attempt set out to withdraw is withdrawn
and no attempt finds it any more. -/
inductive Attempted (p : Place) (n : Nat) (op : Withdrawal) (w v : World) : Prop where
  | kept (flaky : v.Flaky) (rows : v.store.live.backends = w.store.live.backends)
      (events : v.store.live.events = w.store.live.events)
      (spent : op.targets p n w = [] → op.targets p n v = [])
  | withdrew (flaky : v.Flaky)
      (withdrawn : Withdrawn op.announcement (op.targets p n w) w v.store.live)
      (spent : op.targets p n v = [])

theorem Attempted.of_removal {op : Withdrawal} {u : World} (hbs : bs = op.targets p n w)
    (h : Removal op.announcement bs u v)
    (hrows : u.store.live.backends = w.store.live.backends)
    (hevents : u.store.live.events = w.store.live.events)
    (hfate : u.fate op.announcement = w.fate op.announcement)
    (hspent : v.nodes = u.nodes → v.peers = u.peers →
      (v.store.live.backends = w.store.live.backends → op.targets p n w = [] → op.targets p n v = []) ∧
      ((∀ b ∈ v.store.live.backends, b ∈ w.store.live.backends ∧
        b.connectionId ∉ (op.targets p n w).map (·.connectionId)) → op.targets p n v = [])) :
    Attempted p n op w v := by
  subst hbs
  cases h with
  | kept readings hflaky => exact .kept hflaky hrows hevents ((hspent rfl rfl).1 hrows)
  | @withdrawn faults t readings hflaky ht =>
    refine .withdrew hflaky ⟨hrows ▸ ht.rows, fun hpass => ?_, fun hfail => ?_⟩
      ((hspent rfl rfl).2 fun b hb => ?_)
    · exact hevents ▸ ht.announced (hfate.trans hpass)
    · exact (ht.silent fun hpass => hfail (hfate.symm.trans hpass)).trans hevents
    · change b ∈ t.backends at hb
      rw [ht.rows, hrows, List.mem_filter] at hb
      simpa using hb

/-- Sweeps that look for the rows of some kind find them as long as they are not deleted. -/
theorem sweep_spent {op : Withdrawal} {Sought : Backend → Prop}
    (hw : ∀ b, b ∈ op.targets p n w ↔ b ∈ w.store.live.backends ∧ Sought b)
    (hv : ∀ b, b ∈ op.targets p n v ↔ b ∈ v.store.live.backends ∧ Sought b) :
    (v.store.live.backends = w.store.live.backends → op.targets p n w = [] → op.targets p n v = []) ∧
    ((∀ b ∈ v.store.live.backends, b ∈ w.store.live.backends ∧
      b.connectionId ∉ (op.targets p n w).map (·.connectionId)) → op.targets p n v = []) := by
  refine ⟨fun hrows hnone => ?_, fun hdeleted => ?_⟩ <;>
    refine List.eq_nil_iff_forall_not_mem.mpr fun b hb => ?_ <;>
    obtain ⟨hrow, hsought⟩ := (hv b).mp hb
  · have hb' := (hw b).mpr ⟨hrows ▸ hrow, hsought⟩
    rw [hnone] at hb'
    cases hb'
  · obtain ⟨hrow', hgone⟩ := hdeleted b hrow
    exact hgone (List.mem_map_of_mem ((hw b).mpr ⟨hrow', hsought⟩))

theorem mem_clearPhantoms {b : Backend} : b ∈ clearPhantoms.targets p n w ↔ b ∈ w.store.live.backends ∧
    b.nodeId = p.nodeId ∧ (w.node n).rooms.isConnected b.connectionId = false := by
  simp [targets, Sweep.phantoms, Tables.backendsByNode, List.mem_mergeSort, and_assoc]

theorem mem_deleteOwn {b : Backend} :
    b ∈ deleteOwn.targets p n w ↔ b ∈ w.store.live.backends ∧ b.nodeId = p.nodeId := by
  simp [targets, Tables.backendsByNode, List.mem_mergeSort]

theorem ensures_clearPhantoms (hw : w.Flaky) : (Sweep.clearPhantoms p.nodeId l).Ensures n underway
    (fun _ v => Attempted p n .clearPhantoms w v) w := by
  unfold Sweep.clearPhantoms
  refine Action.ensures_bind.mpr (Action.ensures_call_flaky hw nofun fun r u hr => ?_)
  cases hr with
  | refused e readings => exact .kept (World.flaky_behind hw _ readings) rfl rfl id
  | answered hpass ha hserve readings =>
    obtain ⟨rfl, rfl⟩ := hserve
    refine Action.ensures_bind.mpr (Action.ensures_connected.mpr ?_)
    have htargets := Sweep.phantoms_eq p.nodeId (w.node n).rooms w.store.live
    refine Action.Ensures.mono (ensures_remove (World.flaky_behind hw _ readings)) fun o v hv => ?_
    refine .of_removal htargets hv rfl rfl (World.fate_spared (w := w)
      (show "append_events" ≠ "backends_by_node" by decide) rfl) fun hnodes _ => ?_
    refine sweep_spent (fun b => mem_clearPhantoms) fun b => ?_
    have hnode : v.node n = w.node n := by
      unfold World.node
      rw [hnodes]
      rfl
    rw [← hnode]
    exact mem_clearPhantoms

theorem ensures_deleteOwn (hw : w.Flaky) : (Sweep.deleteOwn p.nodeId l).Ensures n underway
    (fun _ v => Attempted p n .deleteOwn w v) w := by
  unfold Sweep.deleteOwn
  refine Action.ensures_bind.mpr (Action.ensures_call_flaky hw nofun fun r u hr => ?_)
  cases hr with
  | refused e readings => exact .kept (World.flaky_behind hw _ readings) rfl rfl id
  | answered hpass ha hserve readings =>
    obtain ⟨rfl, rfl⟩ := hserve
    refine Action.Ensures.mono (ensures_remove (World.flaky_behind hw _ readings)) fun o v hv => ?_
    refine .of_removal rfl hv rfl rfl (World.fate_spared (w := w)
      (show "append_events" ≠ "backends_by_node" by decide) rfl) fun _ _ => ?_
    exact sweep_spent (fun b => mem_deleteOwn) fun b => mem_deleteOwn

/-- A session that gave up its backend has none. -/
theorem backend_detached (s : Session) (w : World) : ((w.modifyPeer s fun peer =>
    { peer with context := { peer.context with backend := none } }).peer s).context.backend = none := by
  unfold World.peer World.modifyPeer
  simp only [List.getElem?_modify]
  cases w.peers[s.serial]? with
  | none => rfl
  | some p => simp

/-- The backend of a session is withdrawn whatever came of marking its module, `r`. -/
theorem ensures_withdraw {s : Session} {r : Except LifecycleError Unit} (hw : w.Flaky) :
    Action.Ensures n underway (fun (_ : Option (Except LifecycleError Unit)) v =>
        Removal "append_event" (w.peer s).context.backend.toList
          (w.modifyPeer s fun peer => { peer with context := { peer.context with backend := none } }) v) (do
      let deregistered ← ExceptT.lift <| Action.outcome (ε := LifecycleError) do
        match ← Action.ask (.detach s) with
        | none => return ()
        | some b => Lifecycle.deregister l b
      MonadExcept.ofExcept (Lifecycle.firstError r deregistered)) w := by
  refine Action.ensures_bind.mpr (Action.ensures_lift.mpr (Action.ensures_outcome.mpr ?_))
  refine Action.ensures_bind.mpr (Action.ensures_detach.mpr ?_)
  cases (w.peer s).context.backend with
  | none => exact Action.ensures_pure.mpr (Action.ensures_ofExcept.mpr (Removal.kept w.readings hw))
  | some b =>
    refine Action.Ensures.mono (ensures_deregister (w := w.modifyPeer s _) hw) fun o v hv => ?_
    cases o with
    | none => exact hv
    | some x => exact Action.ensures_ofExcept.mpr hv

theorem ensures_onDisconnect {s : Session} (hw : w.Flaky) : (Lifecycle.onDisconnect p s).Ensures n underway
    (fun _ v => Attempted p n (.disconnect s) w v) w := by
  -- However the world is left by marking the module, the same backend is withdrawn from it.
  have hwithdraw (u : World) (r : Except LifecycleError Unit) (hflaky : u.Flaky) (hpeers : u.peers = w.peers)
      (hrows : u.store.live.backends = w.store.live.backends)
      (hevents : u.store.live.events = w.store.live.events)
      (hfate : u.fate "append_event" = w.fate "append_event") :
      Action.Ensures n underway (fun (_ : Option (Except LifecycleError Unit)) v =>
        Attempted p n (.disconnect s) w v) (do
        let deregistered ← ExceptT.lift <| Action.outcome (ε := LifecycleError) do
          match ← Action.ask (.detach s) with
          | none => return ()
          | some b => Lifecycle.deregister p.limits b
        MonadExcept.ofExcept (Lifecycle.firstError r deregistered)) u := by
    have hpeer : u.peer s = w.peer s := by rw [World.peer, hpeers, ← World.peer]
    refine Action.Ensures.mono (ensures_withdraw hflaky) fun _ v hv => ?_
    refine .of_removal (by rw [hpeer]; rfl) hv hrows hevents hfate fun _ hpeers' => ?_
    have hspent : (disconnect s).targets p n v = [] := by
      have hdetached := backend_detached s u
      unfold World.peer at hdetached
      rw [← hpeers', ← World.peer] at hdetached
      rw [targets, hdetached]
      rfl
    exact ⟨fun _ _ => hspent, fun _ => hspent⟩
  unfold Lifecycle.onDisconnect
  refine Action.ensures_bind.mpr (Action.ensures_unregister.mpr ?_)
  refine Action.ensures_bind.mpr (Action.ensures_context.mpr ?_)
  refine Action.ensures_bind.mpr (Action.ensures_lift.mpr (Action.ensures_outcome.mpr ?_))
  rw [World.setRooms_peer]
  cases (w.peer s).context.moduleId with
  | none => exact Action.ensures_pure.mpr (hwithdraw _ _ hw rfl rfl rfl rfl)
  | some m =>
    refine Action.ensures_bind.mpr (Action.ensures_clock.mpr ?_)
    refine Action.ensures_call_flaky (c := .markDisconnected m _) (by exact hw) nofun fun r u hr => ?_
    have hfate (v : World) (hv : v.faults = w.spared "mark_disconnected") :
        v.fate "append_event" = w.fate "append_event" :=
      World.fate_spared (show "append_event" ≠ "mark_disconnected" by decide) hv
    cases hr with
    | refused e readings => exact hwithdraw _ _ (World.flaky_behind hw _ readings) rfl rfl rfl (hfate _ rfl)
    | answered hpass ha hserve readings =>
      obtain ⟨rfl, rfl⟩ := hserve
      exact hwithdraw _ _ (World.flaky_behind hw _ readings) rfl rfl rfl (hfate _ rfl)

theorem ensures_succeeds {ε α : Type} {a : Action ε α} {post : World → Prop}
    (h : a.Ensures n underway (fun _ v => post v) w) :
    (succeeds a).Ensures n underway (fun _ v => post v) w := by
  refine Prog.ensures_bind.mpr (Prog.Ensures.mono (Action.ensures_iff.mp h) fun o v hv => ?_)
  cases o with
  | none => exact hv
  | some r => exact Prog.ensures_pure.mpr hv

theorem attempted {op : Withdrawal} {ok : Bool} (hw : w.Flaky)
    (h : w.run n (op.attempt p) = .finished v ok) : Attempted p n op w v := by
  have hall : (op.attempt p).Ensures n (fun _ => True) (fun _ v => Attempted p n op w v) w := by
    cases op with
    | clearPhantoms => exact ensures_succeeds (ensures_clearPhantoms hw)
    | deleteOwn => exact ensures_succeeds (ensures_deleteOwn hw)
    | disconnect s => exact ensures_succeeds (ensures_onDisconnect hw)
  rw [Prog.ensures_iff, h] at hall
  exact hall

/-! ### What repeated attempts do -/

variable {op : Withdrawal} {xs : List (World × World)}

theorem Attempted.flaky (h : Attempted p n op w v) : v.Flaky := by
  cases h with
  | kept hflaky => exact hflaky
  | withdrew hflaky => exact hflaky

/-- Rows only go away. -/
theorem Attempted.keyed (h : Attempted p n op w v)
    (hw : w.store.live.backends.Pairwise (Backend.connectionId · ≠ Backend.connectionId ·)) :
    v.store.live.backends.Pairwise (Backend.connectionId · ≠ Backend.connectionId ·) := by
  cases h with
  | kept _ hrows => exact hrows ▸ hw
  | withdrew _ hwithdrawn => exact hwithdrawn.rows ▸ hw.filter _

/-- With nothing to withdraw nothing is announced, and nothing is left to withdraw. -/
theorem Attempted.idle (h : Attempted p n op w v) (hw : op.targets p n w = []) :
    v.store.live.events = w.store.live.events ∧ op.targets p n v = [] := by
  cases h with
  | kept _ _ hevents hspent => exact ⟨hevents, hspent hw⟩
  | withdrew _ hwithdrawn hspent =>
    refine ⟨?_, hspent⟩
    by_cases hpass : w.fate op.announcement = .pass
    · obtain ⟨es, hevents, hpayloads⟩ := hwithdrawn.announced hpass
      rw [hw] at hpayloads
      rw [hevents, List.map_eq_nil_iff.mp hpayloads, List.append_nil]
    · exact hwithdrawn.silent hpass

theorem Retried.idle (h : Retried n (op.attempt p) w xs v) (hw : w.Flaky)
    (hnone : op.targets p n w = []) : v.store.live.events = w.store.live.events := by
  induction h with
  | done hrun => exact ((attempted hw hrun).idle hnone).1
  | again hrun _ ih =>
    have hattempt := attempted hw hrun
    obtain ⟨hevents, hspent⟩ := hattempt.idle hnone
    exact (ih hattempt.flaky hspent).trans hevents

/-- Each attempt of a series starts among failing calls, and what is left to withdraw behind it is
all that later ones announce. -/
theorem Retried.mem (h : Retried n (op.attempt p) w xs v) (hw : w.Flaky)
    (hkeyed : w.store.live.backends.Pairwise (Backend.connectionId · ≠ Backend.connectionId ·))
    {x : World × World} (hx : x ∈ xs) : Attempted p n op x.1 x.2 ∧
      x.1.store.live.backends.Pairwise (Backend.connectionId · ≠ Backend.connectionId ·) ∧
      (op.targets p n x.2 = [] → v.store.live.events = x.2.store.live.events) := by
  induction h with
  | done hrun =>
    obtain rfl := List.mem_singleton.mp hx
    exact ⟨attempted hw hrun, hkeyed, fun _ => rfl⟩
  | again hrun hrest ih =>
    have hattempt := attempted hw hrun
    rcases List.mem_cons.mp hx with rfl | hx
    · exact ⟨hattempt, hkeyed, hrest.idle hattempt.flaky⟩
    · exact ih hattempt.flaky (hattempt.keyed hkeyed) hx

/-- Whether, by the end, the module was announced to have lost backends since an attempt began. -/
def Announced (x : World × World) (v : World) (m : ModuleId) : Prop :=
  ∃ es, v.store.live.events = x.1.store.live.events ++ es ∧ ∃ e ∈ es, e.payload = ⟨.moduleDisconnected, m⟩

/-- A row that an attempt deletes has the connection of one it set out to withdraw, and its module
is announced exactly if that one's announcement is let through and is of this module. -/
theorem Retried.announced (h : Retried n (op.attempt p) w xs v) (hw : w.Flaky)
    (hkeyed : w.store.live.backends.Pairwise (Backend.connectionId · ≠ Backend.connectionId ·))
    {x : World × World} (hx : x ∈ xs) {b : Backend} (hb : b ∈ x.1.store.live.backends)
    (hgone : b ∉ x.2.store.live.backends) :
    b.connectionId ∈ (op.targets p n x.1).map (·.connectionId) ∧
    (Announced x v b.moduleId ↔ x.1.fate op.announcement = .pass ∧
      b.moduleId ∈ Sweep.modulesOf (op.targets p n x.1)) := by
  obtain ⟨hattempt, -, hlast⟩ := h.mem hw hkeyed hx
  cases hattempt with
  | kept _ hrows => exact absurd (hrows ▸ hb) hgone
  | withdrew _ hwithdrawn hspent =>
    have hconn : b.connectionId ∈ (op.targets p n x.1).map (·.connectionId) := by
      rw [hwithdrawn.rows, List.mem_filter] at hgone
      simpa [hb] using hgone
    refine ⟨hconn, ?_⟩
    unfold Announced
    rw [hlast hspent]
    by_cases hpass : x.1.fate op.announcement = .pass
    · obtain ⟨es, hevents, hpayloads⟩ := hwithdrawn.announced hpass
      have hmem : (∃ e ∈ es, e.payload = ⟨.moduleDisconnected, b.moduleId⟩) ↔
          b.moduleId ∈ Sweep.modulesOf (op.targets p n x.1) := by
        rw [← List.mem_map (f := fun e : Event => e.payload), hpayloads, payloads, List.mem_map]
        simp
      rw [hevents, ← hmem]
      refine ⟨?_, fun h => ⟨es, rfl, h.2⟩⟩
      rintro ⟨es', hes', he⟩
      exact ⟨hpass, List.append_cancel_left hes' ▸ he⟩
    · rw [hwithdrawn.silent hpass]
      refine iff_of_false ?_ fun h => hpass h.1
      rintro ⟨es, hes, e, he, -⟩
      rw [List.self_eq_append_right.mp hes] at he
      cases he

/-- The module of a row deleted by an attempt is announced, by the end of all attempts, exactly if
in that attempt the announcement is let through, and a disconnect announces this module. -/
theorem announced_iff (h : Retried n (op.attempt p) w xs v) (hw : w.Flaky)
    (hkeyed : w.store.live.backends.Pairwise (Backend.connectionId · ≠ Backend.connectionId ·))
    {x : World × World} (hx : x ∈ xs) {b : Backend} (hb : b ∈ x.1.store.live.backends)
    (hgone : b ∉ x.2.store.live.backends) :
    Announced x v b.moduleId ↔ x.1.fate op.announcement = .pass ∧ ∀ s, op = disconnect s →
      (x.1.peer s).context.backend.map (·.moduleId) = some b.moduleId := by
  obtain ⟨hconn, hannounced⟩ := h.announced hw hkeyed hx hb hgone
  have hkeyed' := (h.mem hw hkeyed hx).2.1
  refine hannounced.trans (and_congr_right fun _ => ?_)
  -- The rows a sweep sets out to delete are the rows that are stored.
  have hsweep (hsub : ∀ b' ∈ op.targets p n x.1, b' ∈ x.1.store.live.backends) :
      b.moduleId ∈ Sweep.modulesOf (op.targets p n x.1) := by
    obtain ⟨b', hb', hsame⟩ := List.mem_map.mp hconn
    obtain rfl := Table.keyed_unique hkeyed' (hsub b' hb') hb hsame
    exact Sweep.mem_modulesOf hb'
  cases op with
  | clearPhantoms => exact iff_of_true (hsweep fun b' hb' => (mem_clearPhantoms.mp hb').1) nofun
  | deleteOwn => exact iff_of_true (hsweep fun b' hb' => (mem_deleteOwn.mp hb').1) nofun
  | disconnect s =>
    obtain ⟨b', hb', -⟩ := List.mem_map.mp hconn
    rw [targets, Option.mem_toList] at hb'
    simp [targets, hb', Sweep.modulesOf, Sweep.insertId, eq_comm]

/-! ## A lost announcement -/

/-- The world an attempt leaves, if it does not wait. -/
def left (n : Nat) (attempt : Prog Bool) (w : World) : World :=
  match w.run n attempt with
  | .finished v _ => v
  | _ => w

/-- Whether an attempt returned, and how. -/
def returned (n : Nat) (attempt : Prog Bool) (w : World) : Option Bool :=
  match w.run n attempt with
  | .finished _ ok => some ok
  | _ => none

theorem run_eq_of_returned {q : Prog Bool} {ok : Bool} (h : returned n q w = some ok) :
    w.run n q = .finished (left n q w) ok := by
  unfold returned at h
  unfold left
  cases hrun : w.run n q <;> rw [hrun] at h <;> simp_all

def strandedPlace : Place := ⟨⟨"n1"⟩, ⟨2000, 5000⟩⟩

def strandedRow : Backend where
  connectionId := ⟨"c1"⟩
  moduleId := .ofName "auth"
  address := "10.0.0.1:80"
  version := ""
  libVersion := ""
  moduleName := "auth"
  transport := ""
  nodeId := ⟨"n1"⟩
  endpoints := []
  requiredModules := []
  metrics := none
  createdAt := default

/-- A node stores a backend whose connection is gone, and the store will refuse one announcement. -/
def stranded₀ : World :=
  { World.initial default with
    nodes := [.fresh ⟨⟨"n1"⟩, ⟨2000, 5000⟩, ⟨100, .oldestFirst⟩⟩ true]
    store := { Store.empty with live := { Tables.empty with backends := [strandedRow] } }
    faults := [("append_events", [.fail .unreachable])] }

def sweep : Prog Bool := clearPhantoms.attempt strandedPlace

/-- The worlds behind the first and the second sweep. -/
def stranded₁ : World := left 0 sweep stranded₀
def stranded₂ : World := left 0 sweep stranded₁

theorem stranded_flaky : stranded₀.Flaky := by
  intro plan hplan f hf
  obtain rfl := List.mem_singleton.mp hplan
  exact .inr ⟨_, List.mem_singleton.mp hf, rfl⟩

theorem stranded_retried :
    Retried 0 sweep stranded₀ [(stranded₀, stranded₁), (stranded₁, stranded₂)] stranded₂ :=
  .again (run_eq_of_returned (by decide +kernel)) (.done (run_eq_of_returned (by decide +kernel)))

theorem stranded_gone : strandedRow ∈ stranded₀.store.live.backends ∧
    strandedRow ∉ stranded₁.store.live.backends := by
  have hnone : stranded₁.store.live.backends.isEmpty = true := by decide +kernel
  exact ⟨List.mem_singleton_self _, by simp [List.isEmpty_iff.mp hnone]⟩

/-- A sweep deletes the row and fails to announce it, and the next one finds nothing. -/
theorem removal_never_announced :
    ¬ ∀ (n : Nat) (p : Place) (op : Withdrawal) (w v : World) (xs : List (World × World)), w.Flaky →
      w.store.live.backends.Pairwise (Backend.connectionId · ≠ Backend.connectionId ·) →
      Retried n (op.attempt p) w xs v → ∀ x ∈ xs, ∀ b ∈ x.1.store.live.backends,
        b ∉ x.2.store.live.backends → Announced x v b.moduleId := by
  intro hclaim
  obtain ⟨es, hes, e, he, -⟩ := hclaim 0 strandedPlace .clearPhantoms _ _ _ stranded_flaky
    (List.pairwise_singleton _ _) stranded_retried _ List.mem_cons_self _ stranded_gone.1 stranded_gone.2
  have hnone : stranded₂.store.live.events.isEmpty = true := by decide +kernel
  rw [List.isEmpty_iff.mp hnone] at hes
  rw [(List.append_eq_nil_iff.mp hes.symm).2] at he
  cases he

/-- The refused announcement is what keeps the removal from being known. -/
theorem refused_announcement_lost : stranded₀.fate "append_events" ≠ .pass ∧
    ¬ Announced (stranded₀, stranded₁) stranded₂ strandedRow.moduleId := by
  have hrefused : stranded₀.fate "append_events" ≠ .pass := by decide
  refine ⟨hrefused, fun hannounced => ?_⟩
  exact hrefused ((announced_iff stranded_retried stranded_flaky
    (List.pairwise_singleton _ _) List.mem_cons_self stranded_gone.1 stranded_gone.2).mp hannounced).1

end Withdrawal

end ConfigRegistry
