import ConfigRegistry.Proofs.Calm
import ConfigRegistry.Proofs.Transitions

/-!
# Runs of a cluster

Nodes that are wired by hand share one store and take steps one at a time: transitions
of their sessions, writes of administrators, sweeps, polls, direct calls of the store,
and what befalls the store in between. `Cluster.apply` takes a step with the programs
the nodes run; a run is a sequence of steps together with its history. A step that ends
in an overflow ends the program, so no run goes on behind one.
-/

namespace ConfigRegistry

open World (Passes Settles Aside Attempt)

/-- Nodes that are wired by hand, and the node that each session connected to. -/
structure Cluster where
  sim : Simulation
  homes : List Nat

namespace Cluster

def world (c : Cluster) : World := c.sim.world

/-- The session of a serial number. -/
def session (k : Nat) (c : Cluster) : Session := ⟨k, (c.world.peers[k]?.getD default).conn⟩

/-- The node that a session connected to. -/
def home (k : Nat) (c : Cluster) : Nat := c.homes[k]?.getD 0

def profile (n : Nat) (c : Cluster) : Profile := (c.world.node n).profile

/-- Where the transitions of a node's sessions take place. -/
def place (n : Nat) (c : Cluster) : Lifecycle.Place := ⟨(c.profile n).nodeId, (c.profile n).limits⟩

/-- Nodes that were just started around an empty store. -/
def start (profiles : List Profile) (at_ : Timestamp) : Cluster :=
  ⟨⟨{ World.initial at_ with nodes := profiles.map (.fresh · true) }, []⟩, []⟩

/-- What can be asked of a cluster. Sessions go by their serial numbers. -/
inductive Input where
  | connect (n : Nat) (id : ConnectionId) (behaviour : Behaviour) (name : String)
  | requirements (k : Nat) (r : ModuleRequirements)
  | configSchema (k : Nat) (d : ConfigSchemaDeclaration)
  | ready (k : Nat) (d : BackendDeclaration)
  | disconnect (k : Nat)
  | updateActive (n : Nat) (m : ModuleId) (data : Bytes)
  | activate (n : Nat) (id : ConfigId)
  | clearPhantoms (n : Nat)
  | deleteOwn (n : Nat)
  | poll (n : Nat)
  /-- The worker of a node is replaced by a fresh one. -/
  | restart (n : Nat)
  /-- The store is called from outside, without a deadline. -/
  | call (c : Store.Call)
  /-- An event is appended with a time of its own. -/
  | appendEventAt (p : EventPayload) (at_ : Timestamp)
  | lag
  | catchUp
  | setAvailable (b : Bool)

/-- What an input is answered. -/
abbrev Input.Reply : Input → Type
  | connect .. => Except LifecycleError Unit
  | requirements .. => Except LifecycleError Unit
  | configSchema .. => Except LifecycleError Unit
  | ready .. => Except LifecycleError Backend
  | disconnect .. => Except LifecycleError Unit
  | updateActive .. => Except LifecycleError Config
  | activate .. => Except LifecycleError Config
  | clearPhantoms .. => Except HousekeepingError SweepReport
  | deleteOwn .. => Except HousekeepingError SweepReport
  | poll .. => Except NotifyError PollOutcome
  | restart .. => Unit
  | call c => Except StoreError c.Result
  | appendEventAt .. => Event
  | lag => Unit
  | catchUp => Unit
  | setAvailable .. => Unit

/-- Runs a program on a node. -/
def perform {α : Type} (n : Nat) (p : Prog α) (c : Cluster) : Cluster × Finish α :=
  let (sim, finish) := c.sim.perform n p
  ({ c with sim := sim }, finish)

def modifyWorld (f : World → World) (c : Cluster) : Cluster :=
  { c with sim := { c.sim with world := f c.sim.world } }

def modifyStore (f : Store → Store) (c : Cluster) : Cluster :=
  c.modifyWorld fun w => { w with store := f w.store }

/-- A new session of a node. -/
def opened (n : Nat) (id : ConnectionId) (behaviour : Behaviour) (c : Cluster) : Cluster :=
  { c.modifyWorld fun w => { w with peers := w.peers ++ [⟨id, behaviour, .empty, 0⟩] } with
    homes := c.homes ++ [n] }

/-- The program of a node for an input that one is run for. -/
def apply : (i : Input) → Cluster → Cluster × Finish i.Reply
  | .connect n id behaviour name, c =>
    (c.opened n id behaviour).perform n
      (Lifecycle.onConnect (c.place n) ⟨c.world.peers.length, id⟩ name).outcome
  | .requirements k r, c =>
    c.perform (c.home k) (Lifecycle.onRequirements (c.place (c.home k)) (c.session k) r).outcome
  | .configSchema k d, c =>
    c.perform (c.home k) (Lifecycle.onConfigSchema (c.place (c.home k)) (c.session k) d).outcome
  | .ready k d, c =>
    c.perform (c.home k) (Lifecycle.onReady (c.place (c.home k)) (c.session k) d).outcome
  | .disconnect k, c =>
    c.perform (c.home k) (Lifecycle.onDisconnect (c.place (c.home k)) (c.session k)).outcome
  | .updateActive n m data, c =>
    c.perform n (ConfigWrite.updateActive (c.profile n).limits m data).outcome
  | .activate n id, c => c.perform n (ConfigWrite.activate (c.profile n).limits id).outcome
  | .clearPhantoms n, c =>
    c.perform n (Sweep.clearPhantoms (c.profile n).nodeId (c.profile n).limits).outcome
  | .deleteOwn n, c => c.perform n (Sweep.deleteOwn (c.profile n).nodeId (c.profile n).limits).outcome
  | .poll n, c => c.perform n (Worker.poll (c.profile n).worker (c.profile n).limits).outcome
  | .restart n, c =>
    (c.modifyWorld fun w => w.modifyNode n fun st => { st with cursor := 0 }, .returned ())
  | .call call, c => c.perform 0 (Prog.request (.store none call))
  | .appendEventAt p at_, c =>
    match c.world.store.live.append? p at_ with
    | some (e, t) => (c.modifyStore fun st => { st with live := t }, .returned e)
    | none => (c, .overflow)
  | .lag, c => (c.modifyStore Store.lag, .returned ())
  | .catchUp, c => (c.modifyStore Store.catchUp, .returned ())
  | .setAvailable b, c => (c.modifyStore fun st => { st with available := b }, .returned ())

/-- Whether the node or the session of an input exists. -/
def Knows (c : Cluster) : Input → Prop
  | .connect n .. | .updateActive n .. | .activate n _ | .clearPhantoms n | .deleteOwn n | .poll n
  | .restart n => n < c.world.nodes.length
  | .requirements k _ | .configSchema k _ | .ready k _ | .disconnect k => k < c.world.peers.length
  | .call _ | .appendEventAt .. | .lag | .catchUp | .setAvailable _ => True

/-- A step that was taken; there is no reply when it was given up. -/
structure Taken where
  before : Cluster
  input : Input
  reply : Option input.Reply
  after : Cluster

/-- The step that an input takes. -/
def take (i : Input) (c : Cluster) : Taken := ⟨c, i, (c.apply i).2.value?, (c.apply i).1⟩

/-- Runs from a cluster, with the steps taken so far. What may come next can depend on them. -/
inductive Run (admits : List Taken → Cluster → Input → Prop) (c₀ : Cluster) :
    List Taken → Cluster → Prop
  | start : Run admits c₀ [] c₀
  | step {h : List Taken} {c : Cluster} (hr : Run admits c₀ h c) (i : Input) (hk : c.Knows i)
      (ha : admits h c i) (hn : (c.apply i).2 ≠ .overflow) :
      Run admits c₀ (h ++ [c.take i]) (c.apply i).1

theorem ne_overflow {α : Type} {f : Finish α} (h : f.value?.isSome = true) : f ≠ .overflow := by
  rintro rfl
  cases h

instance (c : Cluster) : (i : Input) → Decidable (c.Knows i)
  | .connect n .. | .updateActive n .. | .activate n _ | .clearPhantoms n | .deleteOwn n | .poll n
  | .restart n => inferInstanceAs (Decidable (n < c.world.nodes.length))
  | .requirements k _ | .configSchema k _ | .ready k _ | .disconnect k =>
    inferInstanceAs (Decidable (k < c.world.peers.length))
  | .call _ | .appendEventAt .. | .lag | .catchUp | .setAvailable _ => .isTrue trivial

/-- Whether inputs can be taken one after the other: all they name is known, and each is answered. -/
def Takes : List Input → Cluster → Prop
  | [], _ => True
  | i :: rest, c => c.Knows i ∧ (c.apply i).2.value?.isSome = true ∧ (c.apply i).1.Takes rest

instance Takes.decide : (is : List Input) → (c : Cluster) → Decidable (c.Takes is)
  | [], _ => .isTrue trivial
  | i :: rest, c =>
    have := Takes.decide rest (c.apply i).1
    inferInstanceAs (Decidable (c.Knows i ∧ (c.apply i).2.value?.isSome = true ∧
      (c.apply i).1.Takes rest))

/-- A run goes on with an input that can be taken. -/
theorem Run.takes {admits : List Taken → Cluster → Input → Prop} {c₀ c : Cluster} {h : List Taken}
    {i : Input} {is : List Input} (hr : Run admits c₀ h c) (ht : c.Takes (i :: is))
    (ha : admits h c i) (c' : Cluster) (hc : (c.apply i).1 = c') :
    Run admits c₀ (h ++ [c.take i]) c' ∧ c'.Takes is :=
  hc ▸ ⟨hr.step i ht.1 ha (ne_overflow ht.2.1), ht.2.2⟩

/-- A step of a run was taken from where the steps before it led. -/
theorem Run.split {admits : List Taken → Cluster → Input → Prop} {c₀ c : Cluster}
    {h h₁ h₂ : List Taken} {x : Taken} (hr : Run admits c₀ h c) (hh : h = h₁ ++ x :: h₂) :
    Run admits c₀ h₁ x.before ∧ x.before.Knows x.input ∧ admits h₁ x.before x.input ∧
      (x.before.apply x.input).2 ≠ .overflow ∧ x = x.before.take x.input := by
  induction hr generalizing h₂ with
  | start => simp at hh
  | @step h c hr i hk ha hn ih =>
    rcases List.eq_nil_or_concat h₂ with rfl | ⟨rest, y, rfl⟩
    · obtain ⟨rfl, hx⟩ := List.append_inj' hh rfl
      obtain rfl := (List.cons.inj hx).1
      exact ⟨hr, hk, ha, hn, rfl⟩
    · rw [List.concat_eq_append, ← List.cons_append, ← List.append_assoc] at hh
      exact ih (List.append_inj' hh rfl).1

theorem Run.mem {admits : List Taken → Cluster → Input → Prop} {c₀ c : Cluster} {h : List Taken}
    (hr : Run admits c₀ h c) {x : Taken} (hx : x ∈ h) :
    ∃ h₁ h₂, h = h₁ ++ x :: h₂ ∧ Run admits c₀ h₁ x.before ∧ x.before.Knows x.input ∧
      admits h₁ x.before x.input ∧ (x.before.apply x.input).2 ≠ .overflow ∧
      x = x.before.take x.input := by
  obtain ⟨h₁, h₂, hh⟩ := List.append_of_mem hx
  exact ⟨h₁, h₂, hh, hr.split hh⟩

/-- What holds behind a step of a run and is kept by the steps since still holds. -/
theorem Run.since {admits : List Taken → Cluster → Input → Prop} {c₀ c : Cluster}
    {h h₁ h₂ : List Taken} {x : Taken} {P : List Taken → Cluster → Prop} (hr : Run admits c₀ h c)
    (hh : h = h₁ ++ x :: h₂) (hx : P [] x.after)
    (hstep : ∀ h c i, Run admits c₀ (h₁ ++ x :: h) c → c.Knows i → admits (h₁ ++ x :: h) c i →
      (c.apply i).2 ≠ .overflow → P h c → P (h ++ [c.take i]) (c.apply i).1) : P h₂ c := by
  induction hr generalizing h₂ with
  | start => simp at hh
  | @step h c hr i hk ha hn ih =>
    rcases List.eq_nil_or_concat h₂ with rfl | ⟨rest, y, rfl⟩
    · obtain ⟨-, heq⟩ := List.append_inj' hh rfl
      obtain rfl := (List.cons.inj heq).1
      exact hx
    · rw [List.concat_eq_append, ← List.cons_append, ← List.append_assoc] at hh
      obtain ⟨rfl, heq⟩ := List.append_inj' hh rfl
      obtain rfl := (List.cons.inj heq).1
      rw [List.concat_eq_append]
      exact hstep rest c i hr hk ha hn (ih rfl)

/-- What is admitted more often has more runs. -/
theorem Run.mono {admits admits' : List Taken → Cluster → Input → Prop} {c₀ c : Cluster}
    {h : List Taken} (hr : Run admits c₀ h c) (hle : ∀ h c i, admits h c i → admits' h c i) :
    Run admits' c₀ h c := by
  induction hr with
  | start => exact .start
  | step _ i hk ha hn ih => exact ih.step i hk (hle _ _ i ha) hn

/-! ## What steps come to -/

variable {underway : Delivery → Prop} {c : Cluster}

/-- No call is tampered with, and nothing is left to do at the current time. -/
structure Steady (underway : Delivery → Prop) (c : Cluster) : Prop where
  calm : c.sim.Calm underway
  faults : c.world.faults = []

theorem start_steady (profiles : List Profile) (at_ : Timestamp) :
    (Cluster.start profiles at_).Steady underway where
  calm := ⟨rfl, by simp [Simulation.OnlyLate, start], by simp [start]⟩
  faults := rfl

theorem Steady.mono {underway' : Delivery → Prop}
    (h : ∀ d, c.world.hears d.recipient = false → underway d → underway' d)
    (hc : c.Steady underway) : c.Steady underway' :=
  ⟨⟨hc.calm.outbox, fun x hx => (hc.calm.late x hx).mono h, hc.calm.due⟩, hc.faults⟩

theorem Steady.still (h : c.Steady underway) : c.world.Still := ⟨h.faults, h.calm.outbox⟩

/-- What an input comes to, before the messages of broadcasts are sent. -/
def Effect (underway : Delivery → Prop) (c : Cluster) : (i : Input) → Option i.Reply → World → Prop
  | .connect n id behaviour name, o, w =>
    Attempt underway ⟨c.world.peers.length, id⟩ (c.opened n id behaviour).world (fun _ v =>
      c.world.store.available = true ∧ Text.trimmed name ≠ "" ∧
        v = Lifecycle.connected n ⟨c.world.peers.length, id⟩ (Text.trimmed name)
          (c.opened n id behaviour).world) o w
  | .requirements k r, o, w =>
    Lifecycle.Required (c.home k) underway (c.session k) r c.world o w
  | .configSchema k d, o, w =>
    Lifecycle.Declared (c.home k) underway (c.session k) d c.world o w
  | .ready k _, o, w =>
    Attempt underway (c.session k) c.world
      (Lifecycle.Readied (c.place (c.home k)) (c.session k) c.world) o w
  | .disconnect k, o, w => ∃ r, o = some r ∧ Lifecycle.Left (c.home k) (c.session k) c.world r w
  | .updateActive _ m data, o, w =>
    ∀ s, Attempt underway s c.world (fun row v => c.world.store.available = true ∧
      ∃ w₁ t, Aside underway s c.world w₁ ∧ ConfigWrite.Updated m data c.world.store.live row t ∧
        v = w₁.write t) o w
  | .activate _ id, o, w =>
    ∀ s, Attempt underway s c.world (fun _ v => c.world.store.available = true ∧
      ∃ w₁ t, Aside underway s c.world w₁ ∧ ConfigWrite.Activated id c.world.store.live t ∧
        v = w₁.write t) o w
  | .clearPhantoms n, o, w =>
    ∀ s, Attempt underway s c.world (fun r v => c.world.store.available = true ∧
      Sweep.Removed (c.world.store.live.backendsByNode (c.profile n).nodeId).length
        (Sweep.phantoms (c.profile n).nodeId (c.world.node n).rooms c.world.store.live)
        c.world.served r v) o w
  | .deleteOwn n, o, w =>
    ∀ s, Attempt underway s c.world (fun r v => c.world.store.available = true ∧
      Sweep.Removed (c.world.store.live.backendsByNode (c.profile n).nodeId).length
        (c.world.store.live.backendsByNode (c.profile n).nodeId) c.world.served r v) o w
  | .poll n, o, w =>
    c.world.store.available = false ∧ o = some (.error (.store .unreachable)) ∧ w = c.world ∨
      c.world.store.available = true ∧ ∃ outcome, o = some (.ok outcome) ∧
        Worker.Polled n (c.profile n).worker (c.profile n).limits c.world outcome w
  | .restart n, _, w => w = c.world.modifyNode n fun st => { st with cursor := 0 }
  | .call call, o, w => ∃ r, c.world.perform call = some (w, r) ∧ o = some r
  | .appendEventAt p at_, o, w => ∃ e t, c.world.store.live.append? p at_ = some (e, t) ∧
      o = some e ∧ w = c.world.write t
  | .lag, _, w => w = { c.world with store := c.world.store.lag }
  | .catchUp, _, w => w = { c.world with store := c.world.store.catchUp }
  | .setAvailable b, _, w => w = { c.world with store := { c.world.store with available := b } }

theorem announced_of_still {w : World} (h : w.Still) : Simulation.Announced underway w w.outbox := by
  rw [h.outbox]
  simp [Simulation.Announced]

theorem declared_still {n : Nat} {s : Session} {d : ConfigSchemaDeclaration} {w v : World}
    {o : Option (Except LifecycleError Unit)} (h : Lifecycle.Declared n underway s d w o v)
    (hw : w.Still) : v.Still := by
  have hwrite : ∀ t, (w.write t).Still := fun t => ⟨hw.faults, hw.outbox⟩
  cases h with
  | refused ha _ => exact ha.still hw
  | invalid _ _ _ ha _ => exact ha.still (hwrite _)
  | missed _ _ _ _ ha _ => exact ha.still (hwrite _)
  | joins _ _ _ ha _ => exact ⟨(ha.still (hwrite _)).faults, (ha.still (hwrite _)).outbox⟩

theorem removed_still {checked : Nat} {bs : List Backend} {w v : World} {r : SweepReport}
    (h : Sweep.Removed checked bs w r v) (hw : w.Still) : v.Still := by
  cases h with
  | nothing _ => exact hw
  | some _ _ => exact ⟨hw.faults, hw.outbox⟩

theorem perform_still {w v : World} {call : Store.Call} {r : Except StoreError call.Result}
    (h : w.perform call = some (v, r)) (hw : w.Still) : v.Still := by
  cases World.performed h with
  | served _ _ => split <;> exact ⟨hw.faults, hw.outbox⟩
  | failed _ => split <;> exact ⟨hw.faults, hw.outbox⟩

/-- A call of the store leaves nodes, sessions and messages alone. -/
theorem perform_frame {w v : World} {call : Store.Call} {r : Except StoreError call.Result}
    (h : w.perform call = some (v, r)) :
    v.nodes = w.nodes ∧ v.peers = w.peers ∧ v.deliveries = w.deliveries := by
  cases World.performed h with
  | served _ _ => split <;> exact ⟨rfl, rfl, rfl⟩
  | failed _ => split <;> exact ⟨rfl, rfl, rfl⟩

/-- Whatever a program of a step ensures holds before the messages of broadcasts are sent. -/
theorem perform_effect {α : Type} {n : Nat} {p : Prog α} {post : Option α → World → Prop}
    (hc : c.Steady underway) (hp : p.Ensures n underway post c.world)
    (hq : ∀ o w, post o w → w.faults = [] ∧ Simulation.Announced underway w w.outbox)
    (hn : (c.perform n p).2 ≠ .overflow) :
    ∃ w, post (c.perform n p).2.value? w ∧ Settles underway w (c.perform n p).1.world ∧
      (c.perform n p).1.Steady underway := by
  obtain ⟨w, hw, hs, hcalm⟩ := Simulation.perform_calm hc.calm (Prog.ensures_iff.mp hp)
    (fun o w h => (hq o w h).2) hn
  refine ⟨w, hw, hs, hcalm, ?_⟩
  obtain ⟨t, ps, ds, hworld, -⟩ := hs
  change (c.sim.perform n p).1.world.faults = []
  rw [hworld]
  exact (hq _ w hw).1

/-- A change that leaves peers, time and what is under way alone. -/
theorem Steady.modifyWorld (hc : c.Steady underway) (f : World → World)
    (hb : ∀ w, (f w).behaviours = w.behaviours) (ht : ∀ w, (f w).time = w.time)
    (ho : ∀ w, (f w).outbox = w.outbox) (hf : ∀ w, (f w).faults = w.faults) :
    Settles underway (f c.world) (f c.world) ∧ (c.modifyWorld f).Steady underway := by
  have hout : (f c.world).outbox = [] := (ho _).trans hc.calm.outbox
  refine ⟨.refl hout, ⟨hout, ?_, ?_⟩, (hf _).trans hc.faults⟩
  · exact hc.calm.late.of_behaviours (hb _)
  · intro x hx
    have hd := hc.calm.due x hx
    rw [← ht c.sim.world] at hd
    exact hd

/-- Messages under way to sessions that are not recording stay so when another session opens. -/
theorem hears_opened {n : Nat} {id : ConnectionId} {behaviour : Behaviour} {s : Session}
    (h : c.world.hears s = false) : (c.opened n id behaviour).world.hears s = false := by
  have hlt : s.serial < c.world.peers.length := by
    refine Nat.lt_of_not_le fun hle => ?_
    have hrecord : (c.world.peer s).behaviour = .record := by
      unfold World.peer
      rw [List.getElem?_eq_none hle]
      rfl
    simp [World.hears, hrecord] at h
  have hpeer : (c.opened n id behaviour).world.peer s = c.world.peer s := by
    have hget : (c.world.peers ++ [⟨id, behaviour, .empty, 0⟩])[s.serial]? =
        c.world.peers[s.serial]? := List.getElem?_append_left hlt
    exact congrArg (·.getD default) hget
  unfold World.hears at h ⊢
  rw [hpeer]
  exact h

theorem Steady.opened {n : Nat} {id : ConnectionId} {behaviour : Behaviour}
    (hc : c.Steady underway) : (c.opened n id behaviour).Steady underway := by
  refine ⟨⟨hc.calm.outbox, ?_, hc.calm.due⟩, hc.faults⟩
  intro x hx
  have hlate := hc.calm.late x hx
  cases hact : x.activity with
  | sending resume =>
    rw [hact] at hlate
    obtain ⟨d, hd, hu, hr⟩ := hlate
    exact ⟨d, hears_opened hd, hu, hr⟩
  | running j resume =>
    rw [hact] at hlate
    exact hlate.elim
  | idle j =>
    rw [hact] at hlate
    exact hlate.elim

/-- Only a poll leaves messages to be sent. -/
theorem effect_still (hw : c.world.Still) {i : Input} {o : Option i.Reply} {w : World}
    (hi : ∀ n, i ≠ .poll n) (h : c.Effect underway i o w) : w.Still := by
  cases i with
  | connect n id behaviour name =>
    have hopened : (c.opened n id behaviour).world.Still := ⟨hw.faults, hw.outbox⟩
    refine Attempt.elim h (fun _ ha => ha.still hopened) ?_
    rintro x v ⟨-, -, rfl⟩
    exact ⟨hw.faults, hw.outbox⟩
  | requirements k r =>
    obtain ⟨ks, -, hs, -⟩ := h
    exact hs.still hw
  | configSchema k d => exact declared_still h hw
  | ready k d =>
    refine Attempt.elim h (fun _ ha => ha.still hw) ?_
    rintro b v ⟨-, -, -, -, e, t, -, rfl⟩
    exact ⟨hw.faults, hw.outbox⟩
  | disconnect k =>
    obtain ⟨r, -, readings, t, -, -, rfl⟩ := h
    exact ⟨hw.faults, hw.outbox⟩
  | updateActive n m data =>
    refine Attempt.elim (h default) (fun _ ha => ha.still hw) ?_
    rintro row v ⟨-, w₁, t, ha, -, rfl⟩
    exact ⟨(ha.still hw).faults, (ha.still hw).outbox⟩
  | activate n id =>
    refine Attempt.elim (h default) (fun _ ha => ha.still hw) ?_
    rintro row v ⟨-, w₁, t, ha, -, rfl⟩
    exact ⟨(ha.still hw).faults, (ha.still hw).outbox⟩
  | clearPhantoms n =>
    refine Attempt.elim (h default) (fun _ ha => ha.still hw) ?_
    exact fun r v hr => removed_still hr.2 ⟨hw.faults, hw.outbox⟩
  | deleteOwn n =>
    refine Attempt.elim (h default) (fun _ ha => ha.still hw) ?_
    exact fun r v hr => removed_still hr.2 ⟨hw.faults, hw.outbox⟩
  | poll n => exact absurd rfl (hi n)
  | restart n =>
    obtain rfl := h
    exact ⟨hw.faults, hw.outbox⟩
  | call call =>
    obtain ⟨r, hr, -⟩ := h
    exact perform_still hr hw
  | appendEventAt p at_ =>
    obtain ⟨e, t, -, -, rfl⟩ := h
    exact ⟨hw.faults, hw.outbox⟩
  | lag | catchUp | setAvailable =>
    obtain rfl := h
    exact ⟨hw.faults, hw.outbox⟩

/-- Every step has its effect, then the messages of broadcasts are sent. -/
theorem apply_effect (hc : c.Steady underway) (i : Input)
    (hu : ∀ n, i = .poll n → ∀ l k, Simulation.Announced underway c.world (c.world.notices n l k))
    (hn : (c.apply i).2 ≠ .overflow) :
    ∃ w, c.Effect underway i (c.apply i).2.value? w ∧ Settles underway w (c.apply i).1.world ∧
      (c.apply i).1.Steady underway := by
  have hstill := hc.still
  -- Only a poll leaves messages in the outbox.
  have hq : (∀ n, i ≠ .poll n) → ∀ o w, c.Effect underway i o w →
      w.faults = [] ∧ Simulation.Announced underway w w.outbox := by
    intro hi o w h
    have hw := effect_still hstill hi h
    exact ⟨hw.faults, announced_of_still hw⟩
  cases i with
  | connect n id behaviour name =>
    have hopened : (c.opened n id behaviour).Steady underway := hc.opened
    exact perform_effect hopened (Action.ensures_iff.mp
      (Lifecycle.ensures_onConnect hopened.still)) (hq (by simp)) hn
  | requirements k r =>
    exact perform_effect hc (Action.ensures_iff.mp (Lifecycle.ensures_onRequirements hstill))
      (hq (by simp)) hn
  | configSchema k d =>
    exact perform_effect hc (Action.ensures_iff.mp (Lifecycle.ensures_onConfigSchema hstill))
      (hq (by simp)) hn
  | ready k d =>
    exact perform_effect hc (Action.ensures_iff.mp (Lifecycle.ensures_onReady hstill))
      (hq (by simp)) hn
  | disconnect k =>
    exact perform_effect hc (Action.ensures_iff.mp (Lifecycle.ensures_onDisconnect hstill))
      (hq (by simp)) hn
  | updateActive n m data =>
    exact perform_effect hc (Action.ensures_iff.mp (Action.Ensures.forall fun s =>
      ConfigWrite.ensures_updateActive (s := s) hstill.faults)) (hq (by simp)) hn
  | activate n id =>
    exact perform_effect hc (Action.ensures_iff.mp (Action.Ensures.forall fun s =>
      ConfigWrite.ensures_activate (s := s) hstill.faults)) (hq (by simp)) hn
  | clearPhantoms n =>
    exact perform_effect hc (Action.ensures_iff.mp (Action.Ensures.forall fun s =>
      Sweep.ensures_clearPhantoms (s := s) hstill.faults)) (hq (by simp)) hn
  | deleteOwn n =>
    exact perform_effect hc (Action.ensures_iff.mp (Action.Ensures.forall fun s =>
      Sweep.ensures_deleteOwn (s := s) hstill.faults)) (hq (by simp)) hn
  | poll n =>
    refine perform_effect hc (Action.ensures_iff.mp (Worker.ensures_poll hstill.faults
      (fun ha => .inl ⟨ha, rfl, rfl⟩) fun ha o w h => .inr ⟨ha, o, rfl, h⟩)) ?_ hn
    rintro o w (⟨-, -, rfl⟩ | ⟨-, outcome, -, hp⟩)
    · exact ⟨hstill.faults, announced_of_still hstill⟩
    · refine ⟨hp.faults.trans hstill.faults, fun m hm hh => ?_⟩
      obtain ⟨k, hm⟩ := hp.notice hstill.outbox hm
      exact hu n rfl _ k m hm ((hp.hears _).symm.trans hh)
  | restart n =>
    obtain ⟨hs, hsteady⟩ := hc.modifyWorld (fun w => w.modifyNode n fun st => { st with cursor := 0 })
      (fun _ => rfl) (fun _ => rfl) (fun _ => rfl) fun _ => rfl
    exact ⟨_, rfl, hs, hsteady⟩
  | call call =>
    refine perform_effect hc ((Prog.ensures_store hstill.faults).mpr ?_) (hq (by simp)) hn
    exact fun x hx => ⟨x.2, hx, rfl⟩
  | appendEventAt p at_ =>
    cases ht : c.world.store.live.append? p at_ with
    | none => simp [apply, ht] at hn
    | some x =>
      obtain ⟨e, t⟩ := x
      obtain ⟨hs, hsteady⟩ := hc.modifyWorld (fun w => w.write t) (fun _ => rfl) (fun _ => rfl)
        (fun _ => rfl) fun _ => rfl
      simp only [apply, ht]
      exact ⟨_, ⟨e, t, ht, rfl, rfl⟩, hs, hsteady⟩
  | lag =>
    obtain ⟨hs, hsteady⟩ := hc.modifyWorld (fun w => { w with store := w.store.lag })
      (fun _ => rfl) (fun _ => rfl) (fun _ => rfl) fun _ => rfl
    exact ⟨_, rfl, hs, hsteady⟩
  | catchUp =>
    obtain ⟨hs, hsteady⟩ := hc.modifyWorld (fun w => { w with store := w.store.catchUp })
      (fun _ => rfl) (fun _ => rfl) (fun _ => rfl) fun _ => rfl
    exact ⟨_, rfl, hs, hsteady⟩
  | setAvailable b =>
    obtain ⟨hs, hsteady⟩ := hc.modifyWorld
      (fun w => { w with store := { w.store with available := b } })
      (fun _ => rfl) (fun _ => rfl) (fun _ => rfl) fun _ => rfl
    exact ⟨_, rfl, hs, hsteady⟩

end Cluster

end ConfigRegistry
