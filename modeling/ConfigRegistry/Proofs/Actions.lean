import ConfigRegistry.Lifecycle
import ConfigRegistry.Proofs.Progress

/-!
# What actions ensure

`Action.Ensures` follows an action request by request: every rule says what a request
comes to in a world in which no call is tampered with. Readings of the clock, served
reads, ids that were made and errors told to a module leave everything else as it was;
they are collected in `World.Aside`, so a step is an effect between asides.
-/

namespace ConfigRegistry

open World (Passes Progress)

@[simp] theorem mapError_ok {α ε δ : Type} (f : ε → δ) (x : α) :
    Except.mapError f (.ok x) = .ok x := rfl

@[simp] theorem mapError_error {α ε δ : Type} (f : ε → δ) (e : ε) :
    Except.mapError (α := α) f (.error e) = .error (f e) := rfl

/-! ## Effects on a world -/

namespace World

/-- The world with other live tables. -/
def write (t : Tables) (w : World) : World := { w with store := { w.store with live := t } }

/-- The world after a read was served. -/
def served (w : World) : World := { w with store := { w.store with reads := w.store.reads + 1 } }

/-- The world after a connection joined a room of a node. -/
def joined (n : Nat) (r : Room) (c : ConnectionId) (w : World) : World :=
  w.setRooms n ((w.node n).rooms.join r c).2

section Fields

variable (w : World) (t : Tables) (n : Nat) (f : NodeState → NodeState) (s : Session) (g : Peer → Peer)

@[simp] theorem ticked_store : w.ticked.store = w.store := rfl
@[simp] theorem ticked_faults : w.ticked.faults = w.faults := rfl
@[simp] theorem ticked_outbox : w.ticked.outbox = w.outbox := rfl
@[simp] theorem ticked_node : w.ticked.node n = w.node n := rfl
@[simp] theorem ticked_peer : w.ticked.peer s = w.peer s := rfl
@[simp] theorem served_live : w.served.store.live = w.store.live := rfl
@[simp] theorem served_available : w.served.store.available = w.store.available := rfl
@[simp] theorem served_view (c : Consistency) : w.served.store.view c = w.store.view c := by
  cases c <;> rfl
@[simp] theorem served_faults : w.served.faults = w.faults := rfl
@[simp] theorem served_outbox : w.served.outbox = w.outbox := rfl
@[simp] theorem served_node : w.served.node n = w.node n := rfl
@[simp] theorem served_peer : w.served.peer s = w.peer s := rfl
@[simp] theorem write_live : (w.write t).store.live = t := rfl
@[simp] theorem write_available : (w.write t).store.available = w.store.available := rfl
@[simp] theorem write_faults : (w.write t).faults = w.faults := rfl
@[simp] theorem write_outbox : (w.write t).outbox = w.outbox := rfl
@[simp] theorem write_node : (w.write t).node n = w.node n := rfl
@[simp] theorem write_peer : (w.write t).peer s = w.peer s := rfl
@[simp] theorem write_reading : (w.write t).reading = w.reading := rfl
@[simp] theorem modifyNode_store : (w.modifyNode n f).store = w.store := rfl
@[simp] theorem modifyNode_faults : (w.modifyNode n f).faults = w.faults := rfl
@[simp] theorem modifyNode_outbox : (w.modifyNode n f).outbox = w.outbox := rfl
@[simp] theorem modifyNode_peer : (w.modifyNode n f).peer s = w.peer s := rfl
@[simp] theorem setRooms_store (x : RoomIndex) : (w.setRooms n x).store = w.store := rfl
@[simp] theorem setRooms_faults (x : RoomIndex) : (w.setRooms n x).faults = w.faults := rfl
@[simp] theorem setRooms_outbox (x : RoomIndex) : (w.setRooms n x).outbox = w.outbox := rfl
@[simp] theorem setRooms_peer (x : RoomIndex) : (w.setRooms n x).peer s = w.peer s := rfl
@[simp] theorem modifyPeer_store : (w.modifyPeer s g).store = w.store := rfl
@[simp] theorem modifyPeer_faults : (w.modifyPeer s g).faults = w.faults := rfl
@[simp] theorem modifyPeer_outbox : (w.modifyPeer s g).outbox = w.outbox := rfl
@[simp] theorem modifyPeer_node : (w.modifyPeer s g).node n = w.node n := rfl

@[simp] theorem nodes_modifyNode_length : (w.modifyNode n f).nodes.length = w.nodes.length :=
  List.length_modify ..

theorem node_modifyNode (hn : n < w.nodes.length) : (w.modifyNode n f).node n = f (w.node n) := by
  simp [node, modifyNode, List.getElem?_eq_getElem hn]

theorem node_modifyNode_ne {i : Nat} (hi : i ≠ n) : (w.modifyNode n f).node i = w.node i := by
  simp [node, modifyNode, Ne.symm hi]

end Fields

/-- A change of one node changes at most that one. -/
theorem node_modifyNode_cases (n i : Nat) (f : NodeState → NodeState) (w : World) :
    (w.modifyNode n f).node i = w.node i ∨
      i = n ∧ (w.modifyNode n f).node i = f (w.node i) := by
  by_cases hi : i = n
  · subst hi
    by_cases hlt : i < w.nodes.length
    · exact .inr ⟨rfl, node_modifyNode w i f hlt⟩
    · have hnone : (w.modifyNode i f).nodes[i]? = w.nodes[i]? := by
        rw [List.getElem?_eq_none (Nat.le_of_not_lt hlt), List.getElem?_eq_none]
        rw [nodes_modifyNode_length]
        exact Nat.le_of_not_lt hlt
      refine .inl ?_
      unfold node
      rw [hnone]
  · exact .inl (node_modifyNode_ne w n f hi)

/-- What a change of one peer leaves alone it leaves alone of every peer. -/
theorem peer_modifyPeer {α : Type} (s s' : Session) (f : Peer → Peer) (g : Peer → α)
    (hg : s'.serial ≠ s.serial ∨ ∀ p, g (f p) = g p) (w : World) :
    g ((w.modifyPeer s f).peer s') = g (w.peer s') := by
  unfold peer modifyPeer
  simp only [List.getElem?_modify]
  cases w.peers[s'.serial]? with
  | none => rfl
  | some p =>
    rcases hg with hne | hg
    · simp [Ne.symm hne]
    · by_cases hs : s.serial = s'.serial <;> simp [hs, hg]

/-- No call is tampered with and no message is left to be sent. -/
structure Still (w : World) : Prop where
  faults : w.faults = []
  outbox : w.outbox = []

/-- Whether a message tells a session of an error that its module caused. -/
def Tells (s : Session) (d : Delivery) : Prop :=
  ∃ e : LifecycleError, e.isDataIntegrity ∧ d = ⟨s, Lifecycle.errorMessage, Lifecycle.errorPayload e⟩

/-- Time passes, the clock is read, ids are made, reads are served, and errors are told to a
session; nothing else changes. -/
def Aside (underway : Delivery → Prop) (s : Session) (w w' : World) : Prop :=
  ∃ time readings issued reads peers arrived,
    w' = { w with
      time := time
      readings := readings
      issued := issued
      store := { w.store with reads := reads }
      peers := peers
      deliveries := arrived ++ w.deliveries } ∧
    w.readings ≤ readings ∧ w.issued ≤ issued ∧
    peers.map Peer.face = w.peers.map Peer.face ∧
    ∀ d ∈ arrived, w.hears d.recipient = false ∧ underway d ∨ Tells s d

variable {underway : Delivery → Prop} {s : Session} {w w' w₁ w₂ : World}

theorem Aside.refl (w : World) : Aside underway s w w :=
  ⟨w.time, w.readings, w.issued, w.store.reads, w.peers, [], rfl, Nat.le_refl _, Nat.le_refl _, rfl,
    by simp⟩

theorem Aside.trans (h₁ : Aside underway s w w₁) (h₂ : Aside underway s w₁ w₂) :
    Aside underway s w w₂ := by
  obtain ⟨t₁, r₁, i₁, q₁, ps₁, ds₁, rfl, hr₁, hi₁, hf₁, hd₁⟩ := h₁
  obtain ⟨t₂, r₂, i₂, q₂, ps₂, ds₂, rfl, hr₂, hi₂, hf₂, hd₂⟩ := h₂
  refine ⟨t₂, r₂, i₂, q₂, ps₂, ds₂ ++ ds₁, by simp, Nat.le_trans hr₁ hr₂, Nat.le_trans hi₁ hi₂, hf₂.trans hf₁, ?_⟩
  intro d hd
  rcases List.mem_append.mp hd with hd | hd
  · refine (hd₂ d hd).imp_left ?_
    rintro ⟨hh, hu⟩
    rw [hears_of_faces (w := w) hf₁] at hh
    exact ⟨hh, hu⟩
  · exact hd₁ d hd

theorem Aside.passes (h : Passes underway w w') : Aside underway s w w' := by
  obtain ⟨t, ps, ds, rfl, hf, hd⟩ := h
  exact ⟨t, w.readings, w.issued, w.store.reads, ps, ds, rfl, Nat.le_refl _, Nat.le_refl _, hf,
    fun d hm => .inl (hd d hm)⟩

theorem Aside.ticked (w : World) : Aside underway s w w.ticked :=
  ⟨w.time, w.readings + 1, w.issued, w.store.reads, w.peers, [], rfl, Nat.le_succ _, Nat.le_refl _,
    rfl, by simp⟩

theorem Aside.served (w : World) : Aside underway s w w.served :=
  ⟨w.time, w.readings, w.issued, w.store.reads + 1, w.peers, [], rfl, Nat.le_refl _, Nat.le_refl _,
    rfl, by simp⟩

theorem Aside.issued (w : World) : Aside underway s w { w with issued := w.issued + 1 } :=
  ⟨w.time, w.readings, w.issued + 1, w.store.reads, w.peers, [], rfl, Nat.le_refl _, Nat.le_succ _,
    rfl, by simp⟩

theorem Aside.told {e : LifecycleError} (he : e.isDataIntegrity) (w : World) :
    Aside underway s w (w.accept s Lifecycle.errorMessage (Lifecycle.errorPayload e)) := by
  refine ⟨w.time, w.readings, w.issued, w.store.reads, _,
    [⟨s, Lifecycle.errorMessage, Lifecycle.errorPayload e⟩], rfl, Nat.le_refl _, Nat.le_refl _,
    faces_modify_accepted _ _ _, ?_⟩
  intro d hd
  obtain rfl := List.mem_singleton.mp hd
  exact .inr ⟨e, he, rfl⟩

theorem Aside.faces (h : Aside underway s w w') : w'.peers.map Peer.face = w.peers.map Peer.face := by
  obtain ⟨t, r, i, q, ps, ds, rfl, -, -, hf, -⟩ := h
  exact hf

theorem Aside.live (h : Aside underway s w w') : w'.store.live = w.store.live := by
  obtain ⟨t, r, i, q, ps, ds, rfl, -⟩ := h
  rfl

theorem Aside.frozen (h : Aside underway s w w') : w'.store.frozen = w.store.frozen := by
  obtain ⟨t, r, i, q, ps, ds, rfl, -⟩ := h
  rfl

theorem Aside.write (h : Aside underway s w w') (t : Tables) :
    Aside underway s (w.write t) (w'.write t) := by
  obtain ⟨time, r, i, q, ps, ds, rfl, hr, hi, hf, hd⟩ := h
  exact ⟨time, r, i, q, ps, ds, rfl, hr, hi, hf, hd⟩

theorem Aside.still (h : Aside underway s w w') (hw : w.Still) : w'.Still := by
  obtain ⟨t, r, i, q, ps, ds, rfl, -, -, hf, -⟩ := h
  exact ⟨hw.faults, hw.outbox⟩

/-- What comes of a step that does one thing or fails before it: a failure leaves all but asides
as it was. -/
inductive Attempt {ε α : Type} (underway : Delivery → Prop) (s : Session) (w : World)
    (done : α → World → Prop) : Option (Except ε α) → World → Prop
  | failed {o : Option (Except ε α)} {v : World} (h : Aside underway s w v)
      (ho : ∀ x, o ≠ some (.ok x)) : Attempt underway s w done o v
  | succeeded {x : α} {v : World} (h : done x v) : Attempt underway s w done (some (.ok x)) v

/-- What holds behind asides and behind a success holds behind an attempt. -/
theorem Attempt.elim {ε α : Type} {P : World → Prop} {done : α → World → Prop}
    {o : Option (Except ε α)} {v : World} (h : Attempt underway s w done o v)
    (ha : ∀ v, Aside underway s w v → P v) (hd : ∀ x v, done x v → P v) : P v := by
  cases h with
  | failed h _ => exact ha _ h
  | succeeded h => exact hd _ _ h

/-! ## Calls -/

end World

/-- The error of every call to a store that cannot be reached. -/
def StoreError.unreachable : StoreError := .unavailable Store.unavailableReason

namespace World

variable {underway : Delivery → Prop} {s : Session} {w w' w₁ w₂ : World}

/-- Reading the clock leaves the store alone. -/
theorem answer_ticked (w : World) (c : Store.Call) :
    (if c.readsClock then w.ticked else w).store.answer w.reading c =
      w.store.answer w.reading c := by
  cases c.readsClock <;> rfl

/-- What a call comes to is what the store answers. -/
theorem perform_of_answer {c : Store.Call} {o : Store.Outcome c.Result} :
    w.store.answer w.reading c = o → w.perform c =
      match o with
      | .ok x s => some ({ (if c.readsClock then w.ticked else w) with store := s }, .ok x)
      | .error e => some (if c.readsClock then w.ticked else w, .error e)
      | .overflow => none := by
  intro h
  rw [← answer_ticked] at h
  subst h
  rfl

/-- A store that can be reached serves a call. -/
theorem perform_available (c : Store.Call) (h : w.store.available = true) :
    w.perform c =
      match w.store.serve w.reading c with
      | .ok x s => some ({ (if c.readsClock then w.ticked else w) with store := s }, .ok x)
      | .error e => some (if c.readsClock then w.ticked else w, .error e)
      | .overflow => none :=
  perform_of_answer (if_pos h)

/-- A store that cannot be reached answers every call with the same error. -/
theorem perform_unavailable (c : Store.Call) (h : w.store.available = false) :
    w.perform c = some (if c.readsClock then w.ticked else w,
      .error (.unavailable Store.unavailableReason)) := by
  have hreach : ¬ w.store.available = true := by simp [h]
  exact perform_of_answer (if_neg hreach)

/-- What comes of a call: the store serves it, or there is an error and all but the clock is as it was. -/
inductive Performed (call : Store.Call) (w : World) : World → Except StoreError call.Result → Prop
  | served {x : call.Result} {st : Store} (ha : w.store.available = true)
      (h : w.store.serve w.reading call = .ok x st) :
      Performed call w { (if call.readsClock then w.ticked else w) with store := st } (.ok x)
  | failed (e : StoreError) : Performed call w (if call.readsClock then w.ticked else w) (.error e)

theorem performed {call : Store.Call} {r : Except StoreError call.Result}
    (h : w.perform call = some (w', r)) : Performed call w w' r := by
  cases ha : w.store.available with
  | false =>
    cases (perform_unavailable call ha).symm.trans h
    exact .failed _
  | true =>
    rw [perform_available call ha] at h
    cases hs : w.store.serve w.reading call with
    | ok x st =>
      rw [hs] at h
      cases h
      exact .served ha hs
    | error e =>
      rw [hs] at h
      cases h
      exact .failed e
    | overflow =>
      rw [hs] at h
      cases h

/-- A call that is not tampered with is answered at once. -/
theorem answer_store (hf : w.faults = []) {n : Nat} {limit : Option Nat} {c : Store.Call} :
    w.answer n (.store limit c) = w.replyAfter 0 (perform c) := by
  simp [answer, callStore, takeFault, Table.find?, hf]

/-! ## Sending with a deadline -/

/-- What a program sees of the sending of a message: it arrives, perhaps later, at a session that is
not deaf; or the recipient is not recording and it is refused, or the program is given up meanwhile. -/
inductive Emission (underway : Delivery → Prop) (s : Session) (event : String) (payload : Bytes)
    (w : World) : Option (Except TransportError Unit) → World → Prop
  | arrives {v : World} (h : Passes underway w v) (ha : w.deaf s = false) :
      Emission underway s event payload w (some (.ok ())) (v.accept s event payload)
  | refused {v : World} (e : TransportError) (hs : w.hears s = false) (h : Passes underway w v) :
      Emission underway s event payload w (some (.error e)) v
  | abandoned {v : World} (hs : w.hears s = false) (h : Passes underway w v) :
      Emission underway s event payload w none v

end World

/-! ## Rules for programs -/

namespace World.Progress

variable {α β ε : Type}

/-- What holds behind an action when `next` is done with its value. -/
@[simp] def afterOk (post : Option (Except ε β) → World → Prop) (next : α → World → Prop) :
    Option (Except ε α) → World → Prop
  | some (.ok x), w => next x w
  | some (.error e), w => post (some (.error e)) w
  | none, w => post none w

end World.Progress

variable {α β ε : Type} {underway : Delivery → Prop} {n : Nat} {w : World}

/-- What an answer ensures once it is given, or the asker is given up. -/
def Answer.Ensures (underway : Delivery → Prop) (post : Option β → World → Prop) : Answer β → Prop
  | .now w reply => post (some reply) w
  | .later w _ reply => w.outbox = [] ∧ ∀ w', Passes underway w w' →
      post none w' ∧ ∀ x, reply w' = some x → post (some x.2) x.1
  | .never w => w.outbox = [] ∧ ∀ w', Passes underway w w' → post none w'
  | .overflow => True

/-- What a program of a node ensures wherever it ends, or is given up. -/
def Prog.Ensures (n : Nat) (underway : Delivery → Prop) (post : Option α → World → Prop)
    (p : Prog α) (w : World) : Prop := (w.run n p).Ensures underway post

/-- What an action of a node ensures wherever it ends, or is given up. -/
def Action.Ensures (n : Nat) (underway : Delivery → Prop)
    (post : Option (Except ε α) → World → Prop) (a : Action ε α) (w : World) : Prop :=
  a.outcome.Ensures n underway post w

namespace Prog

variable {post post' : Option α → World → Prop}

theorem Ensures.mono {p : Prog α} (hp : p.Ensures n underway post w)
    (h : ∀ o w, post o w → post' o w) : p.Ensures n underway post' w :=
  World.Progress.Ensures.mono h hp

theorem ensures_iff {p : Prog α} :
    p.Ensures n underway post w ↔ (w.run n p).Ensures underway post := .rfl

@[simp] theorem ensures_pure {x : α} : (pure x : Prog α).Ensures n underway post w ↔ post (some x) w := .rfl

@[simp] theorem ensures_bind {p : Prog β} {f : β → Prog α} :
    (p >>= f).Ensures n underway post w ↔ p.Ensures n underway
      (World.Progress.after post fun w x => (f x).Ensures n underway post w) w := by
  unfold Ensures
  rw [World.run_bind', World.Progress.ensures_andThen]

theorem ensures_request {r : Request} {post : Option r.Reply → World → Prop} :
    (Prog.request r).Ensures n underway post w ↔ (w.answer n r).Ensures underway post := by
  simp only [Ensures, Prog.request, World.run]
  cases w.answer n r with
  | now v reply => exact .rfl
  | later v due reply =>
    simp only [World.Progress.Ensures, Answer.Ensures]
    refine and_congr_right fun _ => forall_congr' fun w' => imp_congr_right fun _ => ?_
    refine and_congr_right fun _ => ?_
    cases reply w' with
    | none => simp [World.Progress.Ensures]
    | some x => simp [World.Progress.Ensures]
  | never v => exact .rfl
  | overflow => exact .rfl

/-- A call to the store is answered at once. -/
theorem ensures_store {limit : Option Nat} {call : Store.Call}
    {post : Option (Except StoreError call.Result) → World → Prop} (hw : w.faults = []) :
    (Prog.request (.store limit call)).Ensures n underway post w ↔
      ∀ x, w.perform call = some x → post (some x.2) x.1 := by
  refine (ensures_request (r := .store limit call)).trans ?_
  rw [World.answer_store hw, World.replyAfter, if_pos rfl]
  cases h : w.perform call with
  | none => simp [Answer.Ensures]
  | some x => simp [Answer.Ensures]

/-- A message is sent. -/
theorem ensures_emit {limit : Option Nat} {s : Session} {event : String} {payload : Bytes}
    {post : Option (Except TransportError Unit) → World → Prop} (ho : w.outbox = [])
    (hp : ∀ o w', World.Emission underway s event payload w o w' → post o w') :
    (Prog.request (.emit limit s event payload)).Ensures n underway post w := by
  refine (ensures_request (r := .emit limit s event payload)).mpr ?_
  have hsend := World.sendTo_sending limit s event payload w
  change (w.sendTo limit s event payload).Ensures underway post
  generalize w.sendTo limit s event payload = answer at hsend
  cases hsend with
  | arrives ha => exact hp _ _ (.arrives (.refl w) ha)
  | refused e hs => exact hp _ _ (.refused e hs (.refl w))
  | delayed hs hd ha =>
    refine ⟨ho, fun w' h => ⟨hp _ _ (.abandoned hs h), ?_⟩⟩
    intro x hx
    obtain rfl := Option.some.inj hx
    exact hp _ _ (.arrives h ha)
  | expires e hs hd =>
    refine ⟨ho, fun w' h => ⟨hp _ _ (.abandoned hs h), ?_⟩⟩
    intro x hx
    obtain rfl := Option.some.inj hx
    exact hp _ _ (.refused e hs h)
  | lost hs => exact ⟨ho, fun w' h => hp _ _ (.abandoned hs h)⟩

end Prog

/-! ## Rules for actions -/

namespace Action

variable {post post' : Option (Except ε α) → World → Prop}

theorem Ensures.forall {ι : Type} [Nonempty ι] {post : ι → Option (Except ε α) → World → Prop}
    {a : Action ε α} (ha : ∀ i, a.Ensures n underway (post i) w) :
    a.Ensures n underway (fun o w => ∀ i, post i o w) w :=
  World.Progress.Ensures.forall ha

theorem ensures_iff {a : Action ε α} :
    a.Ensures n underway post w ↔ a.outcome.Ensures n underway post w := .rfl

theorem Ensures.mono {a : Action ε α} (ha : a.Ensures n underway post w)
    (h : ∀ o w, post o w → post' o w) : a.Ensures n underway post' w :=
  Prog.Ensures.mono ha h

@[simp] theorem ensures_pure {x : α} :
    (pure x : Action ε α).Ensures n underway post w ↔ post (some (.ok x)) w := .rfl

@[simp] theorem ensures_throw {e : ε} :
    (throw e : Action ε α).Ensures n underway post w ↔ post (some (.error e)) w := .rfl

@[simp] theorem ensures_ofExcept {r : Except ε α} :
    (MonadExcept.ofExcept r : Action ε α).Ensures n underway post w ↔ post (some r) w := by
  cases r <;> exact .rfl

theorem outcome_bind {a : Action ε β} {f : β → Action ε α} :
    (a >>= f).outcome = a.outcome >>= fun
      | .ok x => (f x).outcome
      | .error e => pure (.error e) := by
  simp only [outcome]
  change ExceptT.bind a f = _
  simp only [ExceptT.bind, ExceptT.mk]
  congr 1
  funext r
  cases r <;> rfl

@[simp] theorem ensures_bind {a : Action ε β} {f : β → Action ε α} :
    (a >>= f).Ensures n underway post w ↔ a.Ensures n underway
      (Progress.afterOk post fun x w => (f x).Ensures n underway post w) w := by
  unfold Ensures
  rw [outcome_bind, Prog.ensures_bind]
  apply iff_of_eq
  congr 1
  funext o w
  rcases o with _ | _ | _ <;> rfl

theorem outcome_lift {p : Prog α} :
    outcome (ExceptT.lift p : Action ε α) = p >>= fun x => pure (Except.ok x) := by
  change Functor.map Except.ok p = _
  rw [map_eq_pure_bind]

@[simp] theorem ensures_lift {p : Prog α} :
    Action.Ensures n underway post (ExceptT.lift p) w ↔
      p.Ensures n underway (fun o w => post (o.map .ok) w) w := by
  unfold Ensures
  rw [outcome_lift, Prog.ensures_bind]
  apply iff_of_eq
  congr 1
  funext o w
  cases o <;> rfl

theorem outcome_mapError {δ : Type} {f : δ → ε} {a : Action δ α} :
    (a.mapError f).outcome = a.outcome >>= fun r => pure (r.mapError f) := by
  unfold mapError outcome
  simp only [ExceptT.mk, ExceptT.run]
  congr 1
  funext r
  cases r <;> rfl

theorem ensures_mapError {δ : Type} {f : δ → ε} {a : Action δ α} :
    (a.mapError f).Ensures n underway post w ↔
      a.Ensures n underway (fun o w => post (o.map (Except.mapError f)) w) w := by
  unfold Ensures
  rw [outcome_mapError, Prog.ensures_bind]
  apply iff_of_eq
  congr 1
  funext o w
  rcases o with _ | _ | _ <;> rfl

@[simp] theorem ensures_outcome {a : Action ε α} :
    a.outcome.Ensures n underway post w ↔ a.Ensures n underway post w := .rfl

theorem ensures_call {limit : Nat} {c : Store.Call}
    {post : Option (Except StoreError c.Result) → World → Prop} (hw : w.faults = []) :
    (call limit c).Ensures n underway post w ↔
      ∀ x, w.perform c = some x → post (some x.2) x.1 := Prog.ensures_store hw

theorem ensures_call_mapError {limit : Nat} {c : Store.Call} {f : StoreError → ε}
    {post : Option (Except ε c.Result) → World → Prop} (hw : w.faults = []) :
    ((call limit c).mapError f).Ensures n underway post w ↔
      ∀ x, w.perform c = some x → post (some (x.2.mapError f)) x.1 := by
  rw [ensures_mapError, ensures_call hw]
  rfl

theorem ensures_emit {limit : Nat} {s : Session} {event : String} {payload : Bytes}
    {post : Option (Except TransportError Unit) → World → Prop} (ho : w.outbox = [])
    (hp : ∀ o w', World.Emission underway s event payload w o w' → post o w') :
    (emit limit s event payload).Ensures n underway post w := Prog.ensures_emit ho hp

/-! ### Calls of the store

Here the store can be reached; each rule says what one call answers and writes. -/

section Calls

variable {limit : Nat} {f : StoreError → ε}

theorem ensures_call_unavailable {c : Store.Call} {post : Option (Except ε c.Result) → World → Prop}
    (hf : w.faults = []) (ha : w.store.available = false) :
    ((call limit c).mapError f).Ensures n underway post w ↔
      post (some (.error (f .unreachable))) (if c.readsClock then w.ticked else w) := by
  rw [ensures_call_mapError hf]
  simp [World.perform_unavailable _ ha, StoreError.unreachable]

theorem ensures_call_ok {c : Store.Call} {x : c.Result} {st : Store}
    {post : Option (Except ε c.Result) → World → Prop} (hf : w.faults = [])
    (ha : w.store.available = true) (hs : w.store.serve w.reading c = .ok x st) :
    ((call limit c).mapError f).Ensures n underway post w ↔
      post (some (.ok x)) { (if c.readsClock then w.ticked else w) with store := st } := by
  rw [ensures_call_mapError hf]
  simp [World.perform_available _ ha, hs]

variable (hf : w.faults = []) (ha : w.store.available = true)

include hf ha

theorem ensures_appendEvent {p : EventPayload} {post : Option (Except ε Event) → World → Prop} :
    ((call limit (.appendEvent p)).mapError f).Ensures n underway post w ↔
      ∀ e t, w.store.live.append? p w.reading = some (e, t) →
        post (some (.ok e)) (w.ticked.write t) := by
  rw [ensures_call_mapError (c := .appendEvent p) hf, World.perform_available _ ha]
  simp only [Store.serve]
  cases w.store.live.append? p w.reading with
  | none => simp [Store.Outcome.ofWrite]
  | some x =>
    obtain ⟨_, t⟩ := x
    simp [Store.Outcome.ofWrite, Store.Call.readsClock, World.write]

theorem ensures_appendEvents {ps : List EventPayload}
    {post : Option (Except ε (List Event)) → World → Prop} :
    ((call limit (.appendEvents ps)).mapError f).Ensures n underway post w ↔
      ∀ es t, Tables.appendAll? w.reading ps w.store.live = some (es, t) →
        post (some (.ok es)) (w.ticked.write t) := by
  rw [ensures_call_mapError (c := .appendEvents ps) hf, World.perform_available _ ha]
  simp only [Store.serve]
  cases Tables.appendAll? w.reading ps w.store.live with
  | none => simp [Store.Outcome.ofWrite]
  | some x =>
    obtain ⟨_, t⟩ := x
    simp [Store.Outcome.ofWrite, Store.Call.readsClock, World.write]

theorem ensures_upsertModule {m : ModuleId} {name : String} {now : Timestamp}
    {post : Option (Except ε Module) → World → Prop} :
    ((call limit (.upsertModule m name now)).mapError f).Ensures n underway post w ↔
      post (some (.ok (w.store.live.upsertModule m name now).1))
        (w.write (w.store.live.upsertModule m name now).2) :=
  ensures_call_ok (c := .upsertModule m name now) hf ha rfl

theorem ensures_markDisconnected {m : ModuleId} {now : Timestamp}
    {post : Option (Except ε Unit) → World → Prop} :
    ((call limit (.markDisconnected m now)).mapError f).Ensures n underway post w ↔
      post (some (.ok ())) (w.write (w.store.live.markDisconnected m now)) :=
  ensures_call_ok (c := .markDisconnected m now) hf ha rfl

theorem ensures_insertBackend {b : Backend} {post : Option (Except ε Unit) → World → Prop} :
    ((call limit (.insertBackend b)).mapError f).Ensures n underway post w ↔
      post (some (.ok ())) (w.write (w.store.live.insertBackend b)) :=
  ensures_call_ok (c := .insertBackend b) hf ha rfl

theorem ensures_deleteBackend {c : ConnectionId}
    {post : Option (Except ε (Option Backend)) → World → Prop} :
    ((call limit (.deleteBackend c)).mapError f).Ensures n underway post w ↔
      post (some (.ok (w.store.live.deleteBackend c).1))
        (w.write (w.store.live.deleteBackend c).2) :=
  ensures_call_ok (c := .deleteBackend c) hf ha rfl

theorem ensures_deleteBackends {cs : List ConnectionId}
    {post : Option (Except ε (List Backend)) → World → Prop} :
    ((call limit (.deleteBackends cs)).mapError f).Ensures n underway post w ↔
      post (some (.ok (Tables.deleteBackends cs w.store.live).1))
        (w.write (Tables.deleteBackends cs w.store.live).2) :=
  ensures_call_ok (c := .deleteBackends cs) hf ha rfl

theorem ensures_backendsByNode {node : NodeId} {c : Consistency}
    {post : Option (Except ε (List Backend)) → World → Prop} :
    ((call limit (.backendsByNode node c)).mapError f).Ensures n underway post w ↔
      post (some (.ok ((w.store.view c).backendsByNode node))) w.served :=
  ensures_call_ok (c := .backendsByNode node c) hf ha rfl

theorem ensures_activeConfig {m : ModuleId} {c : Consistency}
    {post : Option (Except ε (Option Config)) → World → Prop} :
    ((call limit (.activeConfig m c)).mapError f).Ensures n underway post w ↔
      post (some (.ok ((w.store.view c).activeConfig m))) w.served :=
  ensures_call_ok (c := .activeConfig m c) hf ha rfl

theorem ensures_missingVariables {names : List String} {c : Consistency}
    {post : Option (Except ε (List String)) → World → Prop} :
    ((call limit (.missingVariables names c)).mapError f).Ensures n underway post w ↔
      post (some (.ok ((w.store.view c).missingVariables names))) w.served :=
  ensures_call_ok (c := .missingVariables names c) hf ha rfl

theorem ensures_insertConfig {c : Config} {post : Option (Except ε Unit) → World → Prop} :
    ((call limit (.insertConfig c)).mapError f).Ensures n underway post w ↔
      post (some (.ok ())) (w.write (w.store.live.insertConfig c)) :=
  ensures_call_ok (c := .insertConfig c) hf ha rfl

theorem ensures_linkVariables {id : ConfigId} {names : List String}
    {post : Option (Except ε Unit) → World → Prop} :
    ((call limit (.linkVariables id names)).mapError f).Ensures n underway post w ↔
      post (some (.ok ())) (w.write (w.store.live.linkVariables id names)) :=
  ensures_call_ok (c := .linkVariables id names) hf ha rfl

theorem ensures_upsertSchema {schema : ConfigSchema} {post : Option (Except ε Unit) → World → Prop} :
    ((call limit (.upsertSchema schema)).mapError f).Ensures n underway post w ↔
      post (some (.ok ())) (w.write (w.store.live.upsertSchema schema)) :=
  ensures_call_ok (c := .upsertSchema schema) hf ha rfl

theorem ensures_updateConfigData {id : ConfigId} {data : Bytes}
    {post : Option (Except ε Config) → World → Prop} :
    ((call limit (.updateConfigData id data)).mapError f).Ensures n underway post w ↔
      match w.store.live.config id with
      | none => post (some (.error (f (Store.noConfig id)))) w.ticked
      | some c => ∀ c' t, w.store.live.updateConfigData? c data w.reading = some (c', t) →
          post (some (.ok c')) (w.ticked.write t) := by
  rw [ensures_call_mapError (c := .updateConfigData id data) hf, World.perform_available _ ha]
  simp only [Store.serve]
  cases w.store.live.config id with
  | none => simp [Store.Call.readsClock]
  | some c =>
    simp only
    cases w.store.live.updateConfigData? c data w.reading with
    | none => simp [Store.Outcome.ofWrite]
    | some x =>
    obtain ⟨_, t⟩ := x
    simp [Store.Outcome.ofWrite, Store.Call.readsClock, World.write]

theorem ensures_activateConfig {id : ConfigId} {post : Option (Except ε Config) → World → Prop} :
    ((call limit (.activateConfig id)).mapError f).Ensures n underway post w ↔
      match w.store.live.config id with
      | none => post (some (.error (f (Store.noConfig id)))) w
      | some c => post (some (.ok (w.store.live.activateConfig c).1))
          (w.write (w.store.live.activateConfig c).2) := by
  rw [ensures_call_mapError (c := .activateConfig id) hf, World.perform_available _ ha]
  simp only [Store.serve]
  cases w.store.live.config id with
  | none => simp [Store.Call.readsClock]
  | some c => simp [Store.Outcome.ofWrite, Store.Call.readsClock, World.write]

end Calls

/-! ### Requests that are answered at once -/

section Requests

variable {s : Session} {c : ConnectionId}

@[simp] theorem ensures_clock {post : Option (Except ε Timestamp) → World → Prop} :
    (ask .clock).Ensures n underway post w ↔ post (some (.ok w.reading)) w.ticked := .rfl

@[simp] theorem ensures_freshConfigId {post : Option (Except ε ConfigId) → World → Prop} :
    (ask .freshConfigId).Ensures n underway post w ↔
      post (some (.ok (.nth (w.issued + 1)))) { w with issued := w.issued + 1 } := .rfl

@[simp] theorem ensures_context {post : Option (Except ε SessionContext) → World → Prop} :
    (ask (.context s)).Ensures n underway post w ↔ post (some (.ok (w.peer s).context)) w := .rfl

@[simp] theorem ensures_identify {m : ModuleId} {name : String} {post : Option (Except ε Unit) → World → Prop} :
    (ask (.identify s m name)).Ensures n underway post w ↔
      post (some (.ok ())) (w.modifyPeer s fun p =>
        { p with context := { p.context with moduleId := some m, moduleName := some name } }) := .rfl

@[simp] theorem ensures_attach {b : Backend} {post : Option (Except ε Unit) → World → Prop} :
    (ask (.attach s b)).Ensures n underway post w ↔
      post (some (.ok ())) (w.modifyPeer s fun p =>
        { p with context := { p.context with backend := some b } }) := .rfl

@[simp] theorem ensures_detach {post : Option (Except ε (Option Backend)) → World → Prop} :
    (ask (.detach s)).Ensures n underway post w ↔
      post (some (.ok (w.peer s).context.backend)) (w.modifyPeer s fun p =>
        { p with context := { p.context with backend := none } }) := .rfl

@[simp] theorem ensures_register {post : Option (Except ε Unit) → World → Prop} :
    (ask (.register s)).Ensures n underway post w ↔
      post (some (.ok ())) (w.setRooms n ((w.node n).rooms.register s)) := .rfl

@[simp] theorem ensures_unregister {post : Option (Except ε Bool) → World → Prop} :
    (ask (.unregister c)).Ensures n underway post w ↔
      post (some (.ok ((w.node n).rooms.unregister c).1))
        (w.setRooms n ((w.node n).rooms.unregister c).2) := .rfl

@[simp] theorem ensures_connected {cs : List ConnectionId}
    {post : Option (Except ε (List ConnectionId)) → World → Prop} :
    (ask (.connected cs)).Ensures n underway post w ↔
      post (some (.ok (cs.filter fun c => (w.node n).rooms.isConnected c))) w := .rfl

@[simp] theorem ensures_join {r : Room} {post : Option (Except ε Bool) → World → Prop} :
    (ask (.join r c)).Ensures n underway post w ↔
      post (some (.ok ((w.node n).rooms.join r c).1)) (w.joined n r c) := .rfl

@[simp] theorem ensures_members {r : Room} {post : Option (Except ε (List Session)) → World → Prop} :
    (ask (.members r)).Ensures n underway post w ↔
      post (some (.ok ((w.node n).rooms.members r))) w := .rfl

@[simp] theorem ensures_cursor {post : Option (Except ε EventId) → World → Prop} :
    (ask .cursor).Ensures n underway post w ↔ post (some (.ok (w.node n).cursor)) w := .rfl

@[simp] theorem ensures_moveCursor {id : EventId} {post : Option (Except ε Unit) → World → Prop} :
    (ask (.moveCursor id)).Ensures n underway post w ↔
      post (some (.ok ())) (w.modifyNode n fun st => { st with cursor := id }) := .rfl

@[simp] theorem ensures_broadcast {limit : Nat} {recipients : List Session} {event : String} {payload : Bytes}
    {post : Option (Except ε Unit) → World → Prop} :
    (ask (.broadcast limit recipients event payload)).Ensures n underway post w ↔
      post (some (.ok ())) { w with outbox := w.outbox ++ recipients.map (⟨limit, ·, event, payload⟩) } :=
  .rfl

end Requests

end Action

/-- What holds behind a transition whose errors are told to the module that caused them. -/
def World.Progress.reported (underway : Delivery → Prop) (s : Session)
    (post : Option (Except LifecycleError α) → World → Prop) :
    Option (Except LifecycleError α) → World → Prop
  | some (.ok x), w => post (some (.ok x)) w
  | some (.error e), w => w.outbox = [] ∧ ∀ o w', World.Aside underway s w w' →
      o = some (.error e) ∨ o = none → post o w'
  | none, w => post none w

theorem Lifecycle.ensures_report {s : Session} {a : Action LifecycleError α}
    {post : Option (Except LifecycleError α) → World → Prop}
    (ha : a.Ensures n underway (Progress.reported underway s post) w) :
    (Lifecycle.report s a).Ensures n underway post w := by
  unfold Lifecycle.report Action.Ensures
  change Prog.Ensures n underway post (_ >>= _) w
  rw [Prog.ensures_bind]
  refine Prog.Ensures.mono ha ?_
  intro o w ho
  rcases o with _ | e | x
  · exact ho
  · obtain ⟨hout, ho⟩ := ho
    simp only [World.Progress.after]
    by_cases he : e.isDataIntegrity
    · simp only [he, ↓reduceIte, bind_pure_comp]
      rw [map_eq_pure_bind, Prog.ensures_bind]
      refine Prog.ensures_emit hout ?_
      intro r w' hr
      cases hr with
      | arrives h _ => exact ho _ _ ((World.Aside.passes h).trans (.told he _)) (.inl rfl)
      | refused _ _ h => exact ho _ _ (.passes h) (.inl rfl)
      | abandoned _ h => exact ho _ _ (.passes h) (.inr rfl)
    · simp only [he, Bool.false_eq_true, ↓reduceIte, Prog.ensures_pure]
      exact ho _ _ (.refl w) (.inl rfl)
  · exact ho

-- From here on only the rules open these: a search that computes the program would not end soon.
attribute [irreducible] Prog.Ensures Action.Ensures

end ConfigRegistry
