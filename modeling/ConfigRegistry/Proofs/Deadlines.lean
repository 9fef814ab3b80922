import ConfigRegistry.Proofs.Failures

/-!
# Deadlines of transitions

Every call to the store and every baseline that a transition sends has a deadline, so the steps
of a transition come to an end whatever the store and the peers do meanwhile
(`Prog.Timed.returns`). The message that tells a module of its error has none: a transition that
fails through the fault of its module waits forever for a peer that never answers
(`Lifecycle.returns_but_for_silent_peer`).
-/

namespace ConfigRegistry

open World (Progress)

variable {α β δ ε : Type} {n j k : Nat} {s : Session} {b : Behaviour} {w v : World}

/-! ## Coming to an end -/

namespace World

/-- The peer of a session behaves in a way, and there are ids left for so many events. -/
structure Fit (s : Session) (b : Behaviour) (k : Nat) (w : World) : Prop where
  behaviour : (w.peer s).behaviour = b
  spare : w.store.live.lastEventId.toNat + k < UInt64.size

theorem Fit.mono (h : w.Fit s b k) (hj : j ≤ k) : w.Fit s b j where
  behaviour := h.behaviour
  spare := Nat.lt_of_le_of_lt (Nat.add_le_add_left hj _) h.spare

theorem Fit.modifyPeer (h : w.Fit s b k) (u : Session) {f : Peer → Peer}
    (hf : ∀ p, (f p).behaviour = p.behaviour) : (w.modifyPeer u f).Fit s b k where
  behaviour := (peer_modifyPeer u s f Peer.behaviour (.inr hf) w).trans h.behaviour
  spare := h.spare

namespace Progress

/-- Comes to an end with `post`, whatever happens whenever it waits, as long as the peer of a
session behaves as it does and another event can be numbered. -/
def Returns (s : Session) (b : Behaviour) (post : α → World → Prop) : Progress α → Prop
  | .finished w x => post x w
  | .waiting _ _ resume => ∀ w', w'.Fit s b 1 → (resume w').Returns s b post
  | .stuck _ => False
  | .overflow => False

/-- Comes to wait for an answer that is never given, whatever happens meanwhile. -/
def Blocks (s : Session) (b : Behaviour) : Progress α → Prop
  | .finished _ _ => False
  | .waiting _ _ resume => ∀ w', w'.Fit s b 1 → (resume w').Blocks s b
  | .stuck _ => True
  | .overflow => False

variable {post post' : α → World → Prop} {p : Progress α}

theorem Returns.mono (hp : p.Returns s b post) (h : ∀ x w, post x w → post' x w) :
    p.Returns s b post' := by
  induction p with
  | finished w x => exact h x w hp
  | waiting w due resume ih => exact fun w' hw => ih w' (hp w' hw)
  | stuck w => exact hp
  | overflow => exact hp

theorem returns_andThen {f : World → α → Progress β} {post : β → World → Prop} :
    (p.andThen f).Returns s b post ↔ p.Returns s b fun x w => (f w x).Returns s b post := by
  induction p with
  | finished w x => rfl
  | waiting w due resume ih => simp only [andThen, Returns, ih]
  | stuck w => rfl
  | overflow => rfl

theorem Returns.blocks_andThen {f : World → α → Progress β}
    (hp : p.Returns s b fun x w => (f w x).Blocks s b) : (p.andThen f).Blocks s b := by
  induction p with
  | finished w x => exact hp
  | waiting w due resume ih => exact fun w' hw => ih w' (hp w' hw)
  | stuck w => exact hp.elim
  | overflow => exact hp.elim

/-- What blocks does not return. -/
theorem Blocks.not_returns (hw : w.Fit s b 1) (hp : p.Blocks s b) : ¬ p.Returns s b post := by
  induction p with
  | finished v x => exact hp.elim
  | waiting v due resume ih => exact fun hr => ih w (hp w hw) (hr w hw)
  | stuck v => exact id
  | overflow => exact id

end Progress

end World

/-! ## Answers in time -/

/-- An answer is given, now or later, in a world that is as fit as the asker needs. -/
def Answer.Comes (s : Session) (b : Behaviour) (k : Nat) : Answer β → Prop
  | .now w _ => w.Fit s b k
  | .later _ _ reply => ∀ w', w'.Fit s b 1 → ∃ x, reply w' = some x ∧ x.1.Fit s b k
  | .never _ => False
  | .overflow => False

/-- A request is answered at once or has a deadline, and does not run out of versions. -/
def Request.Timed : Request → Prop
  | .store limit call => limit.isSome ∧ ¬ call.Renumbers
  | .emit limit .. => limit.isSome
  | .overflow => False
  | _ => True

/-- How many event ids a request needs. -/
def Request.appends : Request → Nat
  | .store _ call => call.appends
  | _ => 0

namespace Store

variable {now : Timestamp} {st st' : Store}

/-- A call takes no more event ids than it needs. -/
theorem serve_lastEventId {c : Call} {x : c.Result} (h : st.serve now c = .ok x st') :
    st'.live.lastEventId.toNat ≤ st.live.lastEventId.toNat + c.appends := by
  cases c with
  | appendEvent p =>
    obtain ⟨t, hx, -, rfl⟩ := serve_appendEvent h
    exact Nat.le_of_eq hx.count
  | appendEvents ps =>
    obtain ⟨t, hx, hp, rfl⟩ := serve_appendEvents h
    have hlength : x.length = ps.length := by rw [← hp, List.length_map]
    exact Nat.le_of_eq (hx.count.trans (congrArg _ hlength))
  | updateConfigData id data =>
    obtain ⟨old, t, -, ht, rfl⟩ := serve_updateConfigData h
    simp only [Tables.updateConfigData?] at ht
    split at ht <;> cases ht
    exact Nat.le_refl _
  | activateConfig id =>
    obtain ⟨old, -, rfl⟩ := serve_activateConfig h
    exact Nat.le_refl _
  | deleteBackends cs =>
    cases h
    rw [Tables.deleteBackends_eq]
    exact Nat.le_refl _
  | _ =>
    cases h
    exact Nat.le_refl _

end Store

namespace World

theorem perform_fit {c : Store.Call} (hc : ¬ c.Renumbers) (hw : w.Fit s b (c.appends + k)) :
    ∃ x, w.perform c = some x ∧ x.1.Fit s b k := by
  have hspare := hw.spare
  have hclock : (if c.readsClock then w.ticked else w).Fit s b k := by
    have hleft : w.Fit s b k := hw.mono (Nat.le_add_left k _)
    split <;> exact ⟨hleft.behaviour, hleft.spare⟩
  have hne : w.perform c ≠ none := perform_ne_none (fun h => absurd h hc) (by omega)
  cases ha : w.store.available with
  | false => exact ⟨_, perform_unavailable c ha, hclock⟩
  | true =>
    rw [perform_available c ha] at hne ⊢
    cases hserve : w.store.serve w.reading c with
    | ok x st =>
      have hlast := Store.serve_lastEventId hserve
      exact ⟨_, rfl, hclock.behaviour, by simp only; omega⟩
    | error e => exact ⟨_, rfl, hclock⟩
    | overflow => simp [hserve] at hne

variable {reply done : World → Option (World × β)} {expired : Nat → β}

theorem replyAfter_comes (hj : j ≤ 1) (ms : Nat) (hw : w.Fit s b j)
    (hr : ∀ w', w'.Fit s b j → ∃ x, reply w' = some x ∧ x.1.Fit s b k) :
    (w.replyAfter ms reply).Comes s b k := by
  unfold replyAfter
  split
  · obtain ⟨x, hx, hfit⟩ := hr w hw
    rw [hx]
    exact hfit
  · exact fun w' hw' => hr w' (hw'.mono hj)

theorem replyRace_comes {r : Race} (hr : r ≠ .never) (hj : j ≤ 1) (hk : k ≤ j) (hw : w.Fit s b j)
    (hd : ∀ w', w'.Fit s b j → ∃ x, done w' = some x ∧ x.1.Fit s b k) :
    (w.replyRace r done expired).Comes s b k := by
  cases r with
  | completes ms => exact replyAfter_comes hj ms hw hd
  | expires ms => exact replyAfter_comes hj ms hw fun w' hw' => ⟨_, rfl, hw'.mono hk⟩
  | never => exact absurd rfl hr

end World

/-- A race ends if it has a deadline, or if what is waited for is done at last. -/
theorem Race.run_ne_never {limit delay : Option Nat} (h : limit ≠ none ∨ delay ≠ none) :
    Race.run limit delay ≠ .never := by
  cases limit <;> cases delay <;> simp only [Race.run]
  · simp at h
  · simp
  · simp
  · split <;> simp

namespace World

theorem callStore_comes {c : Store.Call} (hc : ¬ c.Renumbers) (hk : c.appends + k ≤ 1) (l : Nat)
    (hw : w.Fit s b (c.appends + k)) : (w.callStore (some l) c).Comes s b k := by
  have hleft : k ≤ c.appends + k := Nat.le_add_left k _
  have htaken : (w.takeFault c.name).2.Fit s b (c.appends + k) := by
    unfold takeFault
    split <;> exact ⟨hw.behaviour, hw.spare⟩
  unfold callStore
  generalize w.takeFault c.name = fw at htaken ⊢
  obtain ⟨fault, w⟩ := fw
  cases fault with
  | pass => exact replyAfter_comes hk 0 htaken fun w' hw' => perform_fit hc hw'
  | fail e => exact htaken.mono hleft
  | hang =>
    exact replyRace_comes (Race.run_ne_never (.inl (by simp))) hk hleft htaken
      fun w' hw' => perform_fit hc hw'
  | lost =>
    obtain ⟨x, hx, hfit⟩ := perform_fit hc htaken
    simp only [hx]
    exact replyAfter_comes (Nat.le_trans hleft hk) l hfit fun w' hw' => ⟨_, rfl, hw'⟩
  | delay ms =>
    exact replyRace_comes (Race.run_ne_never (.inl (by simp))) hk hleft htaken
      fun w' hw' => perform_fit hc hw'

theorem accept_fit (hw : w.Fit s b k) (u : Session) (event : String) (payload : Bytes) :
    (w.accept u event payload).Fit s b k where
  behaviour := (hw.modifyPeer u (f := fun p => { p with accepted := p.accepted + 1 })
    fun _ => rfl).behaviour
  spare := hw.spare

/-- The sending of a message comes to an end if it has a deadline, or if the peer is not silent. -/
theorem sendTo_comes (hk : k ≤ 1) {limit : Option Nat} {u : Session}
    (hl : limit ≠ none ∨ (w.peer u).behaviour ≠ .hang) (event : String) (payload : Bytes)
    (hw : w.Fit s b k) : (w.sendTo limit u event payload).Comes s b k := by
  have hdone : ∀ w' : World, w'.Fit s b k → ∃ x : World × Except TransportError Unit,
      some (accept u event payload w', .ok ()) = some x ∧ x.1.Fit s b k :=
    fun w' hw' => ⟨_, rfl, accept_fit hw' u event payload⟩
  unfold sendTo
  cases hb : (w.peer u).behaviour with
  | record => exact replyAfter_comes hk 0 hw hdone
  | closed => exact hw
  | hang =>
    have hlimit : limit ≠ none := hl.resolve_right fun h => h hb
    exact replyRace_comes (Race.run_ne_never (.inl hlimit)) hk (Nat.le_refl k) hw hdone
  | slow ms =>
    exact replyRace_comes (Race.run_ne_never (.inr (by simp))) hk (Nat.le_refl k) hw hdone
  | failAfter m =>
    simp only
    split
    · exact replyAfter_comes hk 0 hw hdone
    · exact hw

/-- Every request with a deadline is answered. -/
theorem answer_comes (n : Nat) {r : Request} (hr : r.Timed) (hk : r.appends + k ≤ 1)
    (hw : w.Fit s b (r.appends + k)) : (w.answer n r).Comes s b k := by
  have hleft : w.Fit s b k := hw.mono (Nat.le_add_left k _)
  cases r with
  | store limit call =>
    obtain ⟨hl, hc⟩ := hr
    obtain ⟨l, rfl⟩ := Option.isSome_iff_exists.mp hl
    exact callStore_comes hc hk l hw
  | emit limit u event payload =>
    have hlimit : limit ≠ none := Option.isSome_iff_ne_none.mp hr
    exact sendTo_comes (Nat.le_trans (Nat.le_add_left k _) hk) (.inl hlimit) event payload hleft
  | identify u m name =>
    exact hleft.modifyPeer u (f := fun p => { p with context :=
      { p.context with moduleId := some m, moduleName := some name } }) fun _ => rfl
  | attach u x =>
    exact hleft.modifyPeer u (f := fun p => { p with context :=
      { p.context with backend := some x } }) fun _ => rfl
  | detach u =>
    exact hleft.modifyPeer u (f := fun p => { p with context :=
      { p.context with backend := none } }) fun _ => rfl
  | overflow => exact hr
  | _ => exact ⟨hleft.behaviour, hleft.spare⟩

end World

/-! ## Programs with deadlines -/

/-- Every request has a deadline, a program appends no more events than it may, and `post` holds of
what it ends with and of how many it may still append. -/
def Prog.Timed (post : α → Nat → Prop) : Prog α → Nat → Prop
  | .done x, k => post x k
  | .ask r next, k => r.Timed ∧ r.appends ≤ k ∧ ∀ reply, (next reply).Timed post (k - r.appends)

def Action.Timed (post : Except ε α → Nat → Prop) (a : Action ε α) (k : Nat) : Prop :=
  a.outcome.Timed post k

namespace Prog

variable {post post' : α → Nat → Prop} {p : Prog α}

theorem Timed.mono (hp : p.Timed post k) (h : ∀ x i, post x i → post' x i) : p.Timed post' k := by
  induction p generalizing k with
  | done x => exact h x k hp
  | ask r next ih => exact ⟨hp.1, hp.2.1, fun reply => ih reply (hp.2.2 reply)⟩

theorem timed_bind {f : α → Prog β} {post : β → Nat → Prop} :
    (p >>= f).Timed post k ↔ p.Timed (fun x i => (f x).Timed post i) k := by
  change (p.bind f).Timed post k ↔ _
  induction p generalizing k with
  | done x => rfl
  | ask r next ih => simp only [Prog.bind, Timed, ih]

/-- A program goes on once its first request is answered. -/
theorem returns_ask {r : Request} {next : r.Reply → Prog α} {post : α → World → Prop}
    (hr : (w.answer n r).Comes s b k)
    (hnext : ∀ reply (v : World), v.Fit s b k → (v.run n (next reply)).Returns s b post) :
    (w.run n (.ask r next)).Returns s b post := by
  simp only [World.run]
  cases ha : w.answer n r with
  | now v reply =>
    rw [ha] at hr
    exact hnext reply v hr
  | later v due reply =>
    rw [ha] at hr
    intro w' hw'
    obtain ⟨x, hx, hfit⟩ := hr w' hw'
    simp only [hx]
    exact hnext x.2 x.1 hfit
  | never v => rw [ha] at hr; exact hr
  | overflow => rw [ha] at hr; exact hr

/-- A program with deadlines comes to its end, whatever happens meanwhile. -/
theorem Timed.returns (n : Nat) (hp : p.Timed post k) (hk : k ≤ 1) (hw : w.Fit s b k) :
    (w.run n p).Returns s b fun x v => ∃ i, v.Fit s b i ∧ post x i := by
  induction p generalizing w k with
  | done x => exact ⟨k, hw, hp⟩
  | ask r next ih =>
    obtain ⟨hr, hle, hnext⟩ := hp
    have hsum : r.appends + (k - r.appends) = k := Nat.add_sub_cancel' hle
    have hrest : k - r.appends ≤ 1 := Nat.le_trans (Nat.sub_le k _) hk
    have hcomes : (w.answer n r).Comes s b (k - r.appends) :=
      World.answer_comes n hr (Nat.le_trans (Nat.le_of_eq hsum) hk) (by rwa [hsum])
    exact returns_ask hcomes fun reply v hv => ih reply (hnext reply) hrest hv

end Prog

/-- What holds behind an action when `next` is done with its value. -/
@[simp] def Action.onOk {σ : Type} (post : Except ε β → σ → Prop) (next : α → σ → Prop) :
    Except ε α → σ → Prop
  | .ok x, i => next x i
  | .error e, i => post (.error e) i

namespace Action

variable {post post' : Except ε α → Nat → Prop} {a : Action ε α}

theorem Timed.mono (ha : a.Timed post k) (h : ∀ x i, post x i → post' x i) : a.Timed post' k :=
  Prog.Timed.mono ha h

@[simp] theorem timed_pure {x : α} : (pure x : Action ε α).Timed post k ↔ post (.ok x) k := .rfl

@[simp] theorem timed_throw {e : ε} : (throw e : Action ε α).Timed post k ↔ post (.error e) k := .rfl

@[simp] theorem timed_ofExcept {r : Except ε α} :
    (MonadExcept.ofExcept r : Action ε α).Timed post k ↔ post r k := by
  cases r <;> exact .rfl

@[simp] theorem timed_bind {f : α → Action ε β} {post : Except ε β → Nat → Prop} :
    (a >>= f).Timed post k ↔ a.Timed (onOk post fun x i => (f x).Timed post i) k := by
  unfold Timed
  rw [outcome_bind, Prog.timed_bind]
  apply iff_of_eq
  congr 1
  funext r i
  cases r <;> rfl

@[simp] theorem timed_mapError {f : ε → δ} {post : Except δ α → Nat → Prop} :
    (a.mapError f).Timed post k ↔ a.Timed (fun r i => post (r.mapError f) i) k := by
  unfold Timed
  rw [outcome_mapError, Prog.timed_bind]
  rfl

/-- What does not fail by itself goes on with the outcome of an action. -/
@[simp] theorem timed_lift_outcome {post : Except δ (Except ε α) → Nat → Prop} :
    Timed post (ExceptT.lift a.outcome) k ↔ a.Timed (fun r i => post (.ok r) i) k := by
  unfold Timed
  rw [outcome_lift, Prog.timed_bind]
  rfl

theorem timed_ask {r : Request} {post : Except ε r.Reply → Nat → Prop} :
    (ask r).Timed post k ↔ r.Timed ∧ r.appends ≤ k ∧ ∀ reply, post (.ok reply) (k - r.appends) := .rfl

/-- What is answered at once is answered whatever the reply. -/
theorem timed_at_once {r : Request} {post : Except ε r.Reply → Nat → Prop} (hr : r.Timed)
    (h : r.appends = 0) : (ask r).Timed post k ↔ ∀ reply, post (.ok reply) k := by
  rw [timed_ask, h]
  simp [hr]

@[simp] theorem timed_call {l : Nat} {c : Store.Call} {post : Except StoreError c.Result → Nat → Prop} :
    (call l c).Timed post k ↔
      ¬ c.Renumbers ∧ c.appends ≤ k ∧ ∀ r, post r (k - c.appends) := by
  have hiff : (call l c).Timed post k ↔
      (Request.store (some l) c).Timed ∧ c.appends ≤ k ∧ ∀ r, post r (k - c.appends) := .rfl
  rw [hiff]
  simp [Request.Timed]

@[simp] theorem timed_emit {l : Nat} {u : Session} {event : String} {payload : Bytes}
    {post : Except TransportError Unit → Nat → Prop} :
    (emit l u event payload).Timed post k ↔ ∀ r, post r k := by
  have hiff : (emit l u event payload).Timed post k ↔
      (Request.emit (some l) u event payload).Timed ∧ 0 ≤ k ∧ ∀ r, post r (k - 0) := .rfl
  rw [hiff]
  simp [Request.Timed]

section Requests

variable {u : Session} {c : ConnectionId}

@[simp] theorem timed_clock {post : Except ε Timestamp → Nat → Prop} :
    (ask .clock).Timed post k ↔ ∀ now, post (.ok now) k := timed_at_once (r := .clock) trivial rfl

@[simp] theorem timed_freshConfigId {post : Except ε ConfigId → Nat → Prop} :
    (ask .freshConfigId).Timed post k ↔ ∀ id, post (.ok id) k :=
  timed_at_once (r := .freshConfigId) trivial rfl

@[simp] theorem timed_context {post : Except ε SessionContext → Nat → Prop} :
    (ask (.context u)).Timed post k ↔ ∀ x, post (.ok x) k := timed_at_once (r := .context u) trivial rfl

@[simp] theorem timed_identify {m : ModuleId} {name : String} {post : Except ε Unit → Nat → Prop} :
    (ask (.identify u m name)).Timed post k ↔ ∀ x, post (.ok x) k :=
  timed_at_once (r := .identify u m name) trivial rfl

@[simp] theorem timed_attach {x : Backend} {post : Except ε Unit → Nat → Prop} :
    (ask (.attach u x)).Timed post k ↔ ∀ y, post (.ok y) k :=
  timed_at_once (r := .attach u x) trivial rfl

@[simp] theorem timed_detach {post : Except ε (Option Backend) → Nat → Prop} :
    (ask (.detach u)).Timed post k ↔ ∀ x, post (.ok x) k := timed_at_once (r := .detach u) trivial rfl

@[simp] theorem timed_register {post : Except ε Unit → Nat → Prop} :
    (ask (.register u)).Timed post k ↔ ∀ x, post (.ok x) k :=
  timed_at_once (r := .register u) trivial rfl

@[simp] theorem timed_unregister {post : Except ε Bool → Nat → Prop} :
    (ask (.unregister c)).Timed post k ↔ ∀ x, post (.ok x) k :=
  timed_at_once (r := .unregister c) trivial rfl

@[simp] theorem timed_join {room : Room} {post : Except ε Bool → Nat → Prop} :
    (ask (.join room c)).Timed post k ↔ ∀ x, post (.ok x) k :=
  timed_at_once (r := .join room c) trivial rfl

end Requests

end Action

/-! ## Actions that return -/

/-- An action of a node comes to an end with `post`, whatever happens whenever it waits. -/
def Action.Returns (n : Nat) (s : Session) (b : Behaviour) (post : Except ε α → World → Prop)
    (a : Action ε α) (w : World) : Prop :=
  (w.run n a.outcome).Returns s b post

/-- An action of a node comes to wait for an answer that is never given. -/
def Action.Blocks (n : Nat) (s : Session) (b : Behaviour) (a : Action ε α) (w : World) : Prop :=
  (w.run n a.outcome).Blocks s b

namespace Action

variable {post post' : Except ε α → World → Prop} {a : Action ε α}

theorem Blocks.not_returns (hw : w.Fit s b 1) (ha : a.Blocks n s b v) : ¬ a.Returns n s b post v :=
  World.Progress.Blocks.not_returns hw ha

theorem Returns.mono (ha : a.Returns n s b post w) (h : ∀ o v, post o v → post' o v) :
    a.Returns n s b post' w :=
  World.Progress.Returns.mono ha h

theorem Timed.returns (n : Nat) {q : Except ε α → Prop} (ha : a.Timed (fun o _ => q o) k)
    (hk : k ≤ 1) (hw : w.Fit s b k) : a.Returns n s b (fun o v => v.Fit s b 0 ∧ q o) w := by
  refine World.Progress.Returns.mono (Prog.Timed.returns n ha hk hw) ?_
  rintro o v ⟨i, hv, ho⟩
  exact ⟨hv.mono (Nat.zero_le i), ho⟩

@[simp] theorem returns_pure {x : α} : (pure x : Action ε α).Returns n s b post w ↔ post (.ok x) w := .rfl

@[simp] theorem returns_throw {e : ε} :
    (throw e : Action ε α).Returns n s b post w ↔ post (.error e) w := .rfl

@[simp] theorem returns_bind {f : α → Action ε β} {post : Except ε β → World → Prop} :
    (a >>= f).Returns n s b post w ↔
      a.Returns n s b (onOk post fun x v => (f x).Returns n s b post v) w := by
  unfold Returns
  rw [outcome_bind, World.run_bind', World.Progress.returns_andThen]
  apply iff_of_eq
  congr 1
  funext o v
  cases o <;> rfl

@[simp] theorem returns_clock {post : Except ε Timestamp → World → Prop} :
    (ask .clock).Returns n s b post w ↔ post (.ok w.reading) w.ticked := .rfl

@[simp] theorem returns_context {u : Session} {post : Except ε SessionContext → World → Prop} :
    (ask (.context u)).Returns n s b post w ↔ post (.ok (w.peer u).context) w := .rfl

theorem returns_call {l : Nat} {c : Store.Call} {f : StoreError → ε}
    {post : Except ε c.Result → World → Prop} (hf : w.faults = []) :
    ((call l c).mapError f).Returns n s b post w ↔
      ∃ x, w.perform c = some x ∧ post (x.2.mapError f) x.1 := by
  unfold Returns
  rw [outcome_mapError, World.run_bind', World.Progress.returns_andThen]
  change (w.run n (Prog.request (.store (some l) c))).Returns s b _ ↔ _
  simp only [Prog.request, World.run, World.answer_store hf, World.replyAfter, ↓reduceIte]
  cases w.perform c with
  | none => simp [World.Progress.Returns]
  | some x => simp [World.Progress.Returns]

theorem returns_call_unavailable {l : Nat} {c : Store.Call} {f : StoreError → ε}
    {post : Except ε c.Result → World → Prop} (hf : w.faults = []) (ha : w.store.available = false) :
    ((call l c).mapError f).Returns n s b post w ↔
      post (.error (f .unreachable)) (if c.readsClock then w.ticked else w) := by
  rw [returns_call hf]
  simp [World.perform_unavailable _ ha, StoreError.unreachable]

theorem returns_call_ok {l : Nat} {c : Store.Call} {f : StoreError → ε} {x : c.Result} {st : Store}
    {post : Except ε c.Result → World → Prop} (hf : w.faults = []) (ha : w.store.available = true)
    (hs : w.store.serve w.reading c = .ok x st) :
    ((call l c).mapError f).Returns n s b post w ↔
      post (.ok x) { (if c.readsClock then w.ticked else w) with store := st } := by
  rw [returns_call hf]
  simp [World.perform_available _ ha, hs]

section Calls

variable {l : Nat} {f : StoreError → ε} (hf : w.faults = []) (ha : w.store.available = true)

include hf ha

theorem returns_upsertSchema {schema : ConfigSchema} {post : Except ε Unit → World → Prop} :
    ((call l (.upsertSchema schema)).mapError f).Returns n s b post w ↔
      post (.ok ()) (w.write (w.store.live.upsertSchema schema)) :=
  returns_call_ok (c := .upsertSchema schema) hf ha rfl

theorem returns_activeConfig {m : ModuleId} {c : Consistency}
    {post : Except ε (Option Config) → World → Prop} :
    ((call l (.activeConfig m c)).mapError f).Returns n s b post w ↔
      post (.ok ((w.store.view c).activeConfig m)) w.served :=
  returns_call_ok (c := .activeConfig m c) hf ha rfl

theorem returns_missingVariables {names : List String} {c : Consistency}
    {post : Except ε (List String) → World → Prop} :
    ((call l (.missingVariables names c)).mapError f).Returns n s b post w ↔
      post (.ok ((w.store.view c).missingVariables names)) w.served :=
  returns_call_ok (c := .missingVariables names c) hf ha rfl

end Calls

end Action

-- From here on only the rules open these: a search that computes the program would not end soon.
attribute [irreducible] Action.Timed Action.Returns Action.Blocks

/-! ## Errors that modules are told of -/

/-- Whether an outcome is an error that the module caused. -/
def Blames (o : Except LifecycleError α) : Prop := ∃ e, o = .error e ∧ e.isDataIntegrity = true

@[simp] theorem not_blames_ok {x : α} : ¬ Blames (.ok x) := by rintro ⟨e, h, -⟩; cases h

@[simp] theorem blames_error {e : LifecycleError} :
    Blames (.error e : Except LifecycleError α) ↔ e.isDataIntegrity = true := by
  refine ⟨?_, fun h => ⟨e, rfl, h⟩⟩
  rintro ⟨e', h, he⟩
  cases h
  exact he

/-! ## Steps of transitions -/

namespace Transition

variable {l : Limits}

theorem timed_call {c : Store.Call} {post : Except LifecycleError c.Result → Nat → Prop} :
    (call l c).Timed post k ↔ ¬ c.Renumbers ∧ c.appends ≤ k ∧
      (∀ e, post (.error (.store e)) (k - c.appends)) ∧ ∀ x, post (.ok x) (k - c.appends) := by
  unfold call
  simp only [Action.timed_mapError, Action.timed_call]
  refine and_congr_right fun _ => and_congr_right fun _ => ⟨fun h => ?_, fun h r => ?_⟩
  · exact ⟨fun e => h (.error e), fun x => h (.ok x)⟩
  · cases r with
    | ok x => exact h.2 x
    | error e => exact h.1 e

theorem variablesOf_timed {data : Bytes} : (variablesOf data).Timed (fun _ i => i = k) k := by
  unfold variablesOf
  cases Template.variableNames data <;> simp

theorem requireVariables_timed {names : List String} :
    (requireVariables l names).Timed (fun _ i => i = k) k := by
  unfold requireVariables
  split
  · simp
  · rw [Action.timed_bind]
    refine (timed_call (c := .missingVariables names .strong)).mpr ⟨id, Nat.zero_le k, ?_, ?_⟩
    · exact fun _ => rfl
    · intro missing
      simp only [Action.onOk]
      split <;> simp [Store.Call.appends]

end Transition

namespace Notification

variable {l : Limits} {k : Notification} {i : Nat}

/-- What goes wrong while a state is sent is not the fault of the module. -/
theorem deliver_blameless {p : Bytes} :
    (deliver l s k p).Timed (fun o _ => ¬ Blames (o.mapError .notify)) i := by
  unfold deliver
  simp only [Action.timed_bind, Action.timed_mapError, Action.timed_emit]
  rintro (e | _) <;> simp [LifecycleError.isDataIntegrity]

/-- What goes wrong while anything but a config is read is not the fault of the module. -/
theorem snapshot_blameless (hk : ∀ m, k ≠ .config m) :
    (snapshot l k).Timed (fun o _ => ¬ Blames (o.mapError .notify)) i := by
  cases k with
  | config m => exact absurd rfl (hk m)
  | backends m =>
    simp only [snapshot, Action.timed_bind, Action.timed_mapError]
    refine (Action.timed_call (c := .backendsByModule m .stale)).mpr ⟨id, Nat.zero_le i, ?_⟩
    rintro (e | bs) <;> simp [LifecycleError.isDataIntegrity]
  | routing =>
    simp only [snapshot, Action.timed_bind, Action.timed_mapError]
    refine (Action.timed_call (c := .allBackends .stale)).mpr ⟨id, Nat.zero_le i, ?_⟩
    rintro (e | bs) <;> simp [LifecycleError.isDataIntegrity]

theorem subscribe_blameless (hk : ∀ m, k ≠ .config m) :
    (subscribe l s k).Timed (fun o _ => ¬ Blames (o.mapError .notify)) i := by
  unfold subscribe
  rw [Action.timed_bind]
  refine (snapshot_blameless hk).mono ?_
  rintro (e | p) i ho
  · exact fun h => ho (by simpa using h)
  · exact deliver_blameless

end Notification

namespace Lifecycle

variable {p : Place}

@[simp] theorem store_blameless {e : StoreError} :
    ¬ Blames (.error (.store e) : Except LifecycleError α) := by
  simp [LifecycleError.isDataIntegrity]

theorem connectSteps_timed {name : String} :
    (connectSteps p s name).Timed (fun o _ => Blames o ↔ Text.trimmed name = "") k := by
  unfold connectSteps
  by_cases he : (Text.trimmed name).isEmpty
  · have hname : Text.trimmed name = "" := by simpa using he
    simp [hname, LifecycleError.isDataIntegrity]
  · have hname : Text.trimmed name ≠ "" := by simpa using he
    simp only [he, hname, ↓reduceIte, Action.timed_bind, Action.timed_clock, Action.onOk,
      Bool.false_eq_true, iff_false]
    intro now
    refine (Transition.timed_call (c := .upsertModule ..)).mpr ⟨id, Nat.zero_le k, ?_, ?_⟩
    · exact fun _ => store_blameless
    · simp

theorem returns_identified {post : Except LifecycleError ModuleId → World → Prop} :
    (identified s).Returns n s b post w ↔
      post (match (w.peer s).context.moduleId with
        | some m => .ok m
        | none => .error (.notIdentified s.conn)) w := by
  unfold identified
  simp only [Action.returns_bind, Action.returns_context, Action.onOk]
  cases (w.peer s).context.moduleId <;> simp

theorem readySteps_returns {d : BackendDeclaration} (hw : w.Fit s b 1) :
    (readySteps p s d).Returns n s b (fun o v => v.Fit s b 0 ∧ (Blames o ↔
      (w.peer s).context.moduleId = none ∨ Address.isValid d.address = false)) w := by
  unfold readySteps
  rw [Action.returns_bind, returns_identified]
  cases hm : (w.peer s).context.moduleId with
  | none => exact ⟨hw.mono (Nat.zero_le 1), by simp [LifecycleError.isDataIntegrity]⟩
  | some m =>
    simp only [Action.onOk]
    cases hv : Address.isValid d.address with
    | false =>
      simp only [Bool.not_false, ↓reduceIte, Action.returns_bind, Action.returns_throw, Action.onOk]
      exact ⟨hw.mono (Nat.zero_le 1), by simp [LifecycleError.isDataIntegrity]⟩
    | true =>
      simp only [Bool.not_true, Bool.false_eq_true, ↓reduceIte, reduceCtorEq, or_false, iff_false]
      refine Action.Timed.returns n (q := fun o => ¬ Blames o) ?_ (Nat.le_refl 1) hw
      unfold moduleName
      simp only [Action.timed_bind, Action.timed_context, Action.timed_pure, Action.timed_clock,
        Action.onOk]
      intro context now
      refine (Transition.timed_call (c := .insertBackend _)).mpr ⟨id, Nat.zero_le 1, ?_, fun _ => ?_⟩
      · exact fun _ => store_blameless
      · refine (Transition.timed_call (c := .appendEvent _)).mpr ⟨id, Nat.le_refl 1, ?_, fun _ => ?_⟩
        · exact fun _ => store_blameless
        · simp

theorem subscribeAll_blameless {l : Limits} (names : List String) :
    (subscribeAll l s names).Timed (fun o _ => ¬ Blames (o.mapError .notify)) k := by
  induction names generalizing k with
  | nil => simp [subscribeAll]
  | cons name rest ih =>
    rw [subscribeAll, Action.timed_bind]
    refine (Notification.subscribe_blameless (by simp)).mono ?_
    rintro (e | _) i ho
    · exact ho
    · exact ih

theorem requireSteps_returns {r : ModuleRequirements} (hw : w.Fit s b 1) :
    (requireSteps p s r).Returns n s b (fun o v => v.Fit s b 0 ∧
      (Blames o ↔ (w.peer s).context.moduleId = none)) w := by
  unfold requireSteps
  rw [Action.returns_bind, returns_identified]
  cases hm : (w.peer s).context.moduleId with
  | none => exact ⟨hw.mono (Nat.zero_le 1), by simp [LifecycleError.isDataIntegrity]⟩
  | some m =>
    simp only [Action.onOk, reduceCtorEq, iff_false]
    refine Action.Timed.returns n (q := fun o => ¬ Blames o) ?_ (Nat.le_refl 1) hw
    rw [Action.timed_bind, Action.timed_mapError]
    refine (subscribeAll_blameless r.requiredModules).mono ?_
    rintro (e | _) i ho
    · exact ho
    · simp only [mapError_ok, Action.onOk]
      split
      · rw [Action.timed_mapError]
        exact Notification.subscribe_blameless (by simp)
      · simp

/-! ### Declaring a schema -/

end Lifecycle

/-- Whether the variables of a document cannot be listed or are not all defined. -/
def Tables.Refuses (data : Bytes) (t : Tables) : Prop :=
  ∀ names, Template.variableNames data = .ok names → t.missingVariables names ≠ []

/-- Whether a session that declares a schema has not connected, or needs a first config that is
refused. -/
def World.Faulty (s : Session) (d : ConfigSchemaDeclaration) (w : World) : Prop :=
  match (w.peer s).context.moduleId with
  | none => True
  | some m => w.store.available = true ∧ w.store.live.activeConfig m = none ∧
      w.store.live.Refuses d.defaultConfig.write

namespace Lifecycle

variable {p : Place}

theorem requireVariables_returns {l : Limits} {names : List String} (hf : w.faults = [])
    (ha : w.store.available = true) (hw : w.Fit s b k) :
    (Transition.requireVariables l names).Returns n s b (fun o v => v.Fit s b k ∧
      (o = .ok () ∧ w.store.live.missingVariables names = [] ∨
        Blames o ∧ w.store.live.missingVariables names ≠ [])) w := by
  unfold Transition.requireVariables
  cases names with
  | nil =>
    simp only [List.isEmpty_nil, ↓reduceIte, Action.returns_pure]
    exact ⟨hw, .inl ⟨trivial, rfl⟩⟩
  | cons name rest =>
    simp only [List.isEmpty_cons, Bool.false_eq_true, ↓reduceIte, Action.returns_bind, Transition.call]
    refine (Action.returns_missingVariables hf ha).mpr ?_
    have hserved : w.served.Fit s b k := ⟨hw.behaviour, hw.spare⟩
    simp only [Action.onOk, Store.view, List.isEmpty_iff]
    split
    · rw [Action.returns_pure]
      exact ⟨hserved, .inl ⟨rfl, ‹_›⟩⟩
    · rw [Action.returns_throw]
      exact ⟨hserved, .inr ⟨blames_error.mpr rfl, ‹_›⟩⟩

/-- The first config of a module fails for its module just when its document is refused. -/
theorem createConfig_returns {l : Limits} {m : ModuleId} {name : String} {data : Bytes}
    (hf : w.faults = []) (ha : w.store.available = true) (hw : w.Fit s b 1) :
    (createConfig l m name data).Returns n s b (fun o v => v.Fit s b 0 ∧
      (Blames o ↔ w.store.live.Refuses data)) w := by
  unfold createConfig
  rw [Action.returns_bind]
  unfold Transition.variablesOf
  cases hnames : Template.variableNames data with
  | error e =>
    have hrefused : w.store.live.Refuses data := by simp [Tables.Refuses, hnames]
    rw [Action.returns_throw]
    exact ⟨hw.mono (Nat.zero_le 1), iff_of_true (blames_error.mpr rfl) hrefused⟩
  | ok names =>
    rw [Action.returns_pure, Action.onOk, Action.returns_bind]
    refine (requireVariables_returns hf ha hw).mono ?_
    rintro o v ⟨hv, ⟨rfl, hnone⟩ | ⟨⟨e, rfl, he⟩, hmissing⟩⟩
    · have hfine : ¬ w.store.live.Refuses data := fun h => h names hnames hnone
      rw [Action.onOk]
      refine (Action.Timed.returns n (q := fun o => ¬ Blames o) ?_ (Nat.le_refl 1) hv).mono
        fun o v' h => ⟨h.1, iff_of_false h.2 hfine⟩
      simp only [Action.timed_bind, Action.timed_clock, Action.timed_freshConfigId, Action.onOk]
      intro now c
      refine (Transition.timed_call (c := .insertConfig _)).mpr ⟨id, Nat.zero_le 1, ?_, fun _ => ?_⟩
      · exact fun _ => store_blameless
      · refine (Transition.timed_call (c := .linkVariables ..)).mpr ⟨id, Nat.zero_le 1, ?_, ?_⟩
        · exact fun _ => store_blameless
        · simp
    · have hrefused : w.store.live.Refuses data := by simpa [Tables.Refuses, hnames] using hmissing
      exact ⟨hv.mono (Nat.zero_le 1), iff_of_true (blames_error.mpr he) hrefused⟩

theorem subscribeWith_blameless {l : Limits} {c : Config} :
    ((Notification.subscribeWith l s c).mapError LifecycleError.notify).Timed
      (fun o _ => ¬ Blames o) k :=
  Action.timed_mapError.mpr Notification.deliver_blameless

/-- To create the first config and to offer it fails for the module just when its document is
refused. -/
theorem offerFirst_returns {l : Limits} {m : ModuleId} {name : String} {data : Bytes}
    (hf : w.faults = []) (ha : w.store.available = true) (hw : w.Fit s b 1) :
    Action.Returns n s b (fun o v => v.Fit s b 0 ∧ (Blames o ↔ w.store.live.Refuses data)) (do
      let c ← createConfig l m name data
      (Notification.subscribeWith l s c).mapError .notify) w := by
  rw [Action.returns_bind]
  refine (createConfig_returns hf ha hw).mono ?_
  rintro (e | c) v ⟨hv, ho⟩
  · exact ⟨hv, blames_error.trans (blames_error.symm.trans ho)⟩
  · have hfine : ¬ w.store.live.Refuses data := mt ho.mpr not_blames_ok
    refine (Action.Timed.returns n subscribeWith_blameless (Nat.zero_le 1) hv).mono ?_
    exact fun o v h => ⟨h.1, iff_of_false h.2 hfine⟩

theorem schemaSteps_returns {d : ConfigSchemaDeclaration} (hf : w.faults = []) (hw : w.Fit s b 1) :
    (schemaSteps p s d).Returns n s b (fun o v => v.Fit s b 0 ∧
      (Blames o ↔ w.Faulty s d)) w := by
  unfold schemaSteps
  rw [Action.returns_bind, returns_identified]
  cases hm : (w.peer s).context.moduleId with
  | none =>
    have hfaulty : w.Faulty s d := by simp [World.Faulty, hm]
    exact ⟨hw.mono (Nat.zero_le 1), iff_of_true (blames_error.mpr rfl) hfaulty⟩
  | some m =>
    have hiff : w.Faulty s d ↔ w.store.available = true ∧ w.store.live.activeConfig m = none ∧
        w.store.live.Refuses d.defaultConfig.write := by simp [World.Faulty, hm]
    rw [Action.onOk, Action.returns_bind, Action.returns_clock, Action.onOk, Action.returns_bind]
    have hticked : w.ticked.Fit s b 1 := ⟨hw.behaviour, hw.spare⟩
    unfold Transition.call
    cases ha : w.store.available with
    | false =>
      have hfine : ¬ w.Faulty s d := by simp [hiff, ha]
      refine (Action.returns_call_unavailable (c := .upsertSchema _) (w := w.ticked) hf ha).mpr ?_
      exact ⟨hticked.mono (Nat.zero_le 1), iff_of_false store_blameless hfine⟩
    | true =>
      refine (Action.returns_upsertSchema (w := w.ticked) hf ha).mpr ?_
      rw [Action.onOk, Action.returns_bind]
      refine (Action.returns_activeConfig (by exact hf) (by exact ha)).mpr ?_
      -- Schemas are no concern of events, configs and variables.
      generalize hv : (w.ticked.write (w.ticked.store.live.upsertSchema
        ⟨m, d.version, d.schema.write, w.reading⟩)) = v
      have hstored : v.served.Fit s b 1 := by
        rw [← hv]
        exact ⟨hw.behaviour, hw.spare⟩
      have hview : (v.store.view .strong).activeConfig m = w.store.live.activeConfig m := by
        rw [← hv]
        rfl
      have hrefuses : ∀ data, v.served.store.live.Refuses data ↔ w.store.live.Refuses data := by
        rw [← hv]
        exact fun _ => .rfl
      rw [Action.onOk, hview]
      cases hactive : w.store.live.activeConfig m with
      | some c =>
        have hfine : ¬ w.Faulty s d := by simp [hiff, hactive]
        simp only [pure_bind]
        refine (Action.Timed.returns n subscribeWith_blameless (Nat.le_refl 1) hstored).mono ?_
        exact fun o v h => ⟨h.1, iff_of_false h.2 hfine⟩
      | none =>
        have hfaulty : w.Faulty s d ↔ v.served.store.live.Refuses d.defaultConfig.write := by
          rw [hrefuses]
          simp [hiff, ha, hactive]
        unfold moduleName
        rw [Action.returns_bind, Action.returns_bind, Action.returns_context, hfaulty]
        rw [Action.onOk, Action.returns_pure, Action.onOk]
        exact offerFirst_returns (by rw [← hv]; exact hf) (by rw [← hv]; exact ha) hstored

theorem createConfig_timed {l : Limits} {m : ModuleId} {name : String} {data : Bytes} :
    (createConfig l m name data).Timed (fun _ i => i = k) k := by
  unfold createConfig
  rw [Action.timed_bind]
  refine Transition.variablesOf_timed.mono ?_
  rintro (e | names) i rfl
  · exact rfl
  rw [Action.onOk, Action.timed_bind]
  refine Transition.requireVariables_timed.mono ?_
  rintro (e | _) i rfl
  · exact rfl
  simp only [Action.timed_bind, Action.timed_clock, Action.timed_freshConfigId, Action.onOk]
  intro now c
  refine (Transition.timed_call (c := .insertConfig _)).mpr ⟨id, Nat.zero_le i, fun _ => rfl, fun _ => ?_⟩
  refine (Transition.timed_call (c := .linkVariables ..)).mpr ⟨id, Nat.zero_le i, fun _ => rfl, fun _ => ?_⟩
  exact Action.timed_pure.mpr rfl

theorem schemaSteps_timed {d : ConfigSchemaDeclaration} :
    (schemaSteps p s d).Timed (fun _ _ => True) k := by
  have hoffer : ∀ c i, Action.Timed (fun _ _ => True)
      ((Notification.subscribeWith p.limits s c).mapError LifecycleError.notify) i :=
    fun _ _ => subscribeWith_blameless.mono fun _ _ _ => trivial
  unfold schemaSteps identified
  simp only [Action.timed_bind, Action.timed_context, Action.onOk]
  intro context
  cases context.moduleId with
  | none => simp
  | some m =>
    simp only [Action.timed_pure, Action.onOk, Action.timed_clock]
    intro now
    refine (Transition.timed_call (c := .upsertSchema _)).mpr ⟨id, Nat.zero_le k, fun _ => trivial, ?_⟩
    intro _
    refine (Transition.timed_call (c := .activeConfig m .strong)).mpr
      ⟨id, Nat.zero_le k, fun _ => trivial, ?_⟩
    rintro (_ | c)
    · unfold moduleName
      simp only [Action.onOk, Action.timed_bind, Action.timed_context, Action.timed_pure]
      intro _
      refine createConfig_timed.mono ?_
      rintro (e | c) i -
      · trivial
      · exact hoffer c i
    · exact hoffer c k

theorem deregister_timed {l : Limits} {x : Backend} :
    (deregister l x).Timed (fun _ _ => True) 1 := by
  unfold deregister
  simp only [Action.timed_bind]
  refine (Transition.timed_call (c := .deleteBackend _)).mpr ⟨id, Nat.zero_le 1, fun _ => trivial, ?_⟩
  intro _
  refine (Transition.timed_call (c := .appendEvent _)).mpr ⟨id, Nat.le_refl 1, fun _ => trivial, ?_⟩
  exact fun _ => Action.timed_pure.mpr trivial

theorem onDisconnect_timed : (onDisconnect p s).Timed (fun _ _ => True) 1 := by
  unfold onDisconnect
  rw [Action.timed_bind, Action.timed_unregister]
  intro _
  rw [Action.onOk, Action.timed_bind, Action.timed_context]
  intro context
  rw [Action.onOk, Action.timed_bind, Action.timed_lift_outcome]
  refine Action.Timed.mono (?marked : Action.Timed (fun _ i => i = 1) _ 1) ?left
  case marked =>
    cases context.moduleId with
    | none => simp
    | some m =>
      simp only [Action.timed_bind, Action.timed_clock, Action.onOk]
      intro now
      exact (Transition.timed_call (c := .markDisconnected ..)).mpr
        ⟨id, Nat.zero_le 1, fun _ => rfl, fun _ => rfl⟩
  case left =>
    rintro marked i rfl
    simp only [Action.timed_bind, Action.timed_lift_outcome, Action.timed_detach, Action.onOk]
    rintro (_ | x)
    · simp
    · exact deregister_timed.mono fun _ _ _ => by simp

/-! ## Telling a module of its error -/

/-- Without a blameable outcome, or with a peer that is not silent, reporting returns the outcome. -/
theorem report_returns {a : Action LifecycleError α} {q : Except LifecycleError α → Prop}
    (ha : a.Returns n s b (fun o v => v.Fit s b 0 ∧ q o ∧ (b = .hang → ¬ Blames o)) w) :
    (report s a).Returns n s b (fun o _ => q o) w := by
  unfold report
  unfold Action.Returns at ha ⊢
  change (w.run n (a.outcome >>= _)).Returns s b _
  rw [World.run_bind', World.Progress.returns_andThen]
  refine World.Progress.Returns.mono ha ?_
  rintro (e | x) v ⟨hfit, hq, hb⟩
  · cases he : e.isDataIntegrity with
    | false =>
      simp only [he, Bool.false_eq_true, ↓reduceIte]
      exact hq
    | true =>
      have hanswers : (v.peer s).behaviour ≠ .hang := by
        rw [hfit.behaviour]
        exact fun h => hb h (blames_error.mpr he)
      simp only [he, ↓reduceIte, bind_pure_comp]
      rw [map_eq_pure_bind, World.run_bind', World.Progress.returns_andThen]
      have hcomes : (v.answer n (.emit none s errorMessage (errorPayload e))).Comes s b 0 :=
        World.sendTo_comes (Nat.zero_le 1) (.inr hanswers) _ _ hfit
      exact Prog.returns_ask hcomes fun _ _ _ => hq
  · exact hq

/-- A peer that is not silent may be told of anything. -/
theorem report_answered {a : Action LifecycleError α} (hb : b ≠ .hang)
    (ha : a.Returns n s b (fun _ v => v.Fit s b 0) w) :
    (report s a).Returns n s b (fun _ _ => True) w :=
  report_returns (ha.mono fun _ _ hv => ⟨hv, trivial, fun h => absurd h hb⟩)

/-- A silent peer that is to be told of an error is waited for forever. -/
theorem report_blocks {a : Action LifecycleError α} (ha : a.Returns n s .hang (fun o v =>
    v.Fit s .hang 0 ∧ Blames o) w) : (report s a).Blocks n s .hang w := by
  unfold report Action.Blocks
  unfold Action.Returns at ha
  change (w.run n (a.outcome >>= _)).Blocks s .hang
  rw [World.run_bind']
  refine World.Progress.Returns.blocks_andThen (World.Progress.Returns.mono ha ?_)
  rintro o v ⟨hfit, e, rfl, he⟩
  have hstuck : v.sendTo none s errorMessage (errorPayload e) = .never v := by
    simp only [World.sendTo, hfit.behaviour]
    rfl
  simp only [he, ↓reduceIte, bind_pure_comp]
  rw [map_eq_pure_bind, World.run_bind']
  simp only [Prog.request, World.run, World.answer, hstuck]
  trivial

/-- What is reported returns or blocks, as its outcome is to be told to a silent peer or not. -/
theorem report_decided {a : Action LifecycleError α} {fault : Prop} (ha : a.Returns n s b (fun o v =>
    v.Fit s b 0 ∧ (Blames o ↔ fault)) w) :
    (¬ (b = .hang ∧ fault) → (report s a).Returns n s b (fun _ _ => True) w) ∧
      (b = .hang ∧ fault → (report s a).Blocks n s b w) := by
  constructor
  · exact fun h => report_returns (ha.mono fun o v ⟨hv, ho⟩ => ⟨hv, trivial, fun hb hf => h ⟨hb, ho.mp hf⟩⟩)
  · rintro ⟨rfl, hf⟩
    exact report_blocks (ha.mono fun o v ⟨hv, ho⟩ => ⟨hv, ho.mpr hf⟩)

/-! ## Transitions -/

/-- A transition of a connection, with what it is given. -/
inductive Callback where
  | connect (name : String)
  | requirements (r : ModuleRequirements)
  | configSchema (d : ConfigSchemaDeclaration)
  | ready (d : BackendDeclaration)
  | disconnect

/-- What a transition answers. -/
abbrev Callback.Value : Callback → Type
  | .ready _ => Backend
  | _ => Unit

def Callback.program (p : Place) (s : Session) : (t : Callback) → Action LifecycleError t.Value
  | .connect name => onConnect p s name
  | .requirements r => onRequirements p s r
  | .configSchema d => onConfigSchema p s d
  | .ready d => onReady p s d
  | .disconnect => onDisconnect p s

/-- Whether a transition fails through the fault of its module. -/
def Callback.AtFault (s : Session) (w : World) : Callback → Prop
  | .connect name => Text.trimmed name = ""
  | .requirements _ => (w.peer s).context.moduleId = none
  | .configSchema d => w.Faulty s d
  | .ready d => (w.peer s).context.moduleId = none ∨ Address.isValid d.address = false
  | .disconnect => False

variable {t : Callback}

theorem Callback.disconnect_returns (hw : w.Fit s b 1) :
    (Callback.disconnect.program p s).Returns n s b (fun _ _ => True) w :=
  (onDisconnect_timed.returns n (Nat.le_refl 1) hw).mono fun _ _ _ => trivial

/-- Whatever befalls the store, a transition with a peer that is not silent returns. -/
theorem Callback.returns (hb : b ≠ .hang) (hw : w.Fit s b 1) :
    (t.program p s).Returns n s b (fun _ _ => True) w := by
  cases t with
  | connect name =>
    exact report_answered hb ((connectSteps_timed.returns n (Nat.le_refl 1) hw).mono fun _ _ h => h.1)
  | requirements r => exact report_answered hb ((requireSteps_returns hw).mono fun _ _ h => h.1)
  | configSchema d =>
    exact report_answered hb ((schemaSteps_timed.returns n (Nat.le_refl 1) hw).mono fun _ _ h => h.1)
  | ready d => exact report_answered hb ((readySteps_returns hw).mono fun _ _ h => h.1)
  | disconnect => exact disconnect_returns hw

/-- A transition returns or waits forever: the latter just when a silent peer is to be told that its
module is at fault. Whether a schema declaration is at fault the store has to answer. -/
theorem Callback.decided (hf : ∀ d, t = .configSchema d → w.faults = []) (hw : w.Fit s b 1) :
    (¬ (b = .hang ∧ t.AtFault s w) → (t.program p s).Returns n s b (fun _ _ => True) w) ∧
      (b = .hang ∧ t.AtFault s w → (t.program p s).Blocks n s b w) := by
  cases t with
  | connect name => exact report_decided (connectSteps_timed.returns n (Nat.le_refl 1) hw)
  | requirements r => exact report_decided (requireSteps_returns hw)
  | configSchema d => exact report_decided (schemaSteps_returns (hf d rfl) hw)
  | ready d => exact report_decided (readySteps_returns hw)
  | disconnect => exact ⟨fun _ => disconnect_returns hw, fun h => h.2.elim⟩

/-- A transition returns whatever befalls the store, unless the peer is silent. With a silent peer it
returns just when the module is not at fault, where calls about schemas are not tampered with;
otherwise it waits forever for the peer to accept the message that tells of the error. -/
theorem returns_but_for_silent_peer (n : Nat) (p : Place) (s : Session) (w : World) (t : Callback)
    (hw : w.store.live.lastEventId.toNat + 1 < UInt64.size) :
    ((w.peer s).behaviour ≠ .hang →
      (t.program p s).Returns n s (w.peer s).behaviour (fun _ _ => True) w) ∧
    ((∀ d, t = .configSchema d → w.faults = []) →
      ((t.program p s).Returns n s (w.peer s).behaviour (fun _ _ => True) w ↔
        ¬ ((w.peer s).behaviour = .hang ∧ t.AtFault s w)) ∧
      ((t.program p s).Blocks n s (w.peer s).behaviour w ↔
        (w.peer s).behaviour = .hang ∧ t.AtFault s w)) := by
  have hfit : w.Fit s (w.peer s).behaviour 1 := ⟨rfl, hw⟩
  refine ⟨fun hb => Callback.returns hb hfit, fun hf => ?_⟩
  obtain ⟨hreturns, hblocks⟩ := Callback.decided (n := n) (p := p) (t := t) hf hfit
  have hnot : (t.program p s).Blocks n s (w.peer s).behaviour w →
      ¬ (t.program p s).Returns n s (w.peer s).behaviour (fun _ _ => True) w :=
    fun h => Action.Blocks.not_returns hfit h
  refine ⟨⟨fun h hsilent => hnot (hblocks hsilent) h, hreturns⟩, fun h => ?_, hblocks⟩
  exact Classical.byContradiction fun hsilent => hnot h (hreturns hsilent)

/-! ## A silent peer -/

/-- A node and its one session, whose peer never answers. -/
def silent : World :=
  { World.initial default with
    nodes := [.fresh ⟨⟨"n1"⟩, ⟨2000, 5000⟩, ⟨100, .oldestFirst⟩⟩ true]
    peers := [⟨⟨"c1"⟩, .hang, .empty, 0⟩] }

theorem silent_fit : silent.Fit ⟨0, ⟨"c1"⟩⟩ .hang 1 where
  behaviour := rfl
  spare := by decide

/-- A silent peer that names no module is never done connecting. -/
theorem unnamed_never_returns :
    ¬ ∀ (n : Nat) (p : Place) (s : Session) (w : World) (t : Callback), w.faults = [] →
      w.store.live.lastEventId.toNat + 1 < UInt64.size →
      (t.program p s).Returns n s (w.peer s).behaviour (fun _ _ => True) w := by
  intro hclaim
  have hblocks : Action.Blocks 0 ⟨0, ⟨"c1"⟩⟩ .hang
      ((Callback.connect "").program ⟨⟨"n1"⟩, ⟨2000, 5000⟩⟩ ⟨0, ⟨"c1"⟩⟩) silent :=
    (Callback.decided (fun _ _ => rfl) silent_fit).2 ⟨rfl, rfl⟩
  exact Action.Blocks.not_returns silent_fit hblocks (hclaim _ _ _ _ _ rfl silent_fit.spare)

/-- Only the message that tells of the error is waited for: the silent peer may leave. -/
theorem silent_peer_leaves :
    silent.store.live.lastEventId.toNat + 1 < UInt64.size ∧
    Action.Blocks 0 ⟨0, ⟨"c1"⟩⟩ .hang
      ((Callback.connect "").program ⟨⟨"n1"⟩, ⟨2000, 5000⟩⟩ ⟨0, ⟨"c1"⟩⟩) silent ∧
    Action.Returns 0 ⟨0, ⟨"c1"⟩⟩ .hang (fun _ _ => True)
      (Callback.disconnect.program ⟨⟨"n1"⟩, ⟨2000, 5000⟩⟩ ⟨0, ⟨"c1"⟩⟩) silent := by
  have hspare := silent_fit.spare
  have hconnect := (returns_but_for_silent_peer 0 ⟨⟨"n1"⟩, ⟨2000, 5000⟩⟩ ⟨0, ⟨"c1"⟩⟩ silent
    (.connect "") hspare).2 fun _ _ => rfl
  have hdisconnect := (returns_but_for_silent_peer 0 ⟨⟨"n1"⟩, ⟨2000, 5000⟩⟩ ⟨0, ⟨"c1"⟩⟩ silent
    .disconnect hspare).2 fun _ _ => rfl
  exact ⟨hspare, hconnect.2.mpr ⟨rfl, rfl⟩, hdisconnect.1.mpr fun h => h.2⟩

end Lifecycle

end ConfigRegistry
