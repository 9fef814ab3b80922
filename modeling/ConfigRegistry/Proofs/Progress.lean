import ConfigRegistry.World

/-!
# How far a program gets

A program of a node runs until it waits. Steps of a cluster are taken one at a time,
so while a program waits only time passes and messages sent earlier reach slow peers
(`World.Passes`). `Progress.Ensures` speaks of every world in which a program may
end, or be given up, with any such interference; it follows the program, so the rule
for two programs in a row (`ensures_andThen`) is an equivalence.
-/

namespace ConfigRegistry

/-- What the world knows of a peer, except for how many messages it accepted. -/
def Peer.face (p : Peer) : ConnectionId × Behaviour × SessionContext :=
  (p.conn, p.behaviour, p.context)

/-- The message of a notice. -/
def Notice.delivery (m : Notice) : Delivery := ⟨m.recipient, m.event, m.payload⟩

namespace World

/-- Whether messages to a session arrive as they are sent. -/
def hears (w : World) (s : Session) : Bool := (w.peer s).behaviour = .record

/-- Whether a session accepts no message at all: its connection is closed, or never answers. -/
def deaf (w : World) (s : Session) : Bool :=
  (w.peer s).behaviour = .closed ∨ (w.peer s).behaviour = .hang

/-- Time passes; of the messages under way, some reach peers that are not recording. -/
def Passes (underway : Delivery → Prop) (w w' : World) : Prop :=
  ∃ time peers arrived,
    w' = { w with time := time, peers := peers, deliveries := arrived ++ w.deliveries } ∧
    peers.map Peer.face = w.peers.map Peer.face ∧
    ∀ d ∈ arrived, w.hears d.recipient = false ∧ underway d

/-- The notices of the outbox are sent. Recording peers receive theirs in the order of the
outbox; what the others receive was under way or is among the notices. -/
def Settles (underway : Delivery → Prop) (w w' : World) : Prop :=
  ∃ time peers arrived,
    w' = { w with time := time, peers := peers, outbox := [], deliveries := arrived ++ w.deliveries } ∧
    peers.map Peer.face = w.peers.map Peer.face ∧
    (arrived.filter fun d => w.hears d.recipient) =
      ((w.outbox.map Notice.delivery).filter fun d => w.hears d.recipient).reverse ∧
    ∀ d ∈ arrived, w.hears d.recipient = false → underway d ∨ d ∈ w.outbox.map Notice.delivery

/-! ## Faces -/

theorem peer_face {w w' : World} (h : w'.peers.map Peer.face = w.peers.map Peer.face)
    (s : Session) : (w'.peer s).face = (w.peer s).face := by
  have hs : (w'.peers.map Peer.face)[s.serial]? = (w.peers.map Peer.face)[s.serial]? := by rw [h]
  simp only [List.getElem?_map] at hs
  unfold peer
  cases h₁ : w'.peers[s.serial]? <;> cases h₂ : w.peers[s.serial]? <;> simp_all

theorem context_of_faces {w w' : World} (h : w'.peers.map Peer.face = w.peers.map Peer.face)
    (s : Session) : (w'.peer s).context = (w.peer s).context :=
  congrArg (·.2.2) (peer_face h s)

theorem hears_of_faces {w w' : World} (h : w'.peers.map Peer.face = w.peers.map Peer.face)
    (s : Session) : w'.hears s = w.hears s := by
  have hb : (w'.peer s).behaviour = (w.peer s).behaviour := congrArg (·.2.1) (peer_face h s)
  simp [hears, hb]

theorem deaf_of_faces {w w' : World} (h : w'.peers.map Peer.face = w.peers.map Peer.face)
    (s : Session) : w'.deaf s = w.deaf s := by
  have hb : (w'.peer s).behaviour = (w.peer s).behaviour := congrArg (·.2.1) (peer_face h s)
  simp [deaf, hb]

theorem faces_modify_accepted (ps : List Peer) (i n : Nat) :
    (ps.modify i fun p => { p with accepted := p.accepted + n }).map Peer.face =
      ps.map Peer.face := by
  apply List.ext_getElem?
  intro j
  simp only [List.getElem?_map, List.getElem?_modify]
  cases ps[j]? with
  | none => rfl
  | some p => by_cases hj : i = j <;> simp [hj, Peer.face]

theorem accept_eq (s : Session) (event : String) (payload : Bytes) (w : World) :
    w.accept s event payload =
      { w with
        peers := w.peers.modify s.serial fun p => { p with accepted := p.accepted + 1 }
        deliveries := ⟨s, event, payload⟩ :: w.deliveries } := rfl

/-! ## Passing time -/

variable {underway : Delivery → Prop} {w w' w₁ w₂ : World}

theorem Passes.refl (w : World) : Passes underway w w :=
  ⟨w.time, w.peers, [], rfl, rfl, by simp⟩

theorem Passes.trans (h₁ : Passes underway w w₁) (h₂ : Passes underway w₁ w₂) :
    Passes underway w w₂ := by
  obtain ⟨t₁, ps₁, ds₁, rfl, hf₁, hd₁⟩ := h₁
  obtain ⟨t₂, ps₂, ds₂, rfl, hf₂, hd₂⟩ := h₂
  refine ⟨t₂, ps₂, ds₂ ++ ds₁, by simp, hf₂.trans hf₁, ?_⟩
  intro d hd
  rcases List.mem_append.mp hd with hd | hd
  · obtain ⟨hh, hu⟩ := hd₂ d hd
    rw [hears_of_faces (w := w) hf₁] at hh
    exact ⟨hh, hu⟩
  · exact hd₁ d hd

theorem Passes.faces (h : Passes underway w w') : w'.peers.map Peer.face = w.peers.map Peer.face := by
  obtain ⟨t, ps, ds, rfl, hf, -⟩ := h
  exact hf

theorem Passes.setTime (w : World) (t : Nat) : Passes underway w { w with time := t } :=
  ⟨t, w.peers, [], rfl, rfl, by simp⟩

theorem Passes.accept {s : Session} {event : String} {payload : Bytes}
    (hs : w.hears s = false) (hu : underway ⟨s, event, payload⟩) :
    Passes underway w (w.accept s event payload) := by
  refine ⟨w.time, _, [⟨s, event, payload⟩], rfl, faces_modify_accepted _ _ _, ?_⟩
  intro d hd
  obtain rfl := List.mem_singleton.mp hd
  exact ⟨hs, hu⟩

/-! ## Settling -/

theorem Settles.faces (h : Settles underway w w') : w'.peers.map Peer.face = w.peers.map Peer.face := by
  obtain ⟨t, ps, ds, rfl, hf, -⟩ := h
  exact hf

theorem Settles.store (h : Settles underway w w') : w'.store = w.store := by
  obtain ⟨t, ps, ds, rfl, -⟩ := h
  rfl

theorem Settles.nodes (h : Settles underway w w') : w'.nodes = w.nodes := by
  obtain ⟨t, ps, ds, rfl, -⟩ := h
  rfl

/-- With nothing to be sent nothing need change. -/
theorem Settles.refl (ho : w.outbox = []) : Settles underway w w :=
  ⟨w.time, w.peers, [], by simp [← ho], rfl, by simp [ho], by simp⟩

/-- With nothing to be sent only time passes. -/
theorem Settles.passes (h : Settles underway w w') (ho : w.outbox = []) : Passes underway w w' := by
  obtain ⟨t, ps, ds, rfl, hf, hh, hu⟩ := h
  refine ⟨t, ps, ds, by simp [← ho], hf, ?_⟩
  intro d hd
  simp only [ho, List.map_nil, List.filter_nil, List.reverse_nil, List.filter_eq_nil_iff] at hh
  have hs : w.hears d.recipient = false := by simpa using hh d hd
  refine ⟨hs, ?_⟩
  rcases hu d hd hs with hu | hu
  · exact hu
  · simp [ho] at hu

/-! ## Sending a message -/

/-- What the sending of a message comes to: it arrives at once, or the recipient is not recording
and it is refused, arrives later, runs into its deadline, or is never answered. What arrives, does
so at a session that is not deaf. -/
inductive Sending (s : Session) (event : String) (payload : Bytes) (w : World) :
    Answer (Except TransportError Unit) → Prop
  | arrives (ha : w.deaf s = false) : Sending s event payload w (.now (w.accept s event payload) (.ok ()))
  | refused (e : TransportError) (hs : w.hears s = false) :
      Sending s event payload w (.now w (.error e))
  | delayed {due : Nat} (hs : w.hears s = false) (hd : w.time < due) (ha : w.deaf s = false) :
      Sending s event payload w (.later w due fun w => some (w.accept s event payload, .ok ()))
  | expires {due : Nat} (e : TransportError) (hs : w.hears s = false) (hd : w.time < due) :
      Sending s event payload w (.later w due fun w => some (w, .error e))
  | lost (hs : w.hears s = false) : Sending s event payload w (.never w)

theorem sending_expired {s : Session} {event : String} {payload : Bytes} (ms : Nat)
    (hs : w.hears s = false) :
    Sending s event payload w (w.replyAfter ms fun w => some (w, .error (.timeout s.conn ms))) := by
  unfold replyAfter
  split
  · exact .refused _ hs
  · exact .expires _ hs (by omega)

theorem sendTo_sending (limit : Option Nat) (s : Session) (event : String) (payload : Bytes)
    (w : World) : Sending s event payload w (w.sendTo limit s event payload) := by
  have hh : ∀ b, (w.peer s).behaviour = b → b ≠ .record → w.hears s = false := by
    intro b hb hne
    simp [hears, hb, hne]
  have ha : ∀ b, (w.peer s).behaviour = b → b ≠ .closed → b ≠ .hang → w.deaf s = false := by
    intro b hb hclosed hhang
    simp [deaf, hb, hclosed, hhang]
  unfold sendTo
  cases hb : (w.peer s).behaviour with
  | record => exact .arrives (ha _ hb (by simp) (by simp))
  | closed => exact .refused _ (hh _ hb (by simp))
  | hang =>
    cases limit with
    | none => exact .lost (hh _ hb (by simp))
    | some l => exact sending_expired l (hh _ hb (by simp))
  | slow ms =>
    have hs := hh _ hb (by simp)
    have ha := ha _ hb (by simp) (by simp)
    have hdone : Sending s event payload w
        (w.replyAfter ms fun w => some (w.accept s event payload, .ok ())) := by
      unfold replyAfter
      split
      · exact .arrives ha
      · exact .delayed hs (by omega) ha
    cases limit with
    | none => exact hdone
    | some l =>
      by_cases hd : ms ≤ l
      · simp only [Race.run, hd, ↓reduceIte, replyRace]
        exact hdone
      · simp only [Race.run, hd, ↓reduceIte, replyRace]
        exact sending_expired l hs
  | failAfter k =>
    simp only
    split
    · exact .arrives (ha _ hb (by simp) (by simp))
    · exact .refused _ (hh _ hb (by simp))

/-! ## Programs in a row -/

namespace Progress

variable {α β : Type}

/-- Goes on with what is done with the value of a program. -/
def andThen (f : World → α → Progress β) : Progress α → Progress β
  | .finished w x => f w x
  | .waiting w due resume => .waiting w due fun w => (resume w).andThen f
  | .stuck w => .stuck w
  | .overflow => .overflow

/-- Holds when a program that got this far satisfies `post` wherever it ends, with its value, or
is given up, with none. It may only wait with an empty outbox. -/
def Ensures (underway : Delivery → Prop) (post : Option α → World → Prop) : Progress α → Prop
  | .finished w x => post (some x) w
  | .waiting w _ resume => w.outbox = [] ∧ ∀ w', Passes underway w w' →
      post none w' ∧ (resume w').Ensures underway post
  | .stuck w => w.outbox = [] ∧ ∀ w', Passes underway w w' → post none w'
  | .overflow => True

/-- What holds behind a program when `next` is done with its value. -/
@[simp] def after (post : Option β → World → Prop) (next : World → α → Prop) : Option α → World → Prop
  | some x, w => next w x
  | none, w => post none w

theorem Ensures.mono {post post' : Option α → World → Prop} (h : ∀ o w, post o w → post' o w)
    {p : Progress α} (hp : p.Ensures underway post) : p.Ensures underway post' := by
  induction p with
  | finished w x => exact h _ _ hp
  | waiting w due resume ih =>
    exact ⟨hp.1, fun w' hw => ⟨h _ _ (hp.2 w' hw).1, ih w' (hp.2 w' hw).2⟩⟩
  | stuck w => exact ⟨hp.1, fun w' hw => h _ _ (hp.2 w' hw)⟩
  | overflow => trivial

theorem Ensures.forall {ι : Type} [Nonempty ι] {post : ι → Option α → World → Prop} {p : Progress α}
    (hp : ∀ i, p.Ensures underway (post i)) : p.Ensures underway fun o w => ∀ i, post i o w := by
  have i₀ : ι := Classical.choice inferInstance
  induction p with
  | finished w x => exact hp
  | waiting w due resume ih =>
    refine ⟨(hp i₀).1, fun w' hw => ⟨fun i => ((hp i).2 w' hw).1, ?_⟩⟩
    exact ih w' fun i => ((hp i).2 w' hw).2
  | stuck w => exact ⟨(hp i₀).1, fun w' hw i => (hp i).2 w' hw⟩
  | overflow => trivial

theorem ensures_andThen {f : World → α → Progress β} {post : Option β → World → Prop}
    {p : Progress α} :
    (p.andThen f).Ensures underway post ↔
      p.Ensures underway (after post fun w x => (f w x).Ensures underway post) := by
  induction p with
  | finished w x => rfl
  | waiting w due resume ih =>
    simp only [andThen, Ensures, ih, after]
  | stuck w => rfl
  | overflow => rfl

end Progress

/-! ## Running programs -/

variable {α β : Type} {n : Nat}

theorem run_bind (p : Prog α) (f : α → Prog β) (w : World) :
    w.run n (p.bind f) = (w.run n p).andThen fun w x => w.run n (f x) := by
  induction p generalizing w with
  | done x => rfl
  | ask r next ih =>
    simp only [Prog.bind, run]
    cases w.answer n r with
    | now w' reply => exact ih reply w'
    | later w' due reply =>
      simp only [Progress.andThen]
      congr 1
      funext w''
      cases reply w'' with
      | none => rfl
      | some x => exact ih x.2 x.1
    | never w' => rfl
    | overflow => rfl

@[simp] theorem run_bind' (p : Prog α) (f : α → Prog β) (w : World) :
    w.run n (p >>= f) = (w.run n p).andThen fun w x => w.run n (f x) := run_bind p f w

@[simp] theorem run_pure (x : α) (w : World) : w.run n (pure x) = .finished w x := rfl

end World

end ConfigRegistry
