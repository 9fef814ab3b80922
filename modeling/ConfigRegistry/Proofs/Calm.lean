import ConfigRegistry.Simulation
import ConfigRegistry.Proofs.Progress

/-!
# Between two steps

Between two steps of a hand-wired cluster nothing is left to do at the current time:
the outbox is empty and only messages to slow peers are under way, each due later
(`Simulation.Calm`). `perform_calm` carries what a program ensures over to the
simulation that runs it, and ends calm again.
-/

namespace ConfigRegistry

/-! ## Behaviours stay -/

def World.behaviours (w : World) : List Behaviour := w.peers.map Peer.behaviour

/-- Every world of an answer has the given behaviours, as far as the world it is given back has. -/
def Answer.Within {β : Type} (bs : List Behaviour) : Answer β → Prop
  | .now w _ => w.behaviours = bs
  | .later w _ reply => w.behaviours = bs ∧
      ∀ w', w'.behaviours = bs → ∀ x, reply w' = some x → x.1.behaviours = bs
  | .never w => w.behaviours = bs
  | .overflow => True

namespace World

theorem hears_of_behaviours {w w' : World} (h : w'.behaviours = w.behaviours) (s : Session) :
    w'.hears s = w.hears s := by
  have hs : (w'.peers.map Peer.behaviour)[s.serial]? = (w.peers.map Peer.behaviour)[s.serial]? := by
    rw [show w'.peers.map Peer.behaviour = w.peers.map Peer.behaviour from h]
  simp only [List.getElem?_map] at hs
  unfold hears peer
  cases h₁ : w'.peers[s.serial]? <;> cases h₂ : w.peers[s.serial]? <;> simp_all

theorem behaviours_of_faces {w w' : World} (h : w'.peers.map Peer.face = w.peers.map Peer.face) :
    w'.behaviours = w.behaviours := by
  have := congrArg (List.map fun f => f.2.1) h
  simpa [behaviours, Peer.face, Function.comp_def] using this

theorem behaviours_modifyPeer (s : Session) (f : Peer → Peer) (w : World)
    (hf : ∀ p, (f p).behaviour = p.behaviour) : (w.modifyPeer s f).behaviours = w.behaviours := by
  unfold behaviours modifyPeer
  apply List.ext_getElem?
  intro j
  simp only [List.getElem?_map, List.getElem?_modify]
  cases w.peers[j]? with
  | none => rfl
  | some p => by_cases hj : s.serial = j <;> simp [hj, hf]

/-- Every world of a program has the given behaviours, as far as the worlds it goes on in have. -/
def Progress.Within {α : Type} (bs : List Behaviour) : Progress α → Prop
  | .finished w _ => w.behaviours = bs
  | .waiting w _ resume => w.behaviours = bs ∧
      ∀ w', w'.behaviours = bs → (resume w').Within bs
  | .stuck w => w.behaviours = bs
  | .overflow => True

variable {bs : List Behaviour}

theorem replyAfter_within {β : Type} {w : World} {ms : Nat} {reply : World → Option (World × β)}
    (hw : w.behaviours = bs)
    (hr : ∀ w', w'.behaviours = bs → ∀ x, reply w' = some x → x.1.behaviours = bs) :
    (w.replyAfter ms reply).Within bs := by
  unfold replyAfter
  split
  · cases h : reply w with
    | none => trivial
    | some x => exact hr w hw x h
  · exact ⟨hw, hr⟩

theorem replyRace_within {β : Type} {w : World} {r : Race} {done : World → Option (World × β)}
    {expired : Nat → β} (hw : w.behaviours = bs)
    (hr : ∀ w', w'.behaviours = bs → ∀ x, done w' = some x → x.1.behaviours = bs) :
    (w.replyRace r done expired).Within bs := by
  cases r with
  | completes ms => exact replyAfter_within hw hr
  | expires ms =>
    refine replyAfter_within hw ?_
    intro w' hw' x hx
    obtain rfl := Option.some.inj hx
    exact hw'
  | never => exact hw

theorem perform_within (call : Store.Call) {w : World} (hw : w.behaviours = bs)
    (x : World × Except StoreError call.Result) (hx : w.perform call = some x) :
    x.1.behaviours = bs := by
  unfold perform at hx
  by_cases hc : call.readsClock <;> simp only [hc, ↓reduceIte] at hx <;>
    split at hx <;> simp only [Option.some.injEq, reduceCtorEq] at hx <;> subst hx <;> exact hw

theorem callStore_within (limit : Option Nat) (call : Store.Call) {w : World}
    (hw : w.behaviours = bs) : (w.callStore limit call).Within bs := by
  have ht : (w.takeFault call.name).2.behaviours = bs := by
    unfold takeFault
    split <;> exact hw
  unfold callStore
  generalize w.takeFault call.name = fw at ht ⊢
  obtain ⟨fault, w⟩ := fw
  cases fault with
  | pass => exact replyAfter_within ht fun w' hw' => perform_within call hw'
  | fail e => exact ht
  | hang => exact replyRace_within ht fun w' hw' => perform_within call hw'
  | lost =>
    cases h : w.perform call with
    | none => simp only [h]; trivial
    | some x =>
      simp only [h]
      exact replyRace_within (perform_within call ht x h) fun w' hw' => perform_within call hw'
  | delay ms => exact replyRace_within ht fun w' hw' => perform_within call hw'

theorem sendTo_within (limit : Option Nat) (s : Session) (event : String) (payload : Bytes)
    {w : World} (hw : w.behaviours = bs) : (w.sendTo limit s event payload).Within bs := by
  have hd : ∀ w' : World, w'.behaviours = bs → ∀ x : World × Except TransportError Unit,
      some (accept s event payload w', .ok ()) = some x → x.1.behaviours = bs := by
    intro w' hw' x hx
    obtain rfl := Option.some.inj hx
    exact (behaviours_modifyPeer s (fun p => { p with accepted := p.accepted + 1 }) w'
      fun _ => rfl).trans hw'
  unfold sendTo
  cases (w.peer s).behaviour with
  | record => exact replyAfter_within hw hd
  | closed => exact hw
  | hang => exact replyRace_within hw hd
  | slow ms => exact replyRace_within hw hd
  | failAfter m =>
    simp only
    split
    · exact replyAfter_within hw hd
    · exact hw

theorem answer_within (n : Nat) (r : Request) {w : World} (hw : w.behaviours = bs) :
    (w.answer n r).Within bs := by
  cases r with
  | store limit call => exact callStore_within limit call hw
  | emit limit s event payload => exact sendTo_within limit s event payload hw
  | identify s m name =>
    exact (behaviours_modifyPeer s (fun p => { p with context :=
      { p.context with moduleId := some m, moduleName := some name } }) w fun _ => rfl).trans hw
  | attach s b =>
    exact (behaviours_modifyPeer s (fun p => { p with context :=
      { p.context with backend := some b } }) w fun _ => rfl).trans hw
  | detach s =>
    exact (behaviours_modifyPeer s (fun p => { p with context :=
      { p.context with backend := none } }) w fun _ => rfl).trans hw
  | overflow => trivial
  | _ => exact hw

/-- A program never changes how a peer behaves. -/
theorem run_within {α : Type} (n : Nat) (p : Prog α) {w : World} (hw : w.behaviours = bs) :
    (w.run n p).Within bs := by
  induction p generalizing w with
  | done x => exact hw
  | ask r next ih =>
    have ha := answer_within n r hw
    simp only [run]
    cases hr : w.answer n r with
    | now w' reply =>
      rw [hr] at ha
      exact ih reply ha
    | later w' due reply =>
      rw [hr] at ha
      refine ⟨ha.1, fun w'' hw'' => ?_⟩
      simp only
      cases hx : reply w'' with
      | none => trivial
      | some x => exact ih x.2 (ha.2 w'' hw'' x hx)
    | never w' =>
      rw [hr] at ha
      exact ha
    | overflow => trivial

end World

/-- The value that a program in the foreground ended with. -/
def Finish.value? {α : Type} : Finish α → Option α
  | .returned x => some x
  | .hung => none
  | .overflow => none

namespace Simulation

open World (Passes Settles Progress)

/-! ## Messages under way -/

/-- An activity that is no more than a message to a peer that is not recording. -/
def IsLate (underway : Delivery → Prop) (w : World) : Activity → Prop
  | .sending resume => ∃ d : Delivery, w.hears d.recipient = false ∧ underway d ∧ ∀ w',
      resume w' = .finished w' () ∨ resume w' = .finished (w'.accept d.recipient d.event d.payload) ()
  | .running _ _ => False
  | .idle _ => False

/-- All that waits are messages to peers that are not recording. -/
def OnlyLate (underway : Delivery → Prop) (w : World) (xs : List Sleeper) : Prop :=
  ∀ x ∈ xs, IsLate underway w x.activity

/-- Nothing is left to do at the current time. -/
structure Calm (underway : Delivery → Prop) (s : Simulation) : Prop where
  outbox : s.world.outbox = []
  late : OnlyLate underway s.world s.sleepers
  due : ∀ x ∈ s.sleepers, s.world.time < x.due

variable {underway : Delivery → Prop} {w w' : World}

theorem IsLate.of_behaviours (h : w'.behaviours = w.behaviours) {a : Activity}
    (ha : IsLate underway w a) : IsLate underway w' a := by
  cases a with
  | sending resume =>
    obtain ⟨d, hd, hu, hr⟩ := ha
    exact ⟨d, (World.hears_of_behaviours h _).trans hd, hu, hr⟩
  | running j resume => exact ha
  | idle j => exact ha

theorem IsLate.mono {underway' : Delivery → Prop}
    (h : ∀ d, w.hears d.recipient = false → underway d → underway' d) {a : Activity}
    (ha : IsLate underway w a) : IsLate underway' w a := by
  cases a with
  | sending resume =>
    obtain ⟨d, hd, hu, hr⟩ := ha
    exact ⟨d, hd, h d hd hu, hr⟩
  | running j resume => exact ha
  | idle j => exact ha

theorem OnlyLate.of_behaviours (h : w'.behaviours = w.behaviours) {xs : List Sleeper}
    (hx : OnlyLate underway w xs) : OnlyLate underway w' xs :=
  fun x hm => (hx x hm).of_behaviours h

theorem OnlyLate.filter {xs : List Sleeper} (hx : OnlyLate underway w xs) (f : Sleeper → Bool) :
    OnlyLate underway w (xs.filter f) := fun x hm => hx x (List.mem_filter.mp hm).1

theorem passes_time (h : Passes underway w w') : w'.behaviours = w.behaviours :=
  World.behaviours_of_faces h.faces

/-- A late message that goes on arrives or does not. -/
theorem wake_late {a : Activity} (ha : IsLate underway w a) :
    (wake w a).2 = none ∧ Passes underway w (wake w a).1 ∧ (wake w a).1.time = w.time := by
  cases a with
  | running j resume => exact ha.elim
  | idle j => exact ha.elim
  | sending resume =>
    obtain ⟨d, hd, hu, hr⟩ := ha
    rcases hr w with h | h
    · simp only [wake, h, settleSending]
      exact ⟨trivial, .refl w, trivial⟩
    · simp only [wake, h, settleSending]
      exact ⟨trivial, Passes.accept hd hu, rfl⟩

theorem wakeAll_late {xs : List Sleeper} (hx : OnlyLate underway w xs) :
    (wakeAll xs w).2 = [] ∧ Passes underway w (wakeAll xs w).1 ∧
      (wakeAll xs w).1.time = w.time := by
  induction xs generalizing w with
  | nil => exact ⟨rfl, .refl w, rfl⟩
  | cons x rest ih =>
    obtain ⟨hn, hp, ht⟩ := wake_late (hx x List.mem_cons_self)
    have hrest : OnlyLate underway (wake w x.activity).1 rest :=
      OnlyLate.of_behaviours (passes_time hp) fun y hy => hx y (List.mem_cons_of_mem x hy)
    obtain ⟨hn', hp', ht'⟩ := ih hrest
    simp only [wakeAll, hn, hn']
    exact ⟨rfl, hp.trans hp', ht'.trans ht⟩

/-! ## Sending the outbox -/

/-- What the sending of one notice comes to: it arrives now, or it arrives later or never, and
then the recipient is not recording. -/
theorem send_cases (m : Notice) (w : World) :
    settleSending (w.run 0 (Notice.program m)) w =
        (w.accept m.recipient m.event m.payload, none) ∨
      w.hears m.recipient = false ∧
        (settleSending (w.run 0 (Notice.program m)) w = (w, none) ∨
          ∃ due resume, w.time < due ∧
            settleSending (w.run 0 (Notice.program m)) w = (w, some ⟨due, .sending resume⟩) ∧
            ∀ w', resume w' = .finished w' () ∨
              resume w' = .finished (w'.accept m.recipient m.event m.payload) ()) := by
  have hprog : w.run 0 (Notice.program m) =
      (w.run 0 (Prog.request (.emit (some m.limit) m.recipient m.event m.payload))).andThen
        fun w _ => .finished w () := World.run_bind' _ _ w
  rw [hprog]
  simp only [Prog.request, World.run, World.answer]
  have hsend := World.sendTo_sending (some m.limit) m.recipient m.event m.payload w
  generalize w.sendTo (some m.limit) m.recipient m.event m.payload = answer at hsend
  cases hsend with
  | arrives _ => exact .inl rfl
  | refused e hs => exact .inr ⟨hs, .inl rfl⟩
  | delayed hs hd _ => exact .inr ⟨hs, .inr ⟨_, _, hd, rfl, fun w' => .inr rfl⟩⟩
  | expires e hs hd => exact .inr ⟨hs, .inr ⟨_, _, hd, rfl, fun w' => .inl rfl⟩⟩
  | lost hs => exact .inr ⟨hs, .inl rfl⟩

/-- Some of the notices arrive, all of those for recording peers and these in order; the others
wait or are lost. -/
structure Sent (underway : Delivery → Prop) (ms : List Notice) (w : World)
    (r : World × List Sleeper) : Prop where
  world : ∃ peers arrived,
    r.1 = { w with peers := peers, deliveries := arrived ++ w.deliveries } ∧
    peers.map Peer.face = w.peers.map Peer.face ∧
    (arrived.filter fun d => w.hears d.recipient) =
      ((ms.map Notice.delivery).filter fun d => w.hears d.recipient).reverse ∧
    ∀ d ∈ arrived, d ∈ ms.map Notice.delivery
  late : OnlyLate underway w r.2
  due : ∀ x ∈ r.2, w.time < x.due

/-- The notices to peers that are not recording are among those that may be under way. -/
def Announced (underway : Delivery → Prop) (w : World) (ms : List Notice) : Prop :=
  ∀ m ∈ ms, w.hears m.recipient = false → underway m.delivery

theorem Sent.nil (w : World) : Sent underway [] w (w, []) where
  world := ⟨w.peers, [], rfl, rfl, rfl, by simp⟩
  late := by simp [OnlyLate]
  due := by simp

/-- Another notice arrives after the one at the front. -/
theorem Sent.arrives {m : Notice} {ms : List Notice} {r : World × List Sleeper}
    (h : Sent underway ms (w.accept m.recipient m.event m.payload) r) :
    Sent underway (m :: ms) w r := by
  obtain ⟨⟨ps, ds, hr, hf, hh, hm⟩, hl, hd⟩ := h
  have hfaces : (w.accept m.recipient m.event m.payload).peers.map Peer.face =
      w.peers.map Peer.face := World.faces_modify_accepted _ _ _
  have hears := fun s => World.hears_of_faces hfaces s
  simp only [hears] at hh
  refine ⟨⟨ps, ds ++ [m.delivery], ?_, hf.trans hfaces, ?_, ?_⟩, ?_, hd⟩
  · rw [hr]
    simp [World.accept_eq, Notice.delivery]
  · rw [List.filter_append, hh, List.map_cons, List.filter_cons]
    by_cases hs : w.hears m.delivery.recipient <;> simp [hs]
  · intro d hd
    rcases List.mem_append.mp hd with hd | hd
    · exact List.mem_cons_of_mem _ (hm d hd)
    · exact List.mem_singleton.mp hd ▸ List.mem_cons_self
  · exact hl.of_behaviours (World.behaviours_of_faces hfaces.symm)

/-- The notice at the front does not arrive now. -/
theorem Sent.misses {m : Notice} {ms : List Notice} {r : World × List Sleeper}
    (h : Sent underway ms w r) (xs : List Sleeper) (hs : w.hears m.recipient = false)
    (hx : OnlyLate underway w xs) (hd : ∀ x ∈ xs, w.time < x.due) :
    Sent underway (m :: ms) w (r.1, xs ++ r.2) := by
  obtain ⟨⟨ps, ds, hr, hf, hh, hm⟩, hl, hd'⟩ := h
  refine ⟨⟨ps, ds, hr, hf, ?_, fun d hd => List.mem_cons_of_mem _ (hm d hd)⟩, ?_, ?_⟩
  · rw [hh, List.map_cons, List.filter_cons_of_neg]
    simpa [Notice.delivery] using hs
  · intro x hm
    rcases List.mem_append.mp hm with hm | hm
    · exact hx x hm
    · exact hl x hm
  · intro x hm
    rcases List.mem_append.mp hm with hm | hm
    · exact hd x hm
    · exact hd' x hm

theorem sendAll_sent {ms : List Notice} {w : World} (hm : Announced underway w ms) :
    Sent underway ms w (sendAll ms w) := by
  induction ms generalizing w with
  | nil => exact .nil w
  | cons m rest ih =>
    rcases send_cases m w with h | ⟨hs, h | ⟨due, resume, hd, h, hr⟩⟩ <;>
      simp only [sendAll, h, Option.toList_none, Option.toList_some, List.nil_append]
    · refine .arrives (ih fun m' hm' hh => hm m' (List.mem_cons_of_mem _ hm') ?_)
      rw [← hh]
      exact (World.hears_of_faces (World.faces_modify_accepted w.peers _ 1) _).symm
    · have hrest := ih fun m' hm' => hm m' (List.mem_cons_of_mem _ hm')
      exact hrest.misses [] hs (by simp [OnlyLate]) (by simp)
    · have hrest := ih fun m' hm' => hm m' (List.mem_cons_of_mem _ hm')
      have hlate : IsLate underway w (.sending resume) :=
        ⟨m.delivery, hs, hm m List.mem_cons_self hs, hr⟩
      exact hrest.misses [⟨due, .sending resume⟩] hs
        (fun x hx => List.mem_singleton.mp hx ▸ hlate)
        (fun x hx => List.mem_singleton.mp hx ▸ hd)

/-! ## Time passes -/

theorem Announced.of_passes {ms : List Notice} (h : Passes underway w w')
    (hm : Announced underway w ms) : Announced underway w' ms := by
  intro m hmem hh
  rw [World.hears_of_faces h.faces] at hh
  exact hm m hmem hh

/-- The world with nothing in its outbox. -/
def emptied (w : World) : World := { w with outbox := [] }

theorem hears_emptied (w : World) (x : Session) : (emptied w).hears x = w.hears x := rfl

/-- Time passes, then the outbox is sent. -/
theorem settles_of_sent {w₁ : World} {r : World × List Sleeper} (hp : Passes underway w w₁)
    (hs : Sent underway w.outbox (emptied w₁) r) : Settles underway w r.1 := by
  obtain ⟨⟨ps', ds', hr, hf', hh, hm⟩, -, -⟩ := hs
  simp only [hears_emptied, World.hears_of_faces hp.faces] at hh
  obtain ⟨t, ps, ds, rfl, hf, hd⟩ := hp
  refine ⟨t, ps', ds' ++ ds, by simp [hr, emptied], hf'.trans hf, ?_, ?_⟩
  · have hnone : ds.filter (fun d => w.hears d.recipient) = [] := by
      rw [List.filter_eq_nil_iff]
      intro d hmem
      simp [(hd d hmem).1]
    rw [List.filter_append, hnone, List.append_nil, hh]
  · intro d hdm _
    rcases List.mem_append.mp hdm with hdm | hdm
    · exact .inr (hm d hdm)
    · exact .inl (hd d hdm).2

theorem Sent.faces {ms : List Notice} {r : World × List Sleeper} (h : Sent underway ms w r) :
    r.1.peers.map Peer.face = w.peers.map Peer.face := by
  obtain ⟨⟨ps, ds, hr, hf, -⟩, -⟩ := h
  rw [hr]
  exact hf

theorem Sent.time {ms : List Notice} {r : World × List Sleeper} (h : Sent underway ms w r) :
    r.1.time = w.time := by
  obtain ⟨⟨ps, ds, hr, -⟩, -⟩ := h
  rw [hr]

/-- Settling sends the outbox and leaves the simulation calm, at the same time. -/
theorem settle_calm {s : Simulation} (hl : OnlyLate underway s.world s.sleepers)
    (hm : Announced underway s.world s.world.outbox) :
    Settles underway s.world s.settle.world ∧ Calm underway s.settle ∧
      s.settle.world.time = s.world.time := by
  let isDue := fun x : Sleeper => decide (x.due ≤ s.world.time)
  obtain ⟨hagain, hp, ht⟩ := wakeAll_late (hl.filter isDue)
  let w₁ := (wakeAll (s.sleepers.filter isDue) s.world).1
  -- Waking late messages leaves the outbox as it was, which is then sent.
  have hout : w₁.outbox = s.world.outbox := by
    obtain ⟨t, ps, ds, hw, -⟩ := hp
    simp only [w₁, hw]
  have hsent : Sent underway s.world.outbox (emptied w₁) (sendAll s.world.outbox (emptied w₁)) :=
    sendAll_sent fun m hmem hh => hm.of_passes hp m hmem hh
  have hsettle : s.settle = ⟨(sendAll s.world.outbox (emptied w₁)).1,
      s.sleepers.filter (fun x => !isDue x) ++ (sendAll s.world.outbox (emptied w₁)).2⟩ := by
    rw [← hout]
    simp only [settle, isDue, w₁, emptied] at hagain ⊢
    rw [hagain, List.append_nil]
  rw [hsettle]
  have hb : (sendAll s.world.outbox (emptied w₁)).1.behaviours = s.world.behaviours :=
    World.behaviours_of_faces (hsent.faces.trans hp.faces)
  refine ⟨settles_of_sent hp hsent, ⟨?_, ?_, ?_⟩, hsent.time.trans ht⟩
  · obtain ⟨⟨ps, ds, hr, -⟩, -⟩ := hsent
    rw [hr]
    rfl
  · intro x hx
    rcases List.mem_append.mp hx with hx | hx
    · exact (hl x (List.mem_filter.mp hx).1).of_behaviours hb
    · exact (hsent.late x hx).of_behaviours (World.behaviours_of_faces hsent.faces)
  · intro x hx
    simp only [hsent.time]
    rcases List.mem_append.mp hx with hx | hx
    · have hnot := (List.mem_filter.mp hx).2
      simp only [isDue, Bool.not_eq_eq_eq_not, Bool.not_true, decide_eq_false_iff_not,
        Nat.not_le] at hnot
      exact (Nat.lt_of_le_of_lt (Nat.le_of_eq ht) hnot)
    · exact hsent.due x hx

/-- While only late messages wait, time passes and only late messages wait. -/
theorem passTime_passes {s : Simulation} {k target : Nat} (ho : s.world.outbox = [])
    (hl : OnlyLate underway s.world s.sleepers) :
    Passes underway s.world (passTime k target s).world ∧
      OnlyLate underway (passTime k target s).world (passTime k target s).sleepers := by
  induction k generalizing s with
  | zero => exact ⟨.setTime _ _, hl⟩
  | succ k ih =>
    obtain ⟨hs, hc, -⟩ := settle_calm hl (by simp [ho, Announced])
    have hp := hs.passes ho
    have hset : ∀ t, Passes underway s.world (s.settle.setTime t).world := fun t =>
      hp.trans (.setTime _ t)
    simp only [passTime]
    split
    · rename_i due _
      by_cases hd : due < target
      · simp only [hd, ↓reduceIte]
        obtain ⟨hp', hl'⟩ := ih (s := s.settle.setTime due) hc.outbox hc.late
        exact ⟨(hset due).trans hp', hl'⟩
      · simp only [hd, ↓reduceIte]
        exact ⟨hset target, hc.late⟩
    · exact ⟨hset target, hc.late⟩

theorem waitUntil_passes {s : Simulation} (target : Nat) (ho : s.world.outbox = [])
    (hl : OnlyLate underway s.world s.sleepers) :
    Passes underway s.world (s.waitUntil target).world ∧
      OnlyLate underway (s.waitUntil target).world (s.waitUntil target).sleepers := by
  unfold waitUntil
  split
  · exact passTime_passes ho hl
  · exact ⟨.refl _, hl⟩

/-! ## Steps -/

variable {α : Type} {post : Option α → World → Prop}

/-- What a program ensures holds in the world in which the foreground leaves it. -/
theorem drive_ensures (limit : Nat) {p : Progress α} {s : Simulation}
    (hp : p.Ensures underway post) (hb : p.Within s.world.behaviours)
    (hl : OnlyLate underway s.world s.sleepers)
    (hn : (drive limit p s).2 ≠ .overflow) :
    post (drive limit p s).2.value? (drive limit p s).1.world ∧
      OnlyLate underway (drive limit p s).1.world (drive limit p s).1.sleepers := by
  induction p generalizing s with
  | finished w x => exact ⟨hp, hl.of_behaviours hb⟩
  | waiting w due resume ih =>
    have hl' : OnlyLate underway w s.sleepers := hl.of_behaviours hb.1
    simp only [drive] at hn ⊢
    by_cases hd : due ≤ limit
    · simp only [hd, ↓reduceIte] at hn ⊢
      obtain ⟨hpass, hlate⟩ := waitUntil_passes (s := { s with world := w }) due hp.1 hl'
      have hbeh := passes_time hpass
      refine ih _ (hp.2 _ hpass).2 ?_ hlate hn
      rw [hbeh, hb.1]
      exact hb.2 _ (hbeh.trans hb.1)
    · simp only [hd, ↓reduceIte] at hn ⊢
      obtain ⟨hpass, hlate⟩ := waitUntil_passes (s := { s with world := w }) limit hp.1 hl'
      exact ⟨(hp.2 _ hpass).1, hlate⟩
  | stuck w =>
    obtain ⟨hpass, hlate⟩ := waitUntil_passes (s := { s with world := w }) limit hp.1
      (hl.of_behaviours hb)
    exact ⟨hp.2 _ hpass, hlate⟩
  | overflow => exact absurd rfl hn

/-- A step of a calm simulation: what the program ensures holds, its outbox is sent, and the
simulation is calm again. -/
theorem perform_calm {n : Nat} {p : Prog α} {s : Simulation} (hs : Calm underway s)
    (hp : (s.world.run n p).Ensures underway post)
    (hm : ∀ o w, post o w → Announced underway w w.outbox)
    (hn : (s.perform n p).2 ≠ .overflow) :
    ∃ w, post (s.perform n p).2.value? w ∧ Settles underway w (s.perform n p).1.world ∧
      Calm underway (s.perform n p).1 := by
  obtain ⟨hpost, hlate⟩ := drive_ensures (s.world.time + patience) hp
    (World.run_within n p rfl) hs.late hn
  obtain ⟨hsettles, hcalm, -⟩ := settle_calm hlate (hm _ _ hpost)
  exact ⟨_, hpost, hsettles, hcalm⟩

end Simulation

end ConfigRegistry
