import ConfigRegistry.Proofs.Configs
import ConfigRegistry.Proofs.Leaks

/-!
# After a disconnect

A disconnect takes a session out of its node, out of all rooms and out of the rows, but the session
still knows its module. Joins ask whether a session is registered, so it is in no room from
then on. A declaration of readiness asks for the module alone, so it is served as before: a session
that is gone has a row and is announced again (`Cluster.ended_but_for_ready`).
-/

namespace ConfigRegistry

open World (Aside Settles)

namespace Presence

variable {p p' : Presence} {i : Cluster.Input} {o : Option i.Reply} {k : Nat} {b : Backend}

/-- No other session has the connection id of a session. -/
def Sole (k : Nat) (p : Presence) : Prop := ∀ j, j < p.faces.length → p.conn j = p.conn k → j = k

/-- An id that is not shared was not shared before. -/
theorem Sole.earlier (h : p'.Sole k) (hg : p.Grows p') (hk : k < p.faces.length) : p.Sole k := by
  intro j hj hc
  refine h j (Nat.lt_of_lt_of_le hj hg.faces) ?_
  rw [hg.conn j hj, hg.conn k hk]
  exact hc

/-- Who is registered under an id that is not shared is the session that has it. -/
theorem Rooted.serial_of_conn (h : p.Rooted) (hs : p.Sole k) {n : Nat} {s : Session}
    (hmem : s ∈ p.registered n) (hc : s.conn = p.conn k) : s.serial = k := by
  obtain ⟨hlt, heq, -⟩ := h.registered n s hmem
  exact hs s.serial hlt ((congrArg Session.conn heq).symm.trans hc)

/-- A session that disconnects is not registered any more. -/
theorem Rooted.left (h : p.Rooted) (hk : k < p.faces.length) {o : Option (Except LifecycleError Unit)}
    (hs : Step p (.disconnect k) o p') (n : Nat) : ∀ s ∈ p'.registered n, s.serial ≠ k := by
  cases hs with
  | keeps hi => exact hi.elim
  | leaves hd =>
    rintro s hmem rfl
    have hmem' : s ∈ ((p.holding s.serial none).atNode (p.home s.serial)
        (Table.erase Session.conn (p.conn s.serial))).registered n := hmem
    obtain ⟨-, heq, hhome⟩ := (h.leaves hk).registered n s hmem'
    obtain rfl : p.home s.serial = n := hhome
    rw [registered_atNode (p.holding s.serial none) _ _ _ (h.housed _ hk), if_pos rfl] at hmem'
    have hconn : s.conn = p.conn s.serial :=
      (congrArg Session.conn heq).trans (conn_holding p s.serial s.serial none)
    exact (Table.mem_erase.mp hmem').2 hconn

/-- A session that disconnects holds no backend any more. -/
theorem Step.detached {o : Option (Except LifecycleError Unit)} (hs : Step p (.disconnect k) o p')
    (hk : k < p.faces.length) : (p'.context k).backend = none := by
  cases hs with
  | keeps hi => exact hi.elim
  | leaves hd =>
    have hcontext := context_holding p k k none hk
    rw [if_pos rfl] at hcontext
    exact congrArg SessionContext.backend hcontext

end Presence

namespace Cluster

open Presence (context_opened context_holding)

variable {underway : Delivery → Prop} {profiles : List Profile} {at_ : Timestamp}
  {h h₁ h₂ : List Taken} {c : Cluster} {x y : Taken} {k : Nat} {b : Backend} {i : Input}

/-! ## Calls of a session -/

/-- A call of a session that connected. -/
def Input.Calls (k : Nat) : Input → Prop
  | .requirements j _ | .configSchema j _ | .ready j _ | .disconnect j => j = k
  | _ => False

/-- A session disconnects with success while the store can be reached. -/
def Taken.Ends (k : Nat) : Taken → Prop
  | ⟨c, .disconnect j, some (.ok ()), _⟩ => j = k ∧ c.world.store.available = true
  | _ => False

/-- A session becomes ready with a backend. -/
def Taken.Readies (k : Nat) (b : Backend) : Taken → Prop
  | ⟨_, .ready j _, some (.ok x), _⟩ => j = k ∧ x = b
  | _ => False

theorem Taken.Ends.input (hx : x.Ends k) : x.input = .disconnect k := by
  obtain ⟨c, i, o, c'⟩ := x
  cases i with
  | disconnect j =>
    rcases o with _ | _ | ⟨⟩
    · exact hx.elim
    · exact hx.elim
    · exact congrArg _ hx.1
  | _ => exact hx.elim

theorem Taken.Ends.not_fails (hx : x.Ends k) {j : Nat} : ¬ x.Fails j := by
  obtain ⟨c, i, o, c'⟩ := x
  cases i with
  | disconnect j =>
    rcases o with _ | _ | ⟨⟩
    · exact hx.elim
    · exact hx.elim
    · exact id
  | _ => exact hx.elim

/-- A row that is new is the one of a session that becomes ready. -/
theorem row_cases (hs : x.before.presence.Step x.input x.reply x.after.presence)
    (hk : x.before.presence.Knows x.input) (hb : b ∈ x.after.presence.rows) :
    b ∈ x.before.presence.rows ∨ ∃ k, x.Readies k b ∧ k < x.before.presence.faces.length ∧
      b.connectionId = x.before.presence.conn k ∧ (x.after.presence.context k).backend = some b := by
  obtain ⟨c, i, o, c'⟩ := x
  dsimp only at hs hk hb ⊢
  generalize c'.presence = p' at hs hb ⊢
  cases hs with
  | @readies k d x _ hc _ _ =>
    rcases Table.mem_put.mp hb with ⟨hold, -⟩ | rfl
    · exact .inl hold
    · have hcontext := context_holding c.presence k k (some b) hk
      rw [if_pos rfl] at hcontext
      exact .inr ⟨k, ⟨rfl, rfl⟩, hk, hc, congrArg SessionContext.backend hcontext⟩
  | leaves hd => exact .inl (hd.sublist.subset hb)
  | sweeps _ => exact .inl (List.mem_filter.mp hb).1
  | departs _ => exact .inl (List.mem_filter.mp hb).1
  | _ => exact .inl hb

/-- A session that holds a backend goes on to hold one, or it disconnects; its row is then gone unless
the disconnect fails. -/
theorem held_cases (hs : x.before.presence.Step x.input x.reply x.after.presence)
    (ho : x.before.presence.Owned) (hj : x.before.presence.Knows x.input)
    (hk : k < x.before.presence.faces.length)
    (hb : (x.before.presence.context k).backend ≠ none) :
    (x.after.presence.context k).backend ≠ none ∨ x.Fails k ∨
      ∀ b ∈ x.after.presence.rows, b.connectionId ≠ x.before.presence.conn k := by
  obtain ⟨c, i, o, c'⟩ := x
  dsimp only at hs ho hj hk hb ⊢
  generalize c'.presence = p' at hs ⊢
  have hopened : ∀ n id behaviour ctx,
      ((c.presence.opened n id behaviour ctx).context k).backend ≠ none := by
    intro n id behaviour ctx
    rw [context_opened, if_neg (Nat.ne_of_lt hk)]
    exact hb
  cases hs with
  | refused _ => exact .inl (hopened _ _ _ _)
  | @connects n id behaviour name _ => exact .inl (hopened n id behaviour _)
  | @readies j d x _ _ _ _ =>
    refine .inl ?_
    change ((c.presence.holding j (some x)).context k).backend ≠ none
    rw [context_holding _ _ _ _ hj]
    split
    · exact Option.some_ne_none x
    · exact hb
  | @leaves j r rows hd =>
    by_cases hjk : k = j
    · subst hjk
      cases hd with
      | unreachable _ _ => exact .inr (.inl rfl)
      | empty hnone => exact absurd hnone hb
      | withdraws _ hheld =>
        refine .inr (.inr fun b hmem => ?_)
        rw [← ho.held k _ hheld]
        exact (Table.mem_erase.mp hmem).2
    · refine .inl ?_
      change ((c.presence.holding j none).context k).backend ≠ none
      rw [context_holding _ _ _ _ hj, if_neg hjk]
      exact hb
  | _ => exact .inl hb

/-! ## Runs -/

/-- What a run keeps of sessions and rows. A row under an id that is not shared is of a session that
holds a backend, or was left by a disconnect that failed. -/
structure Accounted (h : List Taken) (c : Cluster) : Prop where
  steady : c.Steady fun _ => True
  owned : c.presence.Owned
  rooted : c.presence.Rooted
  sound : c.world.Sound
  explained : ∀ k, k < c.presence.faces.length → c.presence.Sole k → ∀ b ∈ c.presence.rows,
    b.connectionId = c.presence.conn k → (c.presence.context k).backend ≠ none ∨ Failed h k

theorem start_accounted : Accounted [] (Cluster.start profiles at_) where
  steady := start_steady _ _
  owned := start_owned
  rooted := start_rooted
  sound := start_sound _ _
  explained := fun k hk => absurd hk (Nat.not_lt_zero k)

theorem polls_announced (c : Cluster) (i : Input) : ∀ n, i = .poll n → ∀ l k,
    Simulation.Announced (fun _ => True) c.world (c.world.notices n l k) :=
  fun _ _ _ _ _ _ _ => trivial

theorem Accounted.presence_step (ha : Accounted h c) (hi : Managed i)
    (hov : (c.apply i).2 ≠ .overflow) :
    c.presence.Step i (c.apply i).2.value? (c.apply i).1.presence :=
  apply_presence ha.steady i (polls_announced c i) hi hov

theorem Accounted.step (ha : Accounted h c) (hk : c.Knows i) (hi : Managed i)
    (hov : (c.apply i).2 ≠ .overflow) : Accounted (h ++ [c.take i]) (c.apply i).1 := by
  have hs := ha.presence_step hi hov
  have hknows := presence_knows hk
  have hgrows := hs.grows ha.rooted.homes ha.rooted.housed hknows
  obtain ⟨_, -, -, hsteady⟩ := apply_effect ha.steady i (polls_announced c i) hov
  refine ⟨hsteady, ha.owned.step hknows hs, ha.rooted.step hknows hs,
    apply_sound ha.steady i (polls_announced c i) hov ha.sound, fun k hk' hsole b hb hc => ?_⟩
  -- The row is of a session that there was before; since its id is not shared, that is the session.
  have hsession : ∀ j, j < c.presence.faces.length → b.connectionId = c.presence.conn j → j = k := by
    intro j hj hconn
    refine hsole j (Nat.lt_of_lt_of_le hj hgrows.faces) ?_
    rw [hgrows.conn j hj, ← hconn, hc]
  rcases row_cases (x := c.take i) hs hknows hb with hold | ⟨j, -, hj, hconn, hheld⟩
  · obtain ⟨j, hj, hconn, -⟩ := ha.owned.owner b hold
    obtain rfl := hsession j hj hconn.symm
    rcases ha.explained j hj (hsole.earlier hgrows hj) b hold hconn.symm with hheld | hfailed
    · rcases held_cases (x := c.take i) hs ha.owned hknows hj hheld with hheld | hfails | hgone
      · exact .inl hheld
      · exact .inr (failed_concat.mpr (.inr hfails))
      · exact absurd hconn.symm (hgone b hb)
    · exact .inr (failed_concat.mpr (.inl hfailed))
  · obtain rfl := hsession j hj hconn
    exact .inl (Option.ne_none_iff_exists'.mpr ⟨b, hheld⟩)

theorem run_accounted (hrun : Run (fun _ _ i => Managed i) (Cluster.start profiles at_) h c) :
    Accounted h c := by
  induction hrun with
  | start => exact start_accounted
  | step _ i hk hi hov ih => exact ih.step hk hi hov

/-! ## Calls on a session that is gone -/

/-- A session that is able to becomes ready, and no other one does. -/
theorem ready_answered (hc : c.Steady underway) {d : BackendDeclaration}
    (hov : (c.apply (.ready k d)).2 ≠ .overflow) :
    (∃ b, (c.apply (.ready k d)).2.value? = some (.ok b)) ↔
      Lifecycle.Able (c.session k) d c.world := by
  have hensures : (Lifecycle.onReady (c.place (c.home k)) (c.session k) d).Ensures (c.home k) underway
    _ c.world := Lifecycle.ensures_onReady_iff hc.still
  have hstill : ∀ {o : Option (Except LifecycleError Backend)} {w}, World.Attempt underway (c.session k) c.world
      (Lifecycle.Readied (c.place (c.home k)) (c.session k) c.world) o w → w.Still := by
    intro o w hw
    refine World.Attempt.elim hw (fun _ ha => ha.still hc.still) ?_
    rintro b v ⟨-, -, -, -, e, t, -, rfl⟩
    exact ⟨hc.still.faults, hc.still.outbox⟩
  obtain ⟨w, hw, -, -⟩ := perform_effect hc (Action.ensures_iff.mp hensures)
    (fun o w h => ⟨(hstill h.1).faults, announced_of_still (hstill h.1)⟩) hov
  exact hw.2

/-- Events that a step appended. -/
def Taken.Appends (x : Taken) (es : List Event) : Prop :=
  x.after.world.store.live.events = x.before.world.store.live.events ++ es

theorem declared_events {n : Nat} {s : Session} {d : ConfigSchemaDeclaration} {w v : World}
    {o : Option (Except LifecycleError Unit)} (h : Lifecycle.Declared n underway s d w o v) :
    v.store.live.events = w.store.live.events := by
  have hoffered : ∀ {m schema cf t}, Lifecycle.Offering m d w.issued (w.store.live.upsertSchema schema)
      cf t → t.events = w.store.live.events := by
    intro m schema cf t ho
    cases ho with
    | found _ => rfl
    | created _ hc =>
      obtain ⟨names, -, -, rfl⟩ := hc.stored
      rfl
  cases h with
  | refused ha _ => rw [ha.live]
  | invalid _ _ _ ha _ =>
    rw [ha.live]
    rfl
  | missed _ _ hc _ ha _ =>
    rw [ha.live]
    exact hoffered hc
  | joins _ _ hc ha _ =>
    have hlive := congrArg Tables.events ha.live
    exact hlive.trans (hoffered hc)

theorem left_events {n : Nat} {s : Session} {w v : World} {r : Except LifecycleError Unit}
    (h : Lifecycle.Left n s w r v) : ∃ es, v.store.live.events = w.store.live.events ++ es ∧
      ∀ e ∈ es, e.payload.kind = .moduleDisconnected := by
  obtain ⟨readings, t, -, hd, rfl⟩ := h.departed
  have hmarked : ∀ ctx now, (Lifecycle.marked ctx now w.store.live).events = w.store.live.events := by
    intro ctx now
    unfold Lifecycle.marked
    split <;> rfl
  change ∃ es, t.events = w.store.live.events ++ es ∧ _
  cases hd with
  | unreachable _ _ => exact ⟨[], (List.append_nil _).symm, nofun⟩
  | unknown _ _ => exact ⟨[], (List.append_nil _).symm, nofun⟩
  | marks _ _ now =>
    refine ⟨[], ?_, nofun⟩
    rw [hmarked, List.append_nil]
  | @withdraws _ b _ now now' e _ ht =>
    obtain ⟨hextends, hpayload⟩ := Tables.append?_extends ht
    have hdeleted : ((Lifecycle.marked (w.peer s).context now w.store.live).deleteBackend
        b.connectionId).2.events = w.store.live.events := hmarked _ now
    refine ⟨[e], by rw [hextends.events, hdeleted], fun x hx => ?_⟩
    obtain rfl := List.mem_singleton.mp hx
    rw [hpayload]

theorem readies_iff {d : BackendDeclaration} : (c.take (.ready k d)).Readies k b ↔
    (c.apply (.ready k d)).2.value? = some (.ok b) := by
  unfold Taken.Readies Cluster.take
  generalize (c.apply (.ready k d)).2.value? = o
  rcases o with _ | _ | x
  · simp
  · simp
  · simp

/-- A session that becomes ready has a row and is announced. -/
theorem readies_announced (hc : c.Steady underway) {d : BackendDeclaration}
    (hov : (c.apply (.ready k d)).2 ≠ .overflow) (hb : (c.take (.ready k d)).Readies k b) :
    b ∈ (c.apply (.ready k d)).1.presence.rows ∧ b.connectionId = (c.session k).conn ∧
      ∃ e, (c.take (.ready k d)).Appends [e] ∧ e.payload = ⟨.moduleReady, b.moduleId⟩ := by
  obtain ⟨w, heff, hset, -⟩ := apply_effect hc (.ready k d) (by simp) hov
  rw [readies_iff] at hb
  unfold Taken.Appends Cluster.take
  dsimp only
  generalize (c.apply (.ready k d)).2.value? = o at heff hb
  cases heff with
  | failed _ ho => exact absurd hb (ho b)
  | succeeded hx =>
    obtain rfl := Except.ok.inj (Option.some.inj hb)
    obtain ⟨-, hconn, -, -, e, t, ht, rfl⟩ := hx
    obtain ⟨hextends, hpayload⟩ := Tables.append?_extends ht
    have hrows : (c.apply (.ready k d)).1.presence.rows = t.backends :=
      congrArg (fun st : Store => st.live.backends) hset.store
    refine ⟨?_, hconn, e, ?_, hpayload⟩
    · rw [hrows, hextends.backends]
      exact Table.mem_put.mpr (.inr rfl)
    · rw [hset.store]
      exact hextends.events

/-- No other call of a session announces that a module is ready. -/
theorem calls_silent (hc : c.Steady underway) (hi : i.Calls k) (hov : (c.apply i).2 ≠ .overflow)
    (hb : ∀ b, ¬ (c.take i).Readies k b) :
    ∃ es, (c.take i).Appends es ∧ ∀ e ∈ es, e.payload.kind ≠ .moduleReady := by
  have hu : ∀ n, i = .poll n → ∀ l m, Simulation.Announced underway c.world (c.world.notices n l m) := by
    rintro n rfl
    exact hi.elim
  obtain ⟨w, heff, hset, -⟩ := apply_effect hc i hu hov
  have hnone : w.store.live.events = c.world.store.live.events →
      ∃ es, (c.take i).Appends es ∧ ∀ e ∈ es, e.payload.kind ≠ .moduleReady := by
    intro hsame
    refine ⟨[], ?_, nofun⟩
    unfold Taken.Appends Cluster.take
    rw [hset.store, hsame, List.append_nil]
  cases i with
  | requirements j r =>
    obtain ⟨ks, -, hs, -⟩ := heff
    exact hnone (congrArg Tables.events (subscribing_store hs).1)
  | configSchema j d => exact hnone (declared_events heff)
  | ready j d =>
    obtain rfl : j = k := hi
    simp only [readies_iff] at hb
    generalize (c.apply (.ready j d)).2.value? = o at heff hb
    cases heff with
    | failed ha _ => exact hnone (congrArg Tables.events ha.live)
    | @succeeded x _ _ => exact absurd rfl (hb x)
  | disconnect j =>
    obtain ⟨r, -, hleft⟩ := heff
    obtain ⟨es, hes, hkind⟩ := left_events hleft
    refine ⟨es, ?_, fun e he => by simp [hkind e he]⟩
    unfold Taken.Appends Cluster.take
    rw [hset.store, hes]
  | _ => exact hi.elim

/-! ## The end of a session -/

/-- What holds of a session since it disconnected with success, given the steps before and since. -/
structure Ended (k : Nat) (h₁ h₂ : List Taken) (c : Cluster) : Prop where
  /-- It is in no room. -/
  roomless : ∀ n r, (c.world.node n).rooms.isMember r (c.session k).conn = false
  /-- A row under its id was left by an earlier disconnect that failed, or it became ready since. -/
  rows : ∀ b ∈ c.presence.rows, b.connectionId = (c.session k).conn →
    Failed h₁ k ∨ ∃ y ∈ h₂, y.Readies k b
  /-- Its declarations of readiness are answered as those of a session that is still there. -/
  answered : ∀ y ∈ h₂, ∀ d, y.input = .ready k d →
    ((∃ b, y.Readies k b) ↔ Lifecycle.Able (y.before.session k) d y.before.world)
  /-- They store a row under its id and announce it. -/
  announced : ∀ y ∈ h₂, ∀ b, y.Readies k b → b ∈ y.after.presence.rows ∧
    b.connectionId = (y.before.session k).conn ∧
    ∃ e, y.Appends [e] ∧ e.payload = ⟨.moduleReady, b.moduleId⟩
  /-- None of its other calls announces that a module is ready. -/
  silent : ∀ y ∈ h₂, y.input.Calls k → (∀ b, ¬ y.Readies k b) →
    ∃ es, y.Appends es ∧ ∀ e ∈ es, e.payload.kind ≠ .moduleReady

theorem Taken.Readies.input (hy : y.Readies k b) : ∃ d, y.input = .ready k d := by
  obtain ⟨c, i, o, c'⟩ := y
  cases i with
  | ready j d =>
    rcases o with _ | _ | x
    · exact hy.elim
    · exact hy.elim
    · exact ⟨d, congrArg (Input.ready · d) hy.1⟩
  | _ => exact hy.elim

section Since

variable (hrun : Run (fun _ _ i => Managed i) (Cluster.start profiles at_) h c)
  (hh : h = h₁ ++ x :: h₂) (hx : x.Ends k)

include hrun hh

/-- Sessions went on from where a step left them. -/
theorem since_grows : x.after.presence.Grows c.presence := by
  refine hrun.since (P := fun _ c => x.after.presence.Grows c.presence) hh (.refl _) ?_
  intro h c i hrun' hk hi hov hgrows
  have ha := run_accounted hrun'
  exact hgrows.trans ((ha.presence_step hi hov).grows ha.rooted.homes ha.rooted.housed (presence_knows hk))

include hx

/-- Where the disconnect leaves the session: registered nowhere, and with no row unless an earlier
disconnect failed. -/
theorem ended_start : k < x.after.presence.faces.length ∧
    (∀ n, ∀ s ∈ x.after.presence.registered n, s.serial ≠ k) ∧
    (x.after.presence.Sole k → ∀ b ∈ x.after.presence.rows,
      b.connectionId = x.after.presence.conn k → Failed h₁ k) := by
  obtain ⟨hrun₁, hk, hi, hov, heq⟩ := hrun.split hh
  have hbefore := run_accounted hrun₁
  have hafter : Accounted (h₁ ++ [x]) x.after := by
    rw [heq]
    exact hbefore.step hk hi hov
  have hs : x.before.presence.Step x.input x.reply x.after.presence := by
    rw [heq]
    exact hbefore.presence_step hi hov
  have hknows := presence_knows hk
  have hfails : ¬ x.Fails k := hx.not_fails
  have hinput := hx.input
  obtain ⟨c₁, i, o, c₂⟩ := x
  obtain rfl : i = .disconnect k := hinput
  have hlt : k < c₂.presence.faces.length := Nat.lt_of_lt_of_le hknows
    (hs.grows hbefore.rooted.homes hbefore.rooted.housed hknows).faces
  refine ⟨hlt, hbefore.rooted.left hknows hs, fun hsole b hb hc => ?_⟩
  rcases hafter.explained k hlt hsole b hb hc with hheld | hfailed
  · exact absurd (hs.detached hknows) hheld
  · exact (failed_concat.mp hfailed).resolve_right hfails

theorem ended_roomless (hs : c.presence.Sole k) (n : Nat) (r : Room) :
    (c.world.node n).rooms.isMember r (c.session k).conn = false := by
  obtain ⟨hlt, hleft, -⟩ := ended_start hrun hh hx
  have ha := run_accounted hrun
  refine Bool.eq_false_iff.mpr fun hmember => ?_
  obtain ⟨ids, hroom, hin⟩ := (RoomIndex.mem_idsIn (ha.sound n)).mp (List.contains_iff_mem.mp hmember)
  obtain ⟨s, hmem, hconn⟩ := RoomIndex.isConnected_iff.mp ((ha.sound n).connected _ hroom _ hin)
  have hregistered : s ∈ c.presence.registered n := World.presence_registered n ▸ hmem
  have hserial := ha.rooted.serial_of_conn hs hregistered (hconn.trans (presence_conn k).symm)
  rcases (since_grows hrun hh).registered n s hregistered with hold | hnew
  · exact hleft n s hold hserial
  · omega

theorem ended_rows (hs : c.presence.Sole k) : ∀ b ∈ c.presence.rows,
    b.connectionId = c.presence.conn k → Failed h₁ k ∨ ∃ y ∈ h₂, y.Readies k b := by
  obtain ⟨hlt, -, hstart⟩ := ended_start hrun hh hx
  -- What holds behind the disconnect says that the id is not shared: it goes on to be so backwards.
  refine hrun.since (P := fun h c => c.presence.Sole k → ∀ b ∈ c.presence.rows,
    b.connectionId = c.presence.conn k → Failed h₁ k ∨ ∃ y ∈ h, y.Readies k b) hh ?_ ?_ hs
  · exact fun hsole b hb hc => .inl (hstart hsole b hb hc)
  · intro h c i hrun' hk hi hov ih hsole b hb hc
    have ha := run_accounted hrun'
    have hstep := ha.presence_step hi hov
    have hgrows := hstep.grows ha.rooted.homes ha.rooted.housed (presence_knows hk)
    have hopened : k < c.presence.faces.length :=
      Nat.lt_of_lt_of_le hlt (since_grows hrun' rfl).faces
    rcases row_cases (x := c.take i) hstep (presence_knows hk) hb with hold | ⟨j, hready, hj, hconn, -⟩
    · refine (ih (hsole.earlier hgrows hopened) b hold (hc.trans (hgrows.conn k hopened))).imp_right ?_
      exact fun ⟨y, hy, hb⟩ => ⟨y, List.mem_append_left _ hy, hb⟩
    · have hsame : (c.apply i).1.presence.conn j = (c.apply i).1.presence.conn k := by
        rw [hgrows.conn j hj, ← hc, hconn]
        rfl
      obtain rfl := hsole j (Nat.lt_of_lt_of_le hj hgrows.faces) hsame
      exact .inr ⟨c.take i, List.mem_append_right _ (List.mem_singleton_self _), hready⟩

end Since

/-- Over every run in which backends are written by nodes only, a session whose connection id is
nobody else's is in no room once it disconnected with success, and has a row again, and is announced
again, just when it becomes ready again. That it is gone does not keep it from this. -/
theorem ended_but_for_ready
    (hrun : Run (fun _ _ i => Managed i) (Cluster.start profiles at_) h c)
    (hh : h = h₁ ++ x :: h₂) (hx : x.Ends k) (hs : c.presence.Sole k) : Ended k h₁ h₂ c where
  roomless := ended_roomless hrun hh hx hs
  rows := by
    intro b hb hc
    exact ended_rows hrun hh hx hs b hb (hc.trans (presence_conn k).symm)
  answered := by
    intro y hy d hi
    obtain ⟨_, _, -, hrun', -, -, hov, heq⟩ :=
      hrun.mem (hh ▸ List.mem_append_right h₁ (List.mem_cons_of_mem x hy))
    rw [heq, hi]
    rw [hi] at hov
    simp only [readies_iff]
    exact ready_answered (run_accounted hrun').steady hov
  announced := by
    intro y hy b hb
    obtain ⟨_, _, -, hrun', -, -, hov, heq⟩ :=
      hrun.mem (hh ▸ List.mem_append_right h₁ (List.mem_cons_of_mem x hy))
    obtain ⟨d, hi⟩ := hb.input
    rw [hi] at hov heq
    rw [heq] at hb ⊢
    exact readies_announced (run_accounted hrun').steady hov hb
  silent := by
    intro y hy hcalls hb
    obtain ⟨_, _, -, hrun', -, -, hov, heq⟩ :=
      hrun.mem (hh ▸ List.mem_append_right h₁ (List.mem_cons_of_mem x hy))
    rw [heq] at hb ⊢
    exact calls_silent (run_accounted hrun').steady hcalls hov hb

/-! ## Ready after a disconnect -/

/-- A module connects, disconnects, and only then becomes ready. -/
def parted₀ : Cluster := .start [⟨⟨"n1"⟩, ⟨2000, 2000⟩, ⟨100, .oldestFirst⟩⟩] default
def parted₁ : Cluster := (parted₀.apply (.connect 0 ⟨"c1"⟩ .record "a")).1
def parted₂ : Cluster := (parted₁.apply (.disconnect 0)).1

def partedAddress : BackendDeclaration := ⟨"10.0.0.1:80", "1", "1", "http", [], [], none⟩

def parted₃ : Cluster := (parted₂.apply (.ready 0 partedAddress)).1

theorem parted_run : Run (fun _ _ i => Managed i) parted₀ ([parted₀.take (.connect 0 ⟨"c1"⟩ .record "a")] ++
    parted₁.take (.disconnect 0) :: [parted₂.take (.ready 0 partedAddress)]) parted₃ := by
  have htakes₀ : parted₀.Takes [.connect 0 ⟨"c1"⟩ .record "a", .disconnect 0, .ready 0 partedAddress] := by
    decide +kernel
  have hrun₀ : Run (fun _ _ i => Managed i) parted₀ [] parted₀ := .start
  obtain ⟨hrun₁, htakes₁⟩ := hrun₀.takes htakes₀ (by rintro _ ⟨⟩) parted₁ rfl
  obtain ⟨hrun₂, htakes₂⟩ := hrun₁.takes htakes₁ (by rintro _ ⟨⟩) parted₂ rfl
  obtain ⟨hrun₃, -⟩ := hrun₂.takes htakes₂ (by rintro _ ⟨⟩) parted₃ rfl
  exact hrun₃

theorem parted_ends : (parted₁.take (.disconnect 0)).Ends 0 := by
  have hreply : (parted₁.apply (.disconnect 0)).2.value?.any Except.isOk = true ∧
      parted₁.world.store.available = true := by decide +kernel
  unfold Taken.Ends Cluster.take
  generalize (parted₁.apply (.disconnect 0)).2.value? = o at hreply
  rcases o with _ | _ | ⟨⟩
  · cases hreply.1
  · cases hreply.1
  · exact ⟨rfl, hreply.2⟩

theorem parted_sole : parted₃.presence.Sole 0 := by
  have hlength : parted₃.presence.faces.length = 1 := by decide +kernel
  intro j hj _
  omega

/-- A session that disconnected with success, and never failed to, does get a row again. -/
theorem row_stored_after_disconnect :
    ¬ ∀ (profiles : List Profile) (at_ : Timestamp) (h₁ h₂ : List Taken) (x : Taken) (c : Cluster) (k : Nat),
      Run (fun _ _ i => Managed i) (Cluster.start profiles at_) (h₁ ++ x :: h₂) c → x.Ends k →
      (x.before.presence.context k).moduleId ≠ none → ¬ Failed h₁ k → c.presence.Sole k →
      (∀ y ∈ h₂, y.input.Calls k) →
      (∀ b ∈ c.presence.rows, b.connectionId ≠ (c.session k).conn) ∧
      (∀ y ∈ h₂, ∀ es, y.Appends es → ∀ e ∈ es, e.payload.kind ≠ .moduleReady) ∧
      ∀ n r, (c.world.node n).rooms.isMember r (c.session k).conn = false := by
  intro hclaim
  have hstates : (parted₁.presence.context 0).moduleId ≠ none ∧
      parted₃.presence.rows.any (fun b => b.connectionId = (parted₃.session 0).conn) = true := by
    decide +kernel
  obtain ⟨hidentified, hrow⟩ := hstates
  have hfailed : ¬ Failed [parted₀.take (.connect 0 ⟨"c1"⟩ .record "a")] 0 := by
    rintro ⟨x, hx, hfails⟩
    obtain rfl := List.mem_singleton.mp hx
    exact hfails
  have hcalls : ∀ y ∈ [parted₂.take (.ready 0 partedAddress)], y.input.Calls 0 := by
    intro y hy
    obtain rfl := List.mem_singleton.mp hy
    exact rfl
  obtain ⟨hnone, -, -⟩ := hclaim _ _ _ _ _ _ 0 parted_run parted_ends hidentified hfailed parted_sole hcalls
  obtain ⟨b, hb, hconn⟩ := List.any_eq_true.mp hrow
  exact hnone b hb (of_decide_eq_true hconn)

/-- The late declaration of readiness is answered, and is what the row is of. -/
theorem ready_after_disconnect : ∃ b, (parted₂.take (.ready 0 partedAddress)).Readies 0 b ∧
    b ∈ parted₃.presence.rows ∧ b.connectionId = ⟨"c1"⟩ ∧
    (∃ e, (parted₂.take (.ready 0 partedAddress)).Appends [e] ∧ e.payload = ⟨.moduleReady, b.moduleId⟩) ∧
    ∀ n r, (parted₃.world.node n).rooms.isMember r (parted₃.session 0).conn = false := by
  have hable : Lifecycle.Able (parted₂.session 0) partedAddress parted₂.world ∧
      (parted₂.session 0).conn = ⟨"c1"⟩ := by
    unfold Lifecycle.Able
    decide +kernel
  have hmem := List.mem_singleton_self (parted₂.take (.ready 0 partedAddress))
  have hended := ended_but_for_ready parted_run rfl parted_ends parted_sole
  obtain ⟨b, hb⟩ := (hended.answered _ hmem partedAddress rfl).mpr hable.1
  obtain ⟨hrow, hconn, hannounced⟩ := hended.announced _ hmem b hb
  exact ⟨b, hb, hrow, hconn.trans hable.2, hannounced, hended.roomless⟩

end Cluster

end ConfigRegistry
