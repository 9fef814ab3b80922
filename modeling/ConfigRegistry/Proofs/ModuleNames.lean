import ConfigRegistry.Proofs.Baselines
import ConfigRegistry.Proofs.Fanouts

/-!
# Names that modules go by

A module connects under its name without the blanks around it, while the modules that
others require are looked up by the names exactly as they are listed. So whoever lists
the trimmed name follows the module (`Lifecycle.Follows`); a name with blanks around it
leads elsewhere, although the module may have connected by that very name.
-/

namespace ConfigRegistry

namespace Lifecycle

open Simulation (Calm)

variable {n : Nat} {p : Place} {s : Session} {name : String} {r : ModuleRequirements} {w v : World}

/-! ## Connecting -/

/-- A session is identified by its name without blanks around it. -/
theorem identified_by_trimmed (hw : w.Still) (hs : s.serial < w.peers.length)
    (hrun : w.run n (onConnect p s name).outcome = .finished v (.ok ())) :
    (v.peer s).context.moduleId = some (ModuleId.ofName (Text.trimmed name)) := by
  have hattempt := (ensures_onConnect hw).of_run hrun
  cases hattempt with
  | failed _ ho => exact absurd rfl (ho ())
  | succeeded h =>
    obtain ⟨-, -, rfl⟩ := h
    unfold connected
    rw [World.setRooms_peer]
    unfold World.peer World.modifyPeer
    simp [World.write, World.ticked, hs]

/-- Every name is accepted that is not all blanks. -/
theorem run_onConnect (hw : w.Responsive) (hname : Text.trimmed name ≠ "") :
    w.run n (onConnect p s name).outcome =
      .finished (connected n s (Text.trimmed name) w) (.ok ()) := by
  have hupsert : w.ticked.run n (Transition.call p.limits
      (.upsertModule (ModuleId.ofName (Text.trimmed name)) (Text.trimmed name) w.reading)).outcome =
      .finished (w.ticked.write (w.store.live.upsertModule (ModuleId.ofName (Text.trimmed name))
        (Text.trimmed name) w.reading).2) (.ok _) := Action.run_write hw.ticked rfl rfl
  refine run_report_ok ?_
  unfold connectSteps
  have hsome : (Text.trimmed name).isEmpty = false := by simpa using hname
  simp only [hsome, Bool.false_eq_true, ↓reduceIte]
  refine (Action.run_bind_ok Action.run_clock).trans ?_
  refine (Action.run_bind_ok hupsert).trans ?_
  rfl

/-! ## Requiring -/

/-- A recording session is sent the backends of every module that it lists. -/
theorem run_subscribeAll {l : Limits} (names : List String) (hw : w.Responsive) (hs : w.hears s = true) :
    ∃ v, w.run n (subscribeAll l s names).outcome = .finished v (.ok ()) ∧
      v.Responsive ∧ v.hears s = true := by
  induction names generalizing w with
  | nil => exact ⟨w, rfl, hw, hs⟩
  | cons listed rest ih =>
    let k := Notification.backends (ModuleId.ofName listed)
    have hsubscribe := Notification.run_subscribe (n := n) (l := l) (k := k) hw hs rfl
    have hkeeps : ∀ payload,
        ((w.served.accept s k.message payload).joined n k.room s.conn).hears s = true :=
      fun payload => (World.hears_accept : (w.served.accept s k.message payload).hears s = _).trans hs
    unfold subscribeAll
    rw [Action.run_bind_ok hsubscribe]
    exact ih ⟨hw.faults, hw.available⟩ (hkeeps _)

/-- A recording session that connected gets what it requires. -/
theorem run_onRequirements {m : ModuleId} (hw : w.Responsive) (hs : w.hears s = true)
    (hm : (w.peer s).context.moduleId = some m) :
    ∃ v, w.run n (onRequirements p s r).outcome = .finished v (.ok ()) := by
  obtain ⟨v, hall, hv, hears⟩ := run_subscribeAll (n := n) (l := p.limits) r.requiredModules hw hs
  have hmodules : w.run n ((subscribeAll p.limits s r.requiredModules).mapError LifecycleError.notify).outcome =
      .finished v (.ok ()) := Action.run_mapError hall
  cases hr : r.requireRoutes with
  | false =>
    refine ⟨v, run_report_ok ?_⟩
    unfold requireSteps
    rw [Action.run_bind_ok (run_identified hm), Action.run_bind_ok hmodules, hr]
    rfl
  | true =>
    obtain ⟨u, hroutes⟩ : ∃ u, v.run n (Notification.subscribe p.limits s .routing).outcome =
        .finished u (.ok ()) := ⟨_, Notification.run_subscribe hv hears rfl⟩
    refine ⟨u, run_report_ok ?_⟩
    unfold requireSteps
    rw [Action.run_bind_ok (run_identified hm), Action.run_bind_ok hmodules, hr]
    exact Action.run_mapError hroutes

theorem wanted_backends {m : ModuleId} : .backends m ∈ wanted r ↔
    ∃ listed ∈ r.requiredModules, ModuleId.ofName listed = m := by
  unfold wanted backendsOf
  cases r.requireRoutes <;> simp

/-- A session that required modules is in the room of each, and of no other one that it was not in. -/
theorem member_iff_listed {m : ModuleId} (hw : w.Still) (hsound : w.Sound)
    (hs : s ∈ (w.node n).rooms.sessions)
    (hrun : w.run n (onRequirements p s r).outcome = .finished v (.ok ())) :
    s ∈ (v.node n).rooms.members (.backendsChanging m) ↔
      s ∈ (w.node n).rooms.members (.backendsChanging m) ∨
        ∃ listed ∈ r.requiredModules, ModuleId.ofName listed = m := by
  obtain ⟨ks, -, hsub, hall⟩ :=
    (ensures_onRequirements hw).of_run hrun
  obtain ⟨-, rfl⟩ := hall rfl
  obtain ⟨hseated, -⟩ := hsub.seated hsound
  rw [← wanted_backends]
  constructor
  · intro hmem
    rcases hseated.seats n _ s hmem with hold | ⟨-, -, k, hk, hroom⟩
    · exact .inl hold
    · obtain rfl : .backends m = k := Notification.room_injective hroom
      exact .inr hk
  · rintro (hold | hk)
    · exact hseated.stays n _ s hold
    · exact hseated.joined hs _ hk

/-! ## Following a module -/

/-- A session follows a module: it is in the room of the module's backends, it was sent them as the
local view showed them, and while it is a member every notification sends them to it. -/
structure Follows (n : Nat) (s : Session) (m : ModuleId) (w v : World) : Prop where
  member : s ∈ (v.node n).rooms.members (.backendsChanging m)
  baseline : ∃ new, v.deliveries = new ++ w.deliveries ∧
    ⟨s, Notification.backendsMessage,
      Notification.backendsPayload m ((w.store.view .stale).backendsByModule m)⟩ ∈ new
  broadcasts : ∀ (underway : Delivery → Prop) (t : Simulation) (l : Limits), Calm underway t →
    t.world.Responsive → (t.world.node n).rooms.Reachable →
    s ∈ (t.world.node n).rooms.members (.backendsChanging m) → t.world.hears s = true →
    ∃ u new, t.perform n (Notification.publish l (.backends m)).outcome = (u, .returned (.ok ())) ∧
      u.world.deliveries = new ++ t.world.deliveries ∧
      new.filter (·.recipient = s) = [⟨s, Notification.backendsMessage,
        Notification.backendsPayload m ((t.world.store.view .stale).backendsByModule m)⟩]

/-- Members of the room of a module's backends are notified of the backends. -/
theorem backends_published {underway : Delivery → Prop} {t : Simulation} {l : Limits} {m : ModuleId}
    (ht : Calm underway t) (hw : t.world.Responsive) (hx : (t.world.node n).rooms.Reachable)
    (hs : s ∈ (t.world.node n).rooms.members (.backendsChanging m)) (hears : t.world.hears s = true) :
    ∃ u new, t.perform n (Notification.publish l (.backends m)).outcome = (u, .returned (.ok ())) ∧
      u.world.deliveries = new ++ t.world.deliveries ∧
      new.filter (·.recipient = s) = [⟨s, Notification.backendsMessage,
        Notification.backendsPayload m ((t.world.store.view .stale).backendsByModule m)⟩] := by
  obtain ⟨u, hrun, hreached⟩ := Simulation.publish_reaches (n := n) (k := .backends m) (l := l) ht hw hx
    (List.ne_nil_of_mem hs) rfl
  obtain ⟨peers, new, hworld, -, -, honce⟩ := hreached.arrived
  obtain ⟨hmember, hsession⟩ := RoomIndex.mem_members_iff.mp hs
  exact ⟨u, new, hrun, by rw [hworld], honce s hmember hsession hears⟩

theorem follows_listed {listed : String} (hw : w.Still) (hsound : w.Sound)
    (hs : s ∈ (w.node n).rooms.sessions) (hlisted : listed ∈ r.requiredModules)
    (hrun : w.run n (onRequirements p s r).outcome = .finished v (.ok ())) :
    Follows n s (ModuleId.ofName listed) w v where
  member := (member_iff_listed hw hsound hs hrun).mpr (.inr ⟨listed, hlisted, rfl⟩)
  baseline := by
    obtain ⟨ks, -, hsub, hall⟩ :=
      (ensures_onRequirements hw).of_run hrun
    obtain ⟨-, rfl⟩ := hall rfl
    obtain ⟨new, hnew, hsent⟩ := (hsub.seated hsound).1.sent
    obtain ⟨payload, hshown, hmem⟩ := hsent _ (wanted_backends.mpr ⟨listed, hlisted, rfl⟩)
    obtain rfl := Except.ok.inj hshown
    exact ⟨new, hnew, hmem⟩
  broadcasts := fun _ _ _ ht hw hx hs hears => backends_published ht hw hx hs hears

/-- Whatever name a session connected by, and whatever a session requires, anywhere and at any time:
the latter gets into the room of the former's module if it lists a name of that id, and follows the
module if it lists the name without the blanks around it. -/
theorem followed_by_trimmed_name {n₁ n₂ : Nat} {p₁ p₂ : Place} {s₁ s₂ : Session} {w₁ w₂ v₁ v₂ : World}
    (hw₁ : w₁.Still) (hs₁ : s₁.serial < w₁.peers.length)
    (hconnect : w₁.run n₁ (onConnect p₁ s₁ name).outcome = .finished v₁ (.ok ()))
    (hw₂ : w₂.Still) (hsound : w₂.Sound) (hs₂ : s₂ ∈ (w₂.node n₂).rooms.sessions)
    (hrequire : w₂.run n₂ (onRequirements p₂ s₂ r).outcome = .finished v₂ (.ok ())) :
    ∃ m, (v₁.peer s₁).context.moduleId = some m ∧ m = ModuleId.ofName (Text.trimmed name) ∧
      (s₂ ∈ (v₂.node n₂).rooms.members (.backendsChanging m) ↔
        s₂ ∈ (w₂.node n₂).rooms.members (.backendsChanging m) ∨
          ∃ listed ∈ r.requiredModules, ModuleId.ofName listed = m) ∧
      (Text.trimmed name ∈ r.requiredModules → Follows n₂ s₂ m w₂ v₂) :=
  ⟨_, identified_by_trimmed hw₁ hs₁ hconnect, rfl, member_iff_listed hw₂ hsound hs₂ hrequire,
    fun hlisted => follows_listed hw₂ hsound hs₂ hlisted hrequire⟩

/-- A node with a registered session of a module, and another session that has not connected. -/
def newcomer : World :=
  { World.initial default with
    nodes := [{ (default : NodeState) with rooms := RoomIndex.empty.register ⟨1, ⟨"c2"⟩⟩ }]
    peers := [⟨⟨"c1"⟩, .record, .empty, 0⟩,
      ⟨⟨"c2"⟩, .record, ⟨some (ModuleId.ofName "billing"), some "billing", none⟩, 0⟩] }

theorem newcomer_sound : newcomer.Sound := by
  intro n
  cases n with
  | zero => exact RoomIndex.register_sound RoomIndex.empty_sound _
  | succ n => exact RoomIndex.empty_sound

/-- Whatever name the one session connects by, the other one may then require modules. -/
theorem newcomer_required (name : String) (hname : Text.trimmed name ≠ "") (r : ModuleRequirements) :
    let p : Place := ⟨⟨"n1"⟩, ⟨2000, 2000⟩⟩
    let v := connected 0 ⟨0, ⟨"c1"⟩⟩ (Text.trimmed name) newcomer
    newcomer.run 0 (onConnect p ⟨0, ⟨"c1"⟩⟩ name).outcome = .finished v (.ok ()) ∧
      v.Still ∧ v.Sound ∧ (⟨1, ⟨"c2"⟩⟩ : Session) ∈ (v.node 0).rooms.sessions ∧
      v.hears ⟨1, ⟨"c2"⟩⟩ = true ∧ (v.node 0).rooms.rooms = [] ∧
      ∃ u, v.run 0 (onRequirements p ⟨1, ⟨"c2"⟩⟩ r).outcome = .finished u (.ok ()) := by
  intro p v
  have hnodes : (v.node 0).rooms = ⟨[⟨1, ⟨"c2"⟩⟩, ⟨0, ⟨"c1"⟩⟩], []⟩ := rfl
  have hsound : v.Sound := World.Sound.setRooms (newcomer_sound.of_nodes rfl)
    (RoomIndex.register_sound (newcomer_sound 0) ⟨0, ⟨"c1"⟩⟩)
  have hrequire := run_onRequirements (n := 0) (p := p) (r := r) (w := v) (m := ModuleId.ofName "billing")
    (s := ⟨1, ⟨"c2"⟩⟩) ⟨rfl, rfl⟩ rfl rfl
  refine ⟨run_onConnect ⟨rfl, rfl⟩ hname, ⟨rfl, rfl⟩, hsound, ?_, rfl, by rw [hnodes], hrequire⟩
  rw [hnodes]
  exact List.mem_cons_self

/-- A module that connected by a name with blanks around it is followed by those who list the trimmed
name. -/
theorem followed_despite_blanks :
    Text.trimmed " auth\t" = "auth" ∧
    ∃ v u, newcomer.run 0 (onConnect ⟨⟨"n1"⟩, ⟨2000, 2000⟩⟩ ⟨0, ⟨"c1"⟩⟩ " auth\t").outcome =
        .finished v (.ok ()) ∧
      v.run 0 (onRequirements ⟨⟨"n1"⟩, ⟨2000, 2000⟩⟩ ⟨1, ⟨"c2"⟩⟩ ⟨["auth"], true⟩).outcome =
        .finished u (.ok ()) ∧
      Follows 0 ⟨1, ⟨"c2"⟩⟩ (ModuleId.ofName "auth") v u := by
  have htrimmed : Text.trimmed " auth\t" = "auth" := by decide +kernel
  obtain ⟨hconnect, hstill, hsound, hregistered, -, -, u, hrequire⟩ :=
    newcomer_required " auth\t" (by rw [htrimmed]; decide) ⟨["auth"], true⟩
  obtain ⟨m, -, hm, -, hfollows⟩ := followed_by_trimmed_name ⟨rfl, rfl⟩ (by decide) hconnect hstill hsound
    hregistered hrequire
  rw [htrimmed] at hm hfollows
  exact ⟨htrimmed, _, u, hconnect, hrequire, hm ▸ hfollows List.mem_cons_self⟩

/-- Whoever requires a module by the very name that it connected by need not be in its room. -/
theorem blank_before_name_misses :
    ¬ ∀ (n : Nat) (p : Place) (s₁ s₂ : Session) (name : String) (r : ModuleRequirements) (w v u : World),
      w.Still → s₁.serial < w.peers.length →
      w.run n (onConnect p s₁ name).outcome = .finished v (.ok ()) →
      v.Still → v.Sound → s₂ ∈ (v.node n).rooms.sessions → v.hears s₂ = true →
      v.run n (onRequirements p s₂ r).outcome = .finished u (.ok ()) → name ∈ r.requiredModules →
      ∃ m, (v.peer s₁).context.moduleId = some m ∧
        s₂ ∈ (u.node n).rooms.members (.backendsChanging m) := by
  intro hclaim
  have htrimmed : Text.trimmed " auth" = "auth" := by decide +kernel
  have hother : ModuleId.ofName " auth" ≠ ModuleId.ofName "auth" := by decide +kernel
  obtain ⟨hconnect, hstill, hsound, hregistered, hears, hempty, u, hrequire⟩ :=
    newcomer_required " auth" (by rw [htrimmed]; decide) ⟨[" auth"], false⟩
  obtain ⟨m, hm, hmember⟩ := hclaim _ _ _ _ _ _ _ _ _ ⟨rfl, rfl⟩ (by decide) hconnect hstill hsound
    hregistered hears hrequire List.mem_cons_self
  rw [identified_by_trimmed ⟨rfl, rfl⟩ (by decide) hconnect, htrimmed] at hm
  obtain rfl := Option.some.inj hm
  rcases (member_iff_listed hstill hsound hregistered hrequire).mp hmember with hold | ⟨listed, hlisted, hid⟩
  · obtain ⟨-, ids, hids, -⟩ := (RoomIndex.mem_members (hsound 0)).mp hold
    rw [hempty] at hids
    cases hids
  · obtain rfl := List.mem_singleton.mp hlisted
    exact hother hid

end Lifecycle

end ConfigRegistry
