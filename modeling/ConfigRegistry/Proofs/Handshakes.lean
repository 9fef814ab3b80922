import ConfigRegistry.Proofs.ActiveConfigs
import ConfigRegistry.Proofs.Protocols

/-!
# Two handshakes at a time

Two sessions of a module declare their schemas, and their requests are answered in any order.
Each looks for the active config of the module and creates one where it saw none. How far a
declaration has come is its `Course`; what the courses of both say about the store is an
invariant of their turns (`Agreement`). Both are sent the one active config exactly if one was
there before or one of them looked after the other had created it.
-/

namespace ConfigRegistry

/-- One of two sessions. -/
inductive Side where
  | one
  | two
  deriving DecidableEq

def Side.opposite : Side → Side
  | one => two
  | two => one

theorem Side.eq_or_opposite (i j : Side) : j = i ∨ j = i.opposite := by
  cases i <;> cases j <;> simp [opposite]

@[simp] theorem Side.opposite_opposite (i : Side) : i.opposite.opposite = i := by
  cases i <;> rfl

theorem Side.opposite_ne (i : Side) : i.opposite ≠ i := by
  cases i <;> simp [opposite]

namespace Handshake

open Lifecycle (Place)
open Notification (configMessage)

/-! ## The course of a declaration -/

/-- How far the declaration of a schema has come. -/
structure Course where
  /-- What was seen of the active config of the module. -/
  looked : Option (Option Config)
  /-- The id made for a config. -/
  id : Option ConfigId
  /-- The config that was created. -/
  made : Option Config
  /-- The data that the session was sent. -/
  sent : Option Bytes

/-- Nothing has been done. -/
def Course.initial : Course := ⟨none, none, none, none⟩

/-- The config whose data is sent: the one that was seen, or else created. -/
def Course.Chose (g : Course) (c : Config) : Prop := g.looked = some (some c) ∨ g.made = some c

/-- A look for the active config of a module. -/
abbrev look (l : Option Nat) (m : ModuleId) : Request := .store l (.activeConfig m .strong)

/-- The creation of a config. -/
abbrev create (l : Option Nat) (c : Config) : Request := .store l (.insertConfig c)

/-- What the declaration of a session of a module may ask. -/
inductive Allows (m : ModuleId) (s : Session) (g : Course) : Request → Prop where
  | context : Allows m s g (.context s)
  | clock : Allows m s g .clock
  | schema (l : Option Nat) (x : ConfigSchema) : Allows m s g (.store l (.upsertSchema x))
  | look (l : Option Nat) (h : g.looked = none) : Allows m s g (look l m)
  | names (l : Option Nat) (ns : List String) (c : Consistency) :
      Allows m s g (.store l (.missingVariables ns c))
  | freshId (h : g.looked = some none) (hid : g.id = none) (hmade : g.made = none) :
      Allows m s g .freshConfigId
  | create (l : Option Nat) {c : Config} (h : g.looked = some none) (hid : g.id = some c.id)
      (hmade : g.made = none) (hm : c.moduleId = m) (ha : c.active = true) : Allows m s g (create l c)
  | link (l : Option Nat) (id : ConfigId) (names : List String) :
      Allows m s g (.store l (.linkVariables id names))
  | send (l : Option Nat) {c : Config} (hc : g.Chose c) (hsent : g.sent = none) :
      Allows m s g (.emit l s configMessage c.data)
  | tell (l : Option Nat) (payload : Bytes) : Allows m s g (.emit l s Lifecycle.errorMessage payload)
  | join : Allows m s g (.join (.configChanging m) s.conn)

/-- Where the replies lead, in a world that answers every call and delivers every message. -/
def Moves (m : ModuleId) (g : Course) : (r : Request) → r.Reply → Course → Prop
  | .context _, reply, g' => reply.moduleId = some m ∧ g' = g
  | .store _ (.activeConfig m' _), reply, g' =>
    ∃ o, reply = .ok o ∧ (∀ c ∈ o, c.moduleId = m') ∧ g' = { g with looked := some o }
  | .store _ (.missingVariables ..), reply, g' => (∃ names, reply = .ok names) ∧ g' = g
  | .store _ (.upsertSchema _), reply, g' => reply = .ok () ∧ g' = g
  | .store _ (.linkVariables ..), reply, g' => reply = .ok () ∧ g' = g
  | .store _ (.insertConfig c), reply, g' => reply = .ok () ∧ g' = { g with made := some c }
  | .freshConfigId, id, g' => g' = { g with id := some id }
  | .emit _ _ event payload, reply, g' =>
    reply = .ok () ∧ g' = if event = configMessage then { g with sent := some payload } else g
  | _, _, g' => g' = g

def protocol (m : ModuleId) (s : Session) : Protocol Course := ⟨Allows m s, Moves m⟩

/-- A declaration succeeds exactly if it sent a config. -/
def Ends (r : Except LifecycleError Unit) (g : Course) : Prop := r = .ok () ↔ g.sent ≠ none

variable {m : ModuleId} {s : Session} {g : Course} {p : Place}

theorem errorMessage_ne : Lifecycle.errorMessage ≠ configMessage := by decide

theorem obeys_deliver {l : Limits} {c : Config} (hc : g.Chose c) (hm : c.moduleId = m)
    (hsent : g.sent = none) :
    ((Notification.subscribeWith l s c).mapError LifecycleError.notify).Obeys (protocol m s) Ends g := by
  unfold Notification.subscribeWith Notification.deliver
  simp only [Action.obeys_mapError, Action.obeys_bind, Action.obeys_emit]
  refine ⟨.send (some l.emit) hc hsent, ?_⟩
  rintro _ _ ⟨rfl, rfl⟩
  refine ⟨hm ▸ .join, ?_⟩
  rintro joined _ rfl
  exact iff_of_true rfl (Option.some_ne_none _)

theorem obeys_identified {post : Except LifecycleError ModuleId → Course → Prop} (hpost : post (.ok m) g) :
    (Lifecycle.identified s).Obeys (protocol m s) post g := by
  unfold Lifecycle.identified
  refine Action.obeys_bind.mpr (Action.obeys_ask.mpr ⟨.context, ?_⟩)
  rintro context _ ⟨hcontext, rfl⟩
  simpa only [Action.onOk, hcontext, Action.obeys_pure] using hpost

theorem obeys_requireVariables {l : Limits} {names : List String}
    {post : Except LifecycleError Unit → Course → Prop} (hpost : ∀ r, post r g) :
    (Transition.requireVariables l names).Obeys (protocol m s) post g := by
  unfold Transition.requireVariables
  by_cases hnames : names.isEmpty
  · rw [if_pos hnames]
    exact hpost _
  rw [if_neg hnames]
  refine Action.obeys_bind.mpr (Action.obeys_mapError.mpr ⟨.names _ _ _, ?_⟩)
  rintro _ _ ⟨⟨missing, rfl⟩, rfl⟩
  change Action.Obeys _ _
    (if missing.isEmpty then pure () else throw (LifecycleError.missingVariables missing)) _
  split
  · exact hpost _
  · exact hpost _

theorem obeys_create {l : Limits} {name : String} {data : Bytes}
    {post : Except LifecycleError Config → Course → Prop} (hlooked : g.looked = some none)
    (hid : g.id = none) (hmade : g.made = none) (hfail : ∀ e, post (.error e) g)
    (hdone : ∀ c : Config, c.moduleId = m → post (.ok c) { g with id := some c.id, made := some c }) :
    (Lifecycle.createConfig l m name data).Obeys (protocol m s) post g := by
  unfold Lifecycle.createConfig Transition.variablesOf
  refine Action.obeys_bind.mpr ?_
  cases Template.variableNames data with
  | error e => exact hfail _
  | ok names =>
    refine Action.obeys_bind.mpr (obeys_requireVariables fun r => ?_)
    cases r with
    | error e => exact hfail _
    | ok =>
      refine Action.obeys_bind.mpr ⟨.clock, ?_⟩
      rintro now _ rfl
      refine Action.obeys_bind.mpr ⟨.freshId hlooked hid hmade, ?_⟩
      rintro id _ rfl
      refine Action.obeys_bind.mpr (Action.obeys_mapError.mpr ⟨.create _ hlooked rfl hmade rfl rfl, ?_⟩)
      rintro _ _ ⟨rfl, rfl⟩
      refine Action.obeys_bind.mpr (Action.obeys_mapError.mpr ⟨.link _ _ _, ?_⟩)
      rintro _ _ ⟨rfl, rfl⟩
      exact hdone _ rfl

theorem obeys_onConfigSchema {d : ConfigSchemaDeclaration} :
    (Lifecycle.onConfigSchema p s d).Obeys (protocol m s) Ends .initial := by
  have hfailed : ∀ (e : LifecycleError) (g : Course), g.sent = none → Ends (.error e) g :=
    fun e g hsent => iff_of_false nofun fun h => h hsent
  refine Lifecycle.obeys_report (fun e g he => ⟨.tell _ _, ?_⟩) ?_
  · rintro _ _ ⟨rfl, rfl⟩
    exact he
  unfold Lifecycle.schemaSteps Lifecycle.moduleName
  refine Action.obeys_bind.mpr (obeys_identified ?_)
  refine Action.obeys_bind.mpr ⟨.clock, ?_⟩
  rintro now _ rfl
  refine Action.obeys_bind.mpr (Action.obeys_mapError.mpr ⟨.schema _ _, ?_⟩)
  rintro _ _ ⟨rfl, rfl⟩
  refine Action.obeys_bind.mpr (Action.obeys_mapError.mpr ⟨.look _ rfl, ?_⟩)
  rintro _ _ ⟨o, rfl, hm, rfl⟩
  cases o with
  | some c => exact Action.obeys_bind.mpr (obeys_deliver (.inl rfl) (hm c rfl) rfl)
  | none =>
    refine Action.obeys_bind.mpr (Action.obeys_bind.mpr ⟨.context, ?_⟩)
    rintro context _ ⟨-, rfl⟩
    refine Action.obeys_bind.mpr ?_
    exact obeys_create rfl rfl rfl (fun e => hfailed e _ rfl) fun c hm => obeys_deliver (.inr rfl) hm rfl

/-! ## Turns -/

theorem pair_sublist_concat {α : Type} {a b x : α} {xs : List α} :
    [a, b].Sublist (xs ++ [x]) ↔ [a, b].Sublist xs ∨ a ∈ xs ∧ b = x := by
  constructor
  · intro h
    obtain ⟨ys, zs, hyz, hys, hzs⟩ := List.sublist_append_iff.mp h
    rcases List.sublist_cons_iff.mp hzs with hzs | ⟨rest, rfl, hrest⟩
    · rw [List.sublist_nil.mp hzs, List.append_nil] at hyz
      exact .inl (hyz ▸ hys)
    · obtain rfl := List.sublist_nil.mp hrest
      obtain ⟨rfl, hb⟩ : ys = [a] ∧ x = b := by
        rcases ys with _ | ⟨y, _ | ⟨z, rest⟩⟩ <;> simp_all
      exact .inr ⟨List.singleton_sublist.mp hys, hb.symm⟩
  · rintro (h | ⟨ha, rfl⟩)
    · exact h.trans (List.sublist_append_left xs [x])
    · exact (List.singleton_sublist.mpr ha).append (List.Sublist.refl [b])

variable {turns : List (Side × Request)} {i j : Side} {r : Request}

/-- A side created a config. -/
def Created (turns : List (Side × Request)) (i : Side) : Prop := ∃ l c, (i, create l c) ∈ turns

/-- A side looked for the active config after the other one had created a config. -/
def LookedBehind (m : ModuleId) (turns : List (Side × Request)) (i : Side) : Prop :=
  ∃ l c l', [(i.opposite, create l c), (i, look l' m)].Sublist turns

theorem created_concat :
    Created (turns ++ [(i, r)]) j ↔ Created turns j ∨ j = i ∧ ∃ l c, r = create l c := by
  simp only [Created, List.mem_append, List.mem_singleton, Prod.mk.injEq]
  constructor
  · rintro ⟨l, c, h | ⟨hj, hr⟩⟩
    · exact .inl ⟨l, c, h⟩
    · exact .inr ⟨hj, l, c, hr.symm⟩
  · rintro (⟨l, c, h⟩ | ⟨hj, l, c, hr⟩)
    · exact ⟨l, c, .inl h⟩
    · exact ⟨l, c, .inr ⟨hj, hr.symm⟩⟩

theorem lookedBehind_concat : LookedBehind m (turns ++ [(i, r)]) j ↔
    LookedBehind m turns j ∨ (j = i ∧ ∃ l, r = look l m) ∧ Created turns j.opposite := by
  simp only [LookedBehind, pair_sublist_concat, Prod.mk.injEq, Created]
  constructor
  · rintro ⟨l, c, l', h | ⟨hmem, hj, hr⟩⟩
    · exact .inl ⟨l, c, l', h⟩
    · exact .inr ⟨⟨hj, l', hr.symm⟩, l, c, hmem⟩
  · rintro (⟨l, c, l', h⟩ | ⟨⟨hj, l', hr⟩, l, c, hmem⟩)
    · exact ⟨l, c, l', .inl h⟩
    · exact ⟨l, c, l', .inr ⟨hmem, hj, hr.symm⟩⟩

theorem created_other (hr : ∀ l c, r ≠ create l c) :
    Created (turns ++ [(i, r)]) j ↔ Created turns j :=
  created_concat.trans (or_iff_left fun ⟨_, l, c, h⟩ => hr l c h)

theorem created_create {l : Option Nat} {c : Config} :
    Created (turns ++ [(i, create l c)]) j ↔ Created turns j ∨ j = i :=
  created_concat.trans (or_congr_right (and_iff_left ⟨l, c, rfl⟩))

theorem lookedBehind_other (hr : ∀ l, r ≠ look l m) :
    LookedBehind m (turns ++ [(i, r)]) j ↔ LookedBehind m turns j :=
  lookedBehind_concat.trans (or_iff_left fun ⟨⟨_, l, h⟩, _⟩ => hr l h)

theorem lookedBehind_look {l : Option Nat} : LookedBehind m (turns ++ [(i, look l m)]) j ↔
    LookedBehind m turns j ∨ j = i ∧ Created turns j.opposite :=
  lookedBehind_concat.trans (or_congr_right (and_congr_left' (and_iff_left ⟨l, rfl⟩)))

/-! ## What both courses say about the world -/

/-- The configs that the sides created. -/
def made (g : Side → Course) : List Config := (g .one).made.toList ++ (g .two).made.toList

/-- The ids that were made: none, one, or one for each side. -/
inductive Issued (w₀ : World) (g : Side → Course) (w : World) : Prop where
  | none (h : ∀ i, (g i).id = none) (hw : w.issued = w₀.issued)
  | first (i : Side) (h : (g i).id = some (.nth (w₀.issued + 1))) (h' : (g i.opposite).id = none)
      (hw : w.issued = w₀.issued + 1)
  | both (i : Side) (h : (g i).id = some (.nth (w₀.issued + 1)))
      (h' : (g i.opposite).id = some (.nth (w₀.issued + 2)))

/-- What a course says by itself. -/
structure Course.Consistent (g : Course) : Prop where
  missed : g.made ≠ none → g.looked = some none
  named : ∀ c ∈ g.made, g.id = some c.id
  chosen : ∀ payload ∈ g.sent, ∃ c, g.Chose c ∧ c.data = payload

namespace Course.Consistent

variable {c : Config}

/-- A config is created only where none was seen. -/
theorem unmade (h : g.Consistent) (hseen : g.looked ≠ some none) : g.made = none := by
  by_contra hne
  exact hseen (h.missed hne)

/-- Before the look nothing is sent. -/
theorem unsent (h : g.Consistent) (hlooked : g.looked = none) : g.sent = none := by
  refine Option.eq_none_iff_forall_ne_some.mpr fun payload hp => ?_
  obtain ⟨c, hc | hc, -⟩ := h.chosen payload hp
  · exact nomatch hlooked.symm.trans hc
  · exact nomatch (h.unmade (hlooked ▸ nofun)).symm.trans hc

theorem looks (h : g.Consistent) (hlooked : g.looked = none) (o : Option Config) :
    Course.Consistent { g with looked := some o } where
  missed := fun hne => absurd (h.unmade (hlooked ▸ nofun)) hne
  named := h.named
  chosen := by simp [h.unsent hlooked]

theorem identifies (h : g.Consistent) (hmade : g.made = none) (id : ConfigId) :
    Course.Consistent { g with id := some id } where
  missed := h.missed
  named := by simp [hmade]
  chosen := h.chosen

theorem creates (h : g.Consistent) (hlooked : g.looked = some none) (hid : g.id = some c.id)
    (hmade : g.made = none) : Course.Consistent { g with made := some c } where
  missed := fun _ => hlooked
  named := by simp [hid]
  chosen := by
    intro payload hp
    obtain ⟨d, hd, hdata⟩ := h.chosen payload hp
    exact ⟨d, .inl (hd.resolve_right fun hd => nomatch hmade.symm.trans hd), hdata⟩

theorem sends (h : g.Consistent) (hc : g.Chose c) : Course.Consistent { g with sent := some c.data } where
  missed := h.missed
  named := h.named
  chosen := fun _ hp => ⟨c, hc, Option.some.inj hp⟩

end Course.Consistent

/-- The world in which both declarations start: nothing is tampered with, the sessions are of the
module and hear, it has at most one active config, and the ids to be made are new. -/
structure Start (m : ModuleId) (session : Side → Session) (w : World) : Prop where
  faults : w.faults = []
  available : w.store.available = true
  hears : ∀ i, w.hears (session i) = true
  isModule : ∀ i, (w.peer (session i)).context.moduleId = some m
  apart : session .one ≠ session .two
  one : (w.store.live.activeRows m).length ≤ 1
  rows : ∀ c ∈ w.store.live.configs, c.id ≠ .nth (w.issued + 1) ∧ c.id ≠ .nth (w.issued + 2)
  ids : ConfigId.nth (w.issued + 1) ≠ .nth (w.issued + 2)

/-- What the turns taken, the courses of both sides and the world say of each other. -/
structure Agreement (m : ModuleId) (session : Side → Session) (w₀ : World)
    (turns : List (Side × Request)) (g : Side → Course) (w : World) : Prop where
  faults : w.faults = []
  available : w.store.available = true
  hears : ∀ i, w.hears (session i) = true
  isModule : ∀ i, (w.peer (session i)).context.moduleId = some m
  rows : (w.store.live.activeRows m).Perm (w₀.store.live.activeRows m ++ made g)
  known : ∀ c ∈ w.store.live.configs, c ∈ w₀.store.live.configs ∨ c ∈ made g
  issued : Issued w₀ g w
  consistent : ∀ i, (g i).Consistent
  created : ∀ i, Created turns i ↔ (g i).made ≠ none
  found : ∀ i c, (g i).looked = some (some c) → c ∈ w.store.live.activeRows m ∧
    (w₀.store.live.activeRows m ≠ [] ∨ LookedBehind m turns i)
  missed : ∀ i, (g i).looked = some none → w₀.store.live.activeRows m = []
  behind : ∀ i, LookedBehind m turns i → ∃ c, (g i).looked = some (some c)
  sent : ∃ new, w.deliveries = new ++ w₀.deliveries ∧
    ∀ i payload, ⟨session i, configMessage, payload⟩ ∈ new ↔ (g i).sent = some payload

variable {session : Side → Session} {w₀ w v : World} {gs : Side → Course}

theorem Start.session_ne (h : Start m session w₀) (hij : i ≠ j) : session i ≠ session j := by
  cases i <;> cases j
  · exact absurd rfl hij
  · exact h.apart
  · exact h.apart.symm
  · exact absurd rfl hij

theorem Start.agreement (h : Start m session w₀) :
    Agreement m session w₀ [] (fun _ => .initial) w₀ where
  faults := h.faults
  available := h.available
  hears := h.hears
  isModule := h.isModule
  rows := by simp [made, Course.initial]
  known := fun c hc => .inl hc
  issued := .none (fun _ => rfl) rfl
  consistent := fun _ => ⟨fun h => absurd rfl h, nofun, nofun⟩
  created := fun i => iff_of_false (by rintro ⟨l, c, ⟨⟩⟩) fun h => h rfl
  found := nofun
  missed := nofun
  behind := by rintro i ⟨l, c, l', ⟨⟩⟩
  sent := ⟨[], rfl, fun i payload => iff_of_false nofun nofun⟩

/-! ### Single turns -/

/-- What a change of one course leaves alone it leaves alone of both. -/
theorem update_field {α : Type} (f : Course → α) {x : Course} (hx : f x = f (gs i)) (j : Side) :
    f (Function.update gs i x j) = f (gs j) := by
  by_cases hj : j = i
  · subst hj
    rw [Function.update_self, hx]
  · rw [Function.update_of_ne hj]

theorem made_congr {gs' : Side → Course} (h : ∀ i, (gs' i).made = (gs i).made) : made gs' = made gs := by
  rw [made, made, h, h]

theorem mem_made {c : Config} : c ∈ made gs ↔ ∃ i, (gs i).made = some c := by
  rw [made, List.mem_append, Option.mem_toList, Option.mem_toList]
  constructor
  · rintro (h | h)
    · exact ⟨.one, h⟩
    · exact ⟨.two, h⟩
  · rintro ⟨i, h⟩
    cases i with
    | one => exact .inl h
    | two => exact .inr h

/-- Where one side has made nothing, what was made is the other one's. -/
theorem made_opposite (hi : (gs i).made = none) : made gs = (gs i.opposite).made.toList := by
  cases i with
  | one => rw [made, hi]; rfl
  | two => rw [made, hi]; exact List.append_nil _

theorem made_update {c : Config} {x : Course} (hi : (gs i).made = none) (hx : x.made = some c) :
    (made (Function.update gs i x)).Perm (made gs ++ [c]) := by
  cases i with
  | one =>
    rw [made_opposite hi]
    simpa [made, hx, Side.opposite] using (List.perm_append_singleton c (gs .two).made.toList).symm
  | two => simp [made, hi, hx]

theorem Issued.congr {gs' : Side → Course} (h : Issued w₀ gs w) (hid : ∀ i, (gs' i).id = (gs i).id)
    (hw : v.issued = w.issued) : Issued w₀ gs' v := by
  cases h with
  | none h hi => exact .none (fun i => (hid i).trans (h i)) (hw.trans hi)
  | first i h h' hi => exact .first i ((hid i).trans h) ((hid _).trans h') (hw.trans hi)
  | both i h h' => exact .both i ((hid i).trans h) ((hid _).trans h')

/-- What holds of the changed course of one side and of the course of the other holds of both. -/
theorem update_forall (P : Side → Course → Prop) {x : Course} (hx : P i x)
    (h : ∀ j, j ≠ i → P j (gs j)) (j : Side) : P j (Function.update gs i x j) :=
  (Function.forall_update_iff gs P).mpr ⟨hx, h⟩ j

/-- What the sides were sent is left alone by a change of a course in something else. -/
theorem Agreement.sent_kept (h : Agreement m session w₀ turns gs w) {x : Course}
    (hx : x.sent = (gs i).sent) (hd : v.deliveries = w.deliveries) :
    ∃ new, v.deliveries = new ++ w₀.deliveries ∧ ∀ j payload,
      ⟨session j, configMessage, payload⟩ ∈ new ↔ (Function.update gs i x j).sent = some payload := by
  obtain ⟨new, hnew, hs⟩ := h.sent
  refine ⟨new, hd.trans hnew, fun j payload => ?_⟩
  rw [update_field Course.sent hx]
  exact hs j payload

/-- What neither looks for a config nor creates one agrees if what was made and sent does. -/
theorem Agreement.frame (h : Agreement m session w₀ turns gs w) (hlook : ∀ l, r ≠ look l m)
    (hcreate : ∀ l c, r ≠ create l c) (hf : v.faults = w.faults)
    (ha : v.store.available = w.store.available)
    (hp : v.peers.map Peer.face = w.peers.map Peer.face)
    (hc : v.store.live.configs = w.store.live.configs) {x : Course}
    (hlooked : x.looked = (gs i).looked) (hmade : x.made = (gs i).made) (hx : x.Consistent)
    (hi : Issued w₀ (Function.update gs i x) v)
    (hs : ∃ new, v.deliveries = new ++ w₀.deliveries ∧ ∀ j payload,
      ⟨session j, configMessage, payload⟩ ∈ new ↔ (Function.update gs i x j).sent = some payload) :
    Agreement m session w₀ (turns ++ [(i, r)]) (Function.update gs i x) v := by
  have hrows : v.store.live.activeRows m = w.store.live.activeRows m := by
    unfold Tables.activeRows
    rw [hc]
  have hsaw : ∀ j, (Function.update gs i x j).looked = (gs j).looked := update_field Course.looked hlooked
  have hsame : ∀ j, (Function.update gs i x j).made = (gs j).made := update_field Course.made hmade
  exact {
    faults := hf.trans h.faults
    available := ha.trans h.available
    hears := fun j => (World.hears_of_faces hp _).trans (h.hears j)
    isModule := fun j => (congrArg (·.moduleId) (World.context_of_faces hp _)).trans (h.isModule j)
    rows := hrows ▸ (made_congr hsame).symm ▸ h.rows
    known := hc ▸ (made_congr hsame).symm ▸ h.known
    issued := hi
    consistent := update_forall (fun _ => Course.Consistent) hx fun j _ => h.consistent j
    created := fun j => (created_other hcreate).trans (by rw [hsame]; exact h.created j)
    found := by
      intro j c hj
      rw [hrows, lookedBehind_other hlook]
      exact h.found j c (hsaw j ▸ hj)
    missed := fun j hj => h.missed j (hsaw j ▸ hj)
    behind := by
      intro j hj
      rw [hsaw]
      exact h.behind j ((lookedBehind_other hlook).mp hj)
    sent := hs }

/-- What neither looks for a config nor creates one, and sends none, changes no course. -/
theorem Agreement.unchanged (h : Agreement m session w₀ turns gs w) (hlook : ∀ l, r ≠ look l m)
    (hcreate : ∀ l c, r ≠ create l c) (hf : v.faults = w.faults)
    (ha : v.store.available = w.store.available)
    (hp : v.peers.map Peer.face = w.peers.map Peer.face)
    (hc : v.store.live.configs = w.store.live.configs) (hi : v.issued = w.issued)
    (hd : ∃ ds, v.deliveries = ds ++ w.deliveries ∧ ∀ d ∈ ds, d.event ≠ configMessage) :
    Agreement m session w₀ (turns ++ [(i, r)]) (Function.update gs i (gs i)) v := by
  refine h.frame hlook hcreate hf ha hp hc rfl rfl (h.consistent i)
    (h.issued.congr (update_field Course.id rfl) hi) ?_
  obtain ⟨new, hnew, hsent⟩ := h.sent
  obtain ⟨ds, hds, hother⟩ := hd
  refine ⟨ds ++ new, by rw [hds, hnew, List.append_assoc], fun j payload => ?_⟩
  rw [Function.update_eq_self, ← hsent, List.mem_append]
  exact or_iff_right fun hmem => hother _ hmem rfl

/-- A look that finds a config finds one that was there at the start or that the other side created. -/
theorem Agreement.finds (h : Agreement m session w₀ turns gs w) (hmade : (gs i).made = none)
    {c : Config} (hc : w.store.live.activeConfig m = some c) :
    c ∈ w.store.live.activeRows m ∧ (w₀.store.live.activeRows m ≠ [] ∨ Created turns i.opposite) := by
  have hmem : c ∈ w.store.live.activeRows m := by
    rw [Tables.activeConfig_eq] at hc
    exact List.mem_of_mem_head? hc
  refine ⟨hmem, ?_⟩
  have horigin := h.rows.mem_iff.mp hmem
  rw [made_opposite hmade, List.mem_append, Option.mem_toList] at horigin
  rcases horigin with hold | hnew
  · exact .inl (List.ne_nil_of_mem hold)
  · exact .inr ((h.created _).mpr (Option.ne_none_iff_exists'.mpr ⟨c, hnew⟩))

/-- A look that finds nothing shows that nothing was there at the start. -/
theorem Agreement.misses (h : Agreement m session w₀ turns gs w)
    (hnone : w.store.live.activeConfig m = none) : w₀.store.live.activeRows m = [] := by
  have hrows := h.rows
  rw [Tables.activeConfig_eq, List.head?_eq_none_iff] at hnone
  rw [hnone] at hrows
  exact (List.append_eq_nil_iff.mp (List.nil_perm.mp hrows)).1

/-- Once a side has created a config, a look finds one. -/
theorem Agreement.active_of_created (h : Agreement m session w₀ turns gs w) (hj : Created turns j) :
    ∃ c, w.store.live.activeConfig m = some c := by
  obtain ⟨c, hc⟩ := Option.ne_none_iff_exists'.mp ((h.created j).mp hj)
  have hmem : c ∈ w.store.live.activeRows m :=
    h.rows.mem_iff.mpr (List.mem_append_right _ (mem_made.mpr ⟨j, hc⟩))
  rw [Tables.activeConfig_eq]
  exact Option.isSome_iff_exists.mp (List.isSome_head?.mpr (List.ne_nil_of_mem hmem))

/-- A side looks for the active config. -/
theorem Agreement.looked (h : Agreement m session w₀ turns gs w) (l : Option Nat)
    (hlooked : (gs i).looked = none) :
    Agreement m session w₀ (turns ++ [(i, look l m)])
      (Function.update gs i { gs i with looked := some (w.store.live.activeConfig m) }) w.served := by
  have hmade : (gs i).made = none := (h.consistent i).unmade (hlooked ▸ nofun)
  have hsame (j : Side) : (Function.update gs i
      { gs i with looked := some (w.store.live.activeConfig m) } j).made = (gs j).made :=
    update_field Course.made (by rfl) j
  have hcreate : ∀ l' c, look l m ≠ create l' c := nofun
  exact {
    faults := h.faults
    available := h.available
    hears := h.hears
    isModule := h.isModule
    rows := (made_congr hsame).symm ▸ h.rows
    known := (made_congr hsame).symm ▸ h.known
    issued := h.issued.congr (update_field Course.id rfl) rfl
    consistent := update_forall (fun _ => Course.Consistent) ((h.consistent i).looks hlooked _)
      fun j _ => h.consistent j
    created := fun j => (created_other hcreate).trans (by rw [hsame]; exact h.created j)
    found := by
      refine update_forall (fun j g => ∀ c, g.looked = some (some c) → c ∈ w.store.live.activeRows m ∧
        (w₀.store.live.activeRows m ≠ [] ∨ LookedBehind m (turns ++ [(i, look l m)]) j)) ?_ ?_
      · intro c hc
        exact (h.finds hmade (Option.some.inj hc)).imp_right
          (Or.imp_right fun hother => lookedBehind_look.mpr (.inr ⟨rfl, hother⟩))
      · intro j _ c hc
        exact (h.found j c hc).imp_right (Or.imp_right fun hsaw => lookedBehind_look.mpr (.inl hsaw))
    missed := update_forall (fun _ g => g.looked = some none → w₀.store.live.activeRows m = [])
      (fun hnone => h.misses (Option.some.inj hnone)) fun j _ => h.missed j
    behind := by
      refine update_forall (fun j g => LookedBehind m (turns ++ [(i, look l m)]) j →
        ∃ c, g.looked = some (some c)) ?_ ?_
      · intro hlater
        rcases lookedBehind_look.mp hlater with hearlier | ⟨-, hother⟩
        · obtain ⟨c, hc⟩ := h.behind i hearlier
          exact nomatch hlooked.symm.trans hc
        · obtain ⟨c, hc⟩ := h.active_of_created hother
          exact ⟨c, congrArg some hc⟩
      · intro j hj hlater
        exact h.behind j ((lookedBehind_look.mp hlater).resolve_right fun hself => hj hself.1)
    sent := h.sent_kept rfl rfl }

/-- The first id is made by a side for the first time, and the second one by the other side. -/
theorem issued_next (h : Issued w₀ gs w) (hid : (gs i).id = none) {x : Course}
    (hx : x.id = some (.nth (w.issued + 1))) :
    Issued w₀ (Function.update gs i x) { w with issued := w.issued + 1 } := by
  have hself : (Function.update gs i x i).id = some (.nth (w.issued + 1)) := by
    rw [Function.update_self, hx]
  have hother {j : Side} (hj : j ≠ i) : (Function.update gs i x j).id = (gs j).id := by
    rw [Function.update_of_ne hj]
  cases h with
  | none hnone hw =>
    rw [hw] at hself
    exact .first i hself ((hother i.opposite_ne).trans (hnone _)) (congrArg (· + 1) hw)
  | first j hj hnone hw =>
    -- The other side was the first one.
    rcases j.eq_or_opposite i with rfl | rfl
    · exact nomatch hid.symm.trans hj
    · rw [hw] at hself
      exact .both j ((hother j.opposite_ne.symm).trans hj) hself
  | both j hj hj' =>
    rcases j.eq_or_opposite i with rfl | rfl
    · exact nomatch hid.symm.trans hj
    · exact nomatch hid.symm.trans hj'

/-- A new id is made for a config. -/
theorem Agreement.identified (h : Agreement m session w₀ turns gs w) (hid : (gs i).id = none)
    (hmade : (gs i).made = none) :
    Agreement m session w₀ (turns ++ [(i, .freshConfigId)])
      (Function.update gs i { gs i with id := some (.nth (w.issued + 1)) })
      { w with issued := w.issued + 1 } :=
  h.frame (r := .freshConfigId) (v := { w with issued := w.issued + 1 }) nofun nofun rfl rfl rfl rfl rfl
    rfl ((h.consistent i).identifies hmade _) (issued_next h.issued hid rfl) (h.sent_kept rfl rfl)

/-- No config has the id that a side made for its own. -/
theorem Agreement.fresh (h : Agreement m session w₀ turns gs w) (hstart : Start m session w₀)
    {id : ConfigId} (hid : (gs i).id = some id) (hmade : (gs i).made = none) :
    ∀ old ∈ w.store.live.configs, old.id ≠ id := by
  intro old hold
  rcases h.known old hold with hrow | hnew
  · obtain ⟨hfirst, hsecond⟩ := hstart.rows old hrow
    cases h.issued with
    | none hnone _ => exact nomatch (hnone i).symm.trans hid
    | first j hj hnone _ =>
      rcases j.eq_or_opposite i with rfl | rfl
      · exact Option.some.inj (hid.symm.trans hj) ▸ hfirst
      · exact nomatch hnone.symm.trans hid
    | both j hj hj' =>
      rcases j.eq_or_opposite i with rfl | rfl
      · exact Option.some.inj (hid.symm.trans hj) ▸ hfirst
      · exact Option.some.inj (hid.symm.trans hj') ▸ hsecond
  · rw [made_opposite hmade] at hnew
    have hother := (h.consistent i.opposite).named old (Option.mem_toList.mp hnew)
    cases h.issued with
    | none hnone _ => exact nomatch (hnone i).symm.trans hid
    | first j hj hnone _ =>
      rcases j.eq_or_opposite i with rfl | rfl
      · exact nomatch hnone.symm.trans hother
      · exact nomatch hnone.symm.trans hid
    | both j hj hj' =>
      rintro rfl
      refine hstart.ids (Option.some.inj ?_)
      rcases j.eq_or_opposite i with rfl | rfl
      · rw [← hj, ← hj', hid, hother]
      · rw [← hj, ← hj', hid, ← hother, Side.opposite_opposite]

/-- A config is created. -/
theorem Agreement.creates (h : Agreement m session w₀ turns gs w) (hstart : Start m session w₀)
    (l : Option Nat) {c : Config} (hlooked : (gs i).looked = some none)
    (hid : (gs i).id = some c.id) (hmade : (gs i).made = none) (hm : c.moduleId = m)
    (ha : c.active = true) :
    Agreement m session w₀ (turns ++ [(i, create l c)])
      (Function.update gs i { gs i with made := some c })
      (w.write (w.store.live.insertConfig c)) := by
  have hconfigs : (w.store.live.insertConfig c).configs = w.store.live.configs ++ [c] :=
    Table.put_fresh (h.fresh hstart hid hmade)
  have hrows : (w.store.live.insertConfig c).activeRows m = w.store.live.activeRows m ++ [c] := by
    unfold Tables.activeRows
    rw [hconfigs, List.filter_append]
    simp [hm, ha]
  have hnow : (made (Function.update gs i { gs i with made := some c })).Perm (made gs ++ [c]) :=
    made_update hmade rfl
  have hsaw (j : Side) : (Function.update gs i { gs i with made := some c } j).looked = (gs j).looked :=
    update_field Course.looked (by rfl) j
  have hlook : ∀ l', create l c ≠ look l' m := nofun
  exact {
    faults := h.faults
    available := h.available
    hears := h.hears
    isModule := h.isModule
    rows := by
      rw [World.write_live, hrows]
      refine (h.rows.append_right [c]).trans ?_
      rw [List.append_assoc]
      exact hnow.symm.append_left _
    known := by
      intro d hd
      rw [World.write_live, hconfigs] at hd
      rw [hnow.mem_iff]
      rcases List.mem_append.mp hd with hd | hd
      · exact (h.known d hd).imp_right (List.mem_append_left _)
      · exact .inr (List.mem_append_right _ hd)
    issued := h.issued.congr (update_field Course.id rfl) rfl
    consistent := update_forall (fun _ => Course.Consistent)
      ((h.consistent i).creates hlooked hid hmade) fun j _ => h.consistent j
    created := update_forall (fun j g => Created (turns ++ [(i, create l c)]) j ↔ g.made ≠ none)
      (iff_of_true (created_create.mpr (.inr rfl)) (Option.some_ne_none _))
      fun j hj => created_create.trans ((or_iff_left hj).trans (h.created j))
    found := by
      intro j d hj
      obtain ⟨hmem, hbefore⟩ := h.found j d (hsaw j ▸ hj)
      rw [World.write_live, hrows, lookedBehind_other hlook]
      exact ⟨List.mem_append_left _ hmem, hbefore⟩
    missed := fun j hj => h.missed j (hsaw j ▸ hj)
    behind := by
      intro j hj
      rw [hsaw]
      exact h.behind j ((lookedBehind_other hlook).mp hj)
    sent := h.sent_kept rfl rfl }

/-- A session is sent the config of its course. -/
theorem Agreement.sends (h : Agreement m session w₀ turns gs w) (hstart : Start m session w₀)
    (l : Option Nat) {c : Config} (hc : (gs i).Chose c) (hsent : (gs i).sent = none) :
    Agreement m session w₀ (turns ++ [(i, .emit l (session i) configMessage c.data)])
      (Function.update gs i { gs i with sent := some c.data })
      (w.accept (session i) configMessage c.data) := by
  refine h.frame (r := .emit l _ _ _) (v := w.accept _ _ _) nofun nofun rfl rfl
    (World.faces_modify_accepted _ _ _) rfl rfl rfl ((h.consistent i).sends hc)
    (h.issued.congr (update_field Course.id rfl) rfl) ?_
  obtain ⟨new, hnew, hs⟩ := h.sent
  refine ⟨⟨session i, configMessage, c.data⟩ :: new, congrArg (_ :: ·) hnew, fun j payload => ?_⟩
  rw [List.mem_cons, hs, Delivery.mk.injEq]
  by_cases hj : j = i
  · subst hj
    rw [Function.update_self, hsent]
    simp [eq_comm]
  · rw [Function.update_of_ne hj]
    exact or_iff_right fun h => hstart.session_ne hj h.1

/-- A turn is answered at once and leads both courses on. -/
theorem Agreement.next (h : Agreement m session w₀ turns gs w) (hstart : Start m session w₀) (n : Nat)
    (ha : (protocol m (session i)).allows (gs i) r) :
    ∃ v reply g', w.answer n r = .now v reply ∧ (protocol m (session i)).moves (gs i) r reply g' ∧
      Agreement m session w₀ (turns ++ [(i, r)]) (Function.update gs i g') v := by
  have hserved {l : Option Nat} {c : Store.Call} {x : c.Result} {st : Store}
      (hs : w.store.serve w.reading c = .ok x st) (hc : c.readsClock = false) :=
    World.answer_served n h.faults h.available (l := l) hs hc
  cases ha with
  | context =>
    exact ⟨w, _, gs i, rfl, ⟨h.isModule i, rfl⟩,
      h.unchanged nofun nofun rfl rfl rfl rfl rfl ⟨[], rfl, nofun⟩⟩
  | clock =>
    exact ⟨w.ticked, _, gs i, rfl, rfl, h.unchanged nofun nofun rfl rfl rfl rfl rfl ⟨[], rfl, nofun⟩⟩
  | schema l x =>
    exact ⟨w.write (w.store.live.upsertSchema x), _, gs i, hserved rfl rfl, ⟨rfl, rfl⟩,
      h.unchanged nofun nofun rfl rfl rfl rfl rfl ⟨[], rfl, nofun⟩⟩
  | look l hlooked =>
    have hm : ∀ c ∈ w.store.live.activeConfig m, c.moduleId = m :=
      fun c hc => (Tables.activeConfig_some hc).2.1
    exact ⟨w.served, _, _, hserved rfl rfl, ⟨_, rfl, hm, rfl⟩, h.looked l hlooked⟩
  | names l ns c =>
    exact ⟨w.served, _, gs i, hserved rfl rfl, ⟨⟨_, rfl⟩, rfl⟩,
      h.unchanged nofun nofun rfl rfl rfl rfl rfl ⟨[], rfl, nofun⟩⟩
  | freshId hlooked hid hmade =>
    exact ⟨_, _, _, rfl, rfl, h.identified hid hmade⟩
  | create l hlooked hid hmade hm ha =>
    exact ⟨_, _, _, hserved rfl rfl, ⟨rfl, rfl⟩, h.creates hstart l hlooked hid hmade hm ha⟩
  | link l id names =>
    exact ⟨w.write (w.store.live.linkVariables id names), _, gs i, hserved rfl rfl, ⟨rfl, rfl⟩,
      h.unchanged nofun nofun rfl rfl rfl rfl rfl ⟨[], rfl, nofun⟩⟩
  | send l hc hsent =>
    exact ⟨_, _, _, World.answer_heard n (h.hears i), ⟨rfl, (if_pos rfl).symm⟩,
      h.sends hstart l hc hsent⟩
  | tell l payload =>
    refine ⟨_, _, gs i, World.answer_heard n (h.hears i), ⟨rfl, (if_neg errorMessage_ne).symm⟩, ?_⟩
    refine h.unchanged (v := w.accept _ _ _) nofun nofun rfl rfl (World.faces_modify_accepted _ _ _) rfl
      rfl ⟨[⟨session i, Lifecycle.errorMessage, payload⟩], rfl, ?_⟩
    simp [errorMessage_ne]
  | join =>
    exact ⟨w.joined n _ _, _, gs i, rfl, rfl,
      h.unchanged nofun nofun rfl rfl rfl rfl rfl ⟨[], rfl, nofun⟩⟩

theorem Start.sustained (h : Start m session w₀) {node : Side → Nat} :
    Sustained node (fun i => protocol m (session i)) (Agreement m session w₀) :=
  fun _ _ _ i _ hagree ha => hagree.next h (node i) ha

/-- Whatever turns were taken, both declarations can come to their end. -/
theorem Start.both_end (h : Start m session w₀) {node : Side → Nat} {place : Side → Place}
    {d : Side → ConfigSchemaDeclaration} {q : Side → Prog (Except LifecycleError Unit)}
    (ht : Turns node (fun i => (Lifecycle.onConfigSchema (place i) (session i) (d i)).outcome) w₀ turns
      q w) :
    ∃ (more : List (Side × Request)) (r : Side → Except LifecycleError Unit) (v : World),
      Turns node (fun i => (Lifecycle.onConfigSchema (place i) (session i) (d i)).outcome) w₀
        (turns ++ more) (fun i => .done (r i)) v := by
  obtain ⟨more, x, v, hone⟩ :=
    ht.brought_to_end (fun _ => obeys_onConfigSchema) h.agreement h.sustained .one
  obtain ⟨more', y, v', htwo⟩ :=
    hone.brought_to_end (fun _ => obeys_onConfigSchema) h.agreement h.sustained .two
  have hdone : Function.update (Function.update q .one (.done x)) .two (.done y) =
      fun i => .done (Side.rec x y i) := by
    funext i
    cases i <;> rfl
  rw [List.append_assoc, hdone] at htwo
  exact ⟨_, _, v', htwo⟩

/-! ### Behind both handshakes -/

/-- The config of a course is active. -/
theorem Agreement.chosen_active (h : Agreement m session w₀ turns gs w) {c : Config} (hc : (gs i).Chose c) :
    c ∈ w.store.live.activeRows m := by
  rcases hc with hseen | hmade
  · exact (h.found i c hseen).1
  · exact h.rows.mem_iff.mpr (List.mem_append_right _ (mem_made.mpr ⟨i, hmade⟩))

/-- There is at most one active config if one was there or a side looked behind the other. -/
theorem Agreement.single (h : Agreement m session w₀ turns gs w) (hstart : Start m session w₀)
    (hseen : w₀.store.live.activeRows m ≠ [] ∨ ∃ i, LookedBehind m turns i) :
    (w.store.live.activeRows m).length ≤ 1 := by
  rw [h.rows.length_eq, List.length_append]
  by_cases hrows : w₀.store.live.activeRows m = []
  · obtain ⟨i, hi⟩ := hseen.resolve_left (absurd hrows)
    obtain ⟨c, hc⟩ := h.behind i hi
    have hmade : (gs i).made = none := (h.consistent i).unmade (hc ▸ nofun)
    rw [hrows, made_opposite hmade]
    cases (gs i.opposite).made <;> simp
  · have hmade (i : Side) : (gs i).made = none := (h.consistent i).unmade fun hi => hrows (h.missed i hi)
    have hone := hstart.one
    rw [made_opposite (hmade .one), hmade]
    exact hone

/-- Both created a config if none was there, neither looked behind the other, and both were sent
one. -/
theorem Agreement.double (h : Agreement m session w₀ turns gs w)
    (hrows : w₀.store.live.activeRows m = []) (hbehind : ∀ i, ¬ LookedBehind m turns i)
    (hsent : ∀ i, (gs i).sent ≠ none) : (w.store.live.activeRows m).length = 2 := by
  have hmade (i : Side) : ∃ c, (gs i).made = some c := by
    obtain ⟨payload, hp⟩ := Option.ne_none_iff_exists'.mp (hsent i)
    obtain ⟨c, hseen | hmade, -⟩ := (h.consistent i).chosen payload hp
    · exact ((h.found i c hseen).2.elim (absurd hrows) (hbehind i)).elim
    · exact ⟨c, hmade⟩
  obtain ⟨c, hc⟩ := hmade .one
  obtain ⟨d, hd⟩ := hmade .two
  rw [h.rows.length_eq, hrows, made, hc, hd]
  rfl

/-- Whether a session was sent a config between two worlds. -/
def Received (s : Session) (c : Config) (w v : World) : Prop :=
  ∃ new, v.deliveries = new ++ w.deliveries ∧ ⟨s, configMessage, c.data⟩ ∈ new

theorem Agreement.received_iff (h : Agreement m session w₀ turns gs w) {c : Config} :
    Received (session i) c w₀ w ↔ (gs i).sent = some c.data := by
  obtain ⟨new, hnew, hs⟩ := h.sent
  rw [← hs]
  constructor
  · rintro ⟨new', hnew', hmem⟩
    rwa [← List.append_cancel_right (hnew'.symm.trans hnew)]
  · exact fun hmem => ⟨new, hnew, hmem⟩

/-- Behind two declarations of a module's schema there is one active config, and both sessions were
sent it, exactly if both succeeded, and an active config was there or one side looked for it after
the other had created one. -/
theorem one_config_iff {node : Side → Nat} {place : Side → Place} {d : Side → ConfigSchemaDeclaration}
    {r : Side → Except LifecycleError Unit} (hstart : Start m session w)
    (h : Turns node (fun i => (Lifecycle.onConfigSchema (place i) (session i) (d i)).outcome) w turns
      (fun i => .done (r i)) v) :
    (∃ c, v.store.live.activeRows m = [c] ∧ ∀ i, Received (session i) c w v) ↔
      (∀ i, r i = .ok ()) ∧ (w.store.live.activeRows m ≠ [] ∨ ∃ i, LookedBehind m turns i) := by
  obtain ⟨gs, hagree, hends⟩ : ∃ gs, Agreement m session w turns gs v ∧ ∀ i, Ends (r i) (gs i) :=
    h.invariant (fun _ => obeys_onConfigSchema) hstart.agreement hstart.sustained
  constructor
  · rintro ⟨c, hone, hreceived⟩
    have hsent (i : Side) : (gs i).sent ≠ none := by
      rw [hagree.received_iff.mp (hreceived i)]
      exact Option.some_ne_none _
    refine ⟨fun i => (hends i).mpr (hsent i), ?_⟩
    by_contra hneither
    obtain ⟨hrows, hbehind⟩ := not_or.mp hneither
    have htwo := hagree.double (not_not.mp hrows) (not_exists.mp hbehind) hsent
    rw [hone] at htwo
    exact absurd htwo (by simp)
  · rintro ⟨hok, hseen⟩
    have hsent (i : Side) : ∃ c, (gs i).Chose c ∧ (gs i).sent = some c.data := by
      obtain ⟨payload, hp⟩ := Option.ne_none_iff_exists'.mp ((hends i).mp (hok i))
      obtain ⟨c, hc, rfl⟩ := (hagree.consistent i).chosen payload hp
      exact ⟨c, hc, hp⟩
    obtain ⟨c, hc, -⟩ := hsent .one
    obtain ⟨only, honly⟩ : ∃ only, v.store.live.activeRows m = [only] := by
      have hpos := List.length_pos_of_mem (hagree.chosen_active hc)
      exact List.length_eq_one_iff.mp (by have := hagree.single hstart hseen; omega)
    refine ⟨only, honly, fun i => hagree.received_iff.mpr ?_⟩
    obtain ⟨c, hc, hdata⟩ := hsent i
    have hmem := hagree.chosen_active hc
    rw [honly, List.mem_singleton] at hmem
    rw [hdata, hmem]

/-! ## Both look before either creates -/

/-- Two nodes, and a session of a module on each. -/
def racing₀ : World :=
  let c := Cluster.start [⟨⟨"n1"⟩, ⟨2000, 2000⟩, ⟨100, .oldestFirst⟩⟩,
    ⟨⟨"n2"⟩, ⟨2000, 2000⟩, ⟨100, .oldestFirst⟩⟩] default
  let c := (c.apply (.connect 0 ⟨"c1"⟩ .record "a")).1
  (c.apply (.connect 1 ⟨"c2"⟩ .record "a")).1.world

def racer : Side → Session
  | .one => ⟨0, ⟨"c1"⟩⟩
  | .two => ⟨1, ⟨"c2"⟩⟩

def racerNode : Side → Nat
  | .one => 0
  | .two => 1

def racerPlace : Side → Place
  | .one => ⟨⟨"n1"⟩, ⟨2000, 2000⟩⟩
  | .two => ⟨⟨"n2"⟩, ⟨2000, 2000⟩⟩

def emptySchema : ConfigSchemaDeclaration := ⟨"1", .object [], .object []⟩

/-- Both sides look, then one goes on to its end, then the other. -/
def raceOrder : List Side :=
  List.replicate 4 .one ++ List.replicate 4 .two ++ List.replicate 7 .one ++ List.replicate 7 .two

def race : List (Side × Request) × (Side → Prog (Except LifecycleError Unit)) × World :=
  play racerNode raceOrder
    (fun i => (Lifecycle.onConfigSchema (racerPlace i) (racer i) emptySchema).outcome) racing₀

/-- Whether a program has come to its end without an error. -/
def succeeded {ε : Type} : Prog (Except ε Unit) → Bool
  | .done (.ok ()) => true
  | _ => false

theorem done_of_succeeded {ε : Type} {p : Prog (Except ε Unit)} (h : succeeded p = true) :
    p = .done (.ok ()) := by
  match p with
  | .done (.ok ()) => rfl
  | .done (.error _) => cases h
  | .ask .. => cases h

theorem racing_start : Start (.ofName "a") racer racing₀ where
  faults := by decide +kernel
  available := by decide +kernel
  hears := by
    have h : racing₀.hears (racer .one) = true ∧ racing₀.hears (racer .two) = true := by decide +kernel
    exact fun | .one => h.1 | .two => h.2
  isModule := by
    have h : (racing₀.peer (racer .one)).context.moduleId = some (.ofName "a") ∧
        (racing₀.peer (racer .two)).context.moduleId = some (.ofName "a") := by decide +kernel
    exact fun | .one => h.1 | .two => h.2
  apart := by decide
  one := by decide +kernel
  rows := by
    have h : racing₀.store.live.configs.isEmpty = true := by decide +kernel
    rw [List.isEmpty_iff.mp h]
    nofun
  ids := by decide +kernel

theorem race_turns : Turns racerNode
    (fun i => (Lifecycle.onConfigSchema (racerPlace i) (racer i) emptySchema).outcome) racing₀ race.1
    (fun _ => .done (.ok ())) race.2.2 := by
  have hends : succeeded (race.2.1 .one) = true ∧ succeeded (race.2.1 .two) = true := by decide +kernel
  have hdone : race.2.1 = fun _ => .done (.ok ()) :=
    funext fun | .one => done_of_succeeded hends.1 | .two => done_of_succeeded hends.2
  have hstart : Turns racerNode
      (fun i => (Lifecycle.onConfigSchema (racerPlace i) (racer i) emptySchema).outcome) racing₀ [] _
      racing₀ := .start
  rw [← hdone]
  exact hstart.play raceOrder

theorem race_leaves_two : (race.2.2.store.live.activeRows (.ofName "a")).length = 2 := by
  decide +kernel

/-- Even where both succeed, two handshakes may leave two active configs. -/
theorem two_active_configs :
    ¬ ∀ (m : ModuleId) (session : Side → Session) (node : Side → Nat) (place : Side → Place)
        (d : Side → ConfigSchemaDeclaration) (turns : List (Side × Request)) (w v : World),
      Start m session w →
      Turns node (fun i => (Lifecycle.onConfigSchema (place i) (session i) (d i)).outcome) w turns
        (fun _ => .done (.ok ())) v →
      (v.store.live.activeRows m).length ≤ 1 ∧
        ∃ c ∈ v.store.live.activeRows m, ∀ i, Received (session i) c w v := by
  intro hclaim
  obtain ⟨hone, -⟩ := hclaim _ _ _ _ _ _ _ _ racing_start race_turns
  rw [race_leaves_two] at hone
  exact absurd hone (by decide)

/-- Two active configs are left because neither side looked behind the other. -/
theorem race_unseen : racing₀.store.live.activeRows (.ofName "a") = [] ∧
    ¬ ∃ i, LookedBehind (.ofName "a") race.1 i := by
  have hnone : (racing₀.store.live.activeRows (.ofName "a")).isEmpty = true := by decide +kernel
  refine ⟨List.isEmpty_iff.mp hnone, fun hbehind => ?_⟩
  obtain ⟨c, hone, -⟩ := (one_config_iff racing_start race_turns).mpr ⟨fun _ => rfl, .inr hbehind⟩
  have htwo := race_leaves_two
  rw [hone] at htwo
  exact absurd htwo (by simp)

end Handshake

end ConfigRegistry
