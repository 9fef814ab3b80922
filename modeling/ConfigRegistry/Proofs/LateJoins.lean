import ConfigRegistry.Proofs.Handshakes
import ConfigRegistry.Proofs.Interludes

/-!
# Joining a room late

A subscription reads what it sends, sends it and joins the room in requests of its own, and
meanwhile sessions become ready or leave, configs are written and nodes poll
(`Cluster.Woven`). None of its requests appends an event (`World.Turned`), and what it sends
was shown when it began or later (`Cluster.Attending`). A poll between the reading and the
joining passes an event without finding the subscriber in the room, so the subscriber is up to
date in the end exactly if what it was shown is still what is shown, or another event that
calls for it was left to be read (`Subscription.Episode.subscriber_upToDate_iff`).
-/

namespace ConfigRegistry

variable {n j : Nat} {s : Session} {k : Notification} {m : ModuleId} {profiles : List Profile}

/-! ## What the requests of a subscription do -/

namespace World

variable {w v : World}

/-- What a request of a subscription leaves behind: tables move without an event, and nobody but the
session is let into a room, which is that of the notification. -/
structure Turned (s : Session) (k : Notification) (w v : World) : Prop where
  faults : v.faults = w.faults
  outbox : v.outbox = w.outbox
  time : v.time = w.time
  faces : v.peers.map Peer.face = w.peers.map Peer.face
  presence : ∀ l, v.presence l = w.presence l
  frozen : v.store.frozen = w.store.frozen
  moves : w.store.live.Moves [] v.store.live
  cursors : ∀ i, (v.node i).cursor = (w.node i).cursor
  sound : v.Sound
  members : ∀ i r, ∀ s' ∈ (v.node i).rooms.members r, s' ∈ (w.node i).rooms.members r ∨
    r = k.room ∧ s'.conn = s.conn ∧ s' ∈ (w.node i).rooms.sessions

theorem Turned.stored (hw : w.Sound) {t : Tables} (hm : w.store.live.Moves [] t)
    (hrows : t.backends = w.store.live.backends) (readings issued reads : Nat) :
    w.Turned s k { w with
      readings := readings
      issued := issued
      store := { w.store with live := t, reads := reads } } where
  faults := rfl
  outbox := rfl
  time := rfl
  faces := rfl
  presence l := congrArg (fun rows => { w.presence l with rows := rows }) hrows
  frozen := rfl
  moves := hm
  cursors _ := rfl
  sound := hw
  members _ _ _ := .inl

theorem Turned.accepted (hw : w.Sound) (event : String) (payload : Bytes) :
    w.Turned s k (w.accept s event payload) where
  faults := rfl
  outbox := rfl
  time := rfl
  faces := faces_modify_accepted _ _ _
  presence _ := presence_accept event payload
  frozen := rfl
  moves := .refl _
  cursors _ := rfl
  sound := hw
  members _ _ _ := .inl

theorem Turned.joined (hw : w.Sound) (n : Nat) : w.Turned s k (w.joined n k.room s.conn) where
  faults := rfl
  outbox := rfl
  time := rfl
  faces := rfl
  presence _ := presence_joined n k.room s.conn
  frozen := rfl
  moves := .refl _
  cursors _ := cursor_setRooms ..
  sound := hw.joined k.room s.conn
  members i r s' hs := by
    rcases members_setRooms hs with hold | ⟨rfl, hmem⟩
    · exact .inl hold
    · exact RoomIndex.members_join (hw i) hmem

end World

namespace Cluster

variable {c c₀ : Cluster} {v : World}

/-- The cluster with another world. -/
def withWorld (v : World) (c : Cluster) : Cluster := c.modifyWorld fun _ => v

theorem Steady.turned {underway : Delivery → Prop} (hc : c.Steady underway)
    (ht : World.Turned s k c.world v) : (c.withWorld v).Steady underway where
  calm := by
    refine ⟨ht.outbox.trans hc.calm.outbox, ?_, fun x hx => ?_⟩
    · exact hc.calm.late.of_behaviours (World.behaviours_of_faces (w := c.world) ht.faces)
    · exact Nat.lt_of_le_of_lt (Nat.le_of_eq ht.time) (hc.calm.due x hx)
  faults := ht.faults.trans hc.faults

theorem Coherent.turned (h : Coherent profiles c) (hj : j < c.world.peers.length)
    (ht : World.Turned (c.session j) k c.world v) (hk : c.world.Concerns k (c.session j)) :
    Coherent profiles (c.withWorld v) := by
  have hpresence : (c.withWorld v).presence = c.presence := ht.presence c.homes
  constructor
  case steady => exact h.steady.turned ht
  case sound => exact ht.sound
  case named => exact hpresence ▸ h.named
  case rooted => exact hpresence ▸ h.rooted
  case profiles => exact hpresence ▸ h.profiles
  case available => exact (congrArg Presence.available hpresence).trans h.available
  case present => exact ht.frozen.trans h.present
  case regular => exact ht.moves.regular h.regular
  case read =>
    intro i
    change (v.node i).cursor ≤ _
    rw [ht.cursors]
    exact UInt64.le_trans (h.read i) ht.moves.le
  case own =>
    intro i k' s' hs m hm
    refine (congrArg (·.moduleId) (World.context_of_faces (w := c.world) ht.faces s')).trans ?_
    rcases ht.members i _ s' hs with hold | ⟨hroom, hconn, hregistered⟩
    · exact h.own i k' s' hold m hm
    · obtain rfl := Notification.room_injective hroom
      obtain rfl := session_of_conn h.named hregistered hj hconn
      exact hk m hm

theorem Coherent.answer_served (h : Coherent profiles c) {l : Option Nat} {q : Store.Call} {x : q.Result}
    {st : Store} (hs : c.world.store.serve c.world.reading q = .ok x st) (hq : q.readsClock = false) :
    c.world.answer n (.store l q) = .now { c.world with store := st } (.ok x) :=
  World.answer_served n h.steady.faults h.available hs hq

/-! ## Programs that are interrupted -/

/-- A config is created under an id that no other config has. -/
def Admits (c : Cluster) : Request → Prop
  | .store _ (.insertConfig cf) => ∀ old ∈ c.world.store.live.configs, old.id ≠ cf.id
  | _ => True

/-- A program of a node makes one request after the other, each answered at once, and between them
the cluster takes other steps. -/
inductive Woven {α : Type} (n : Nat) (p₀ : Prog α) (c₀ : Cluster) : Prog α → Cluster → Prop where
  | start : Woven n p₀ c₀ p₀ c₀
  | turn {r : Request} {next : r.Reply → Prog α} {c : Cluster} {v : World} {reply : r.Reply}
      (before : Woven n p₀ c₀ (.ask r next) c) (admits : c.Admits r)
      (answered : c.world.answer n r = .now v reply) : Woven n p₀ c₀ (next reply) (c.withWorld v)
  | meanwhile {p : Prog α} {c : Cluster} {i : Input} (before : Woven n p₀ c₀ p c) (hk : c.Knows i)
      (hm : Meanwhile i) (hn : (c.apply i).2 ≠ .overflow) : Woven n p₀ c₀ p (c.apply i).1

/-- What the requests that a protocol allows preserve, and the steps between them, holds wherever a
program that obeys has come. -/
theorem Woven.invariant {α σ : Type} {p₀ p : Prog α} {π : Protocol σ} {post : α → σ → Prop} {g₀ : σ}
    {Inv : σ → Cluster → Prop} (h : Woven n p₀ c₀ p c) (hobeys : p₀.Obeys π post g₀) (hstart : Inv g₀ c₀)
    (hturn : ∀ g c r, Inv g c → π.allows g r → c.Admits r → ∃ v reply g',
      c.world.answer n r = .now v reply ∧ π.moves g r reply g' ∧ Inv g' (c.withWorld v))
    (hmeanwhile : ∀ g c i, Inv g c → c.Knows i → Meanwhile i → (c.apply i).2 ≠ .overflow →
      Inv g (c.apply i).1) : ∃ g, Inv g c ∧ p.Obeys π post g := by
  induction h with
  | start => exact ⟨g₀, hstart, hobeys⟩
  | @turn r next c v reply _ hadmits hanswer ih =>
    obtain ⟨g, hinv, hallows, hnext⟩ := ih
    obtain ⟨v', reply', g', hanswer', hmoves, hinv'⟩ := hturn g c r hinv hallows hadmits
    obtain ⟨rfl, rfl⟩ := Answer.now.inj (hanswer.symm.trans hanswer')
    exact ⟨g', hinv', hnext reply g' hmoves⟩
  | @meanwhile p c i _ hk hm hn ih =>
    obtain ⟨g, hinv, hp⟩ := ih
    exact ⟨g, hmeanwhile g c i hinv hk hm hn, hp⟩

/-! ## Sessions that subscribe -/

/-- A session subscribes to a notification: it stays what it was, what it may be sent was shown
when it began or later, and so was what it was sent. -/
structure Attending (profiles : List Profile) (c₀ : Cluster) (j : Nat) (k : Notification)
    (offers : Bytes → Prop) (sent : Prop) (c : Cluster) : Prop where
  coherent : Coherent profiles c
  grows : c₀.presence.Grows c.presence
  known : j < c₀.world.peers.length
  hears : c.world.hears (c₀.session j) = true
  concerns : c.world.Concerns k (c₀.session j)
  log : c₀.world.store.live.lastEventId ≤ c.world.store.live.lastEventId
  recent : ∀ p, offers p → k.Announces ⟨c₀.session j, k.message, p⟩ ∧
    c.world.store.live.Current c₀.world.store.live.lastEventId k p
  shown : sent → c.world.Shown c₀.world.store.live.lastEventId (c₀.session j) k

variable {offers offers' : Bytes → Prop} {sent sent' : Prop} {p : Bytes}

theorem Coherent.attending (h : Coherent profiles c₀) (hj : j < c₀.world.peers.length)
    (hh : c₀.world.hears (c₀.session j) = true) (hk : c₀.world.Concerns k (c₀.session j))
    (hoffers : ∀ p, ¬ offers p) (hsent : ¬ sent) : Attending profiles c₀ j k offers sent c₀ :=
  ⟨h, .refl _, hj, hh, hk, UInt64.le_refl _, fun p hp => absurd hp (hoffers p), fun hs => absurd hs hsent⟩

theorem Attending.same_session (h : Attending profiles c₀ j k offers sent c) :
    c.session j = c₀.session j := by
  rw [← presence_session, ← presence_session]
  exact congrArg (Session.mk j) (h.grows.conn j (presence_faces ▸ h.known))

theorem Attending.meanwhile (h : Attending profiles c₀ j k offers sent c)
    (horder : ∀ q ∈ profiles, q.worker.order = .oldestFirst) {i : Input} (hk : c.Knows i)
    (hm : Meanwhile i) (hov : (c.apply i).2 ≠ .overflow) :
    Attending profiles c₀ j k offers sent (c.apply i).1 := by
  obtain ⟨hlude, hcoherent, hgrows⟩ := h.coherent.step horder hk hm hov
  obtain ⟨es, hpublished⟩ := hlude.published
  refine ⟨hcoherent, h.grows.trans hgrows, h.known, (hlude.hears _).trans h.hears,
    fun m hkm => (hlude.module _).trans (h.concerns m hkm), UInt64.le_trans h.log hpublished.moves.le,
    fun p hp => ?_, fun hs => hlude.shown h.hears h.concerns h.log (h.shown hs)⟩
  obtain ⟨ha, hcurrent⟩ := h.recent p hp
  exact ⟨ha, hpublished.moves.current h.log hcurrent⟩

/-- The frame of a request: what it leaves of the session besides what may be sent and was. -/
theorem Attending.framed (h : Attending profiles c₀ j k offers sent c)
    (ht : World.Turned (c₀.session j) k c.world v)
    (hrecent : ∀ p, offers' p → k.Announces ⟨c₀.session j, k.message, p⟩ ∧
      v.store.live.Current c₀.world.store.live.lastEventId k p)
    (hshown : sent' → v.Shown c₀.world.store.live.lastEventId (c₀.session j) k) :
    Attending profiles c₀ j k offers' sent' (c.withWorld v) := by
  have hpresence : (c.withWorld v).presence = c.presence := ht.presence c.homes
  have hknown : j < c.world.peers.length := by
    have hfaces := h.grows.faces
    rw [presence_faces, presence_faces] at hfaces
    exact Nat.lt_of_lt_of_le h.known hfaces
  refine ⟨?_, hpresence ▸ h.grows, h.known, ?_, fun m hkm => ?_, UInt64.le_trans h.log ht.moves.le,
    hrecent, hshown⟩
  · exact h.coherent.turned hknown (h.same_session.symm ▸ ht) (h.same_session.symm ▸ h.concerns)
  · exact (World.hears_of_faces (w := c.world) ht.faces _).trans h.hears
  · refine Eq.trans ?_ (h.concerns m hkm)
    exact congrArg (·.moduleId) (World.context_of_faces (w := c.world) ht.faces _)

/-- A request that announces nothing; what may be sent from then on was shown lately. -/
theorem Attending.turned (h : Attending profiles c₀ j k offers sent c)
    (ht : World.Turned (c₀.session j) k c.world v)
    (hd : ∃ ds, v.deliveries = ds ++ c.world.deliveries ∧ ∀ d ∈ ds, ¬ k.Announces d)
    (hoffers : ∀ p, offers' p → offers p ∨ k.Announces ⟨c₀.session j, k.message, p⟩ ∧
      v.store.live.Current c₀.world.store.live.lastEventId k p) :
    Attending profiles c₀ j k offers' sent (c.withWorld v) := by
  refine h.framed ht (fun p hp => ?_) fun hs => ?_
  · rcases hoffers p hp with hold | hnew
    · obtain ⟨ha, hcurrent⟩ := h.recent p hold
      exact ⟨ha, ht.moves.current h.log hcurrent⟩
    · exact hnew
  · obtain ⟨p, hlast, hcurrent⟩ := h.shown hs
    obtain ⟨ds, hds, hnone⟩ := hd
    refine ⟨p, ?_, ht.moves.current h.log hcurrent⟩
    rw [hds]
    exact hlast.append fun d hd _ => hnone d hd

/-- The session is sent what it may be sent. -/
theorem Attending.sends (h : Attending profiles c₀ j k offers sent c) (hp : offers p)
    (hoffers : ∀ p, offers' p → offers p) :
    Attending profiles c₀ j k offers' sent'
      (c.withWorld (c.world.accept (c₀.session j) k.message p)) := by
  refine h.framed (.accepted h.coherent.sound _ _) (fun p hp => h.recent p (hoffers p hp)) fun _ => ?_
  obtain ⟨ha, hcurrent⟩ := h.recent p hp
  exact ⟨p, ⟨[], _, c.world.deliveries, rfl, rfl, ha, rfl, nofun⟩, hcurrent⟩

end Cluster

/-! ## Subscriptions to backends and routes -/

/-- How far a subscription to backends or routes has come: what it read, and whether that was sent. -/
structure Reading where
  read : Option Bytes
  sent : Bool

namespace Reading

open Cluster (Attending)

/-- What a subscription may ask. -/
inductive Allows (k : Notification) (s : Session) (g : Reading) : Request → Prop where
  | backends (l : Option Nat) {m : ModuleId} (h : k = .backends m) :
      Allows k s g (.store l (.backendsByModule m .stale))
  | routing (l : Option Nat) (h : k = .routing) : Allows k s g (.store l (.allBackends .stale))
  | send (l : Option Nat) {payload : Bytes} (h : g.read = some payload) :
      Allows k s g (.emit l s k.message payload)
  | join : Allows k s g (.join k.room s.conn)

/-- Where the replies lead, in a world that answers every call and delivers every message. -/
def Moves (g : Reading) : (r : Request) → r.Reply → Reading → Prop
  | .store _ (.backendsByModule m _), reply, g' =>
    ∃ bs, reply = .ok bs ∧ g' = { g with read := some (Notification.backendsPayload m bs) }
  | .store _ (.allBackends _), reply, g' =>
    ∃ bs, reply = .ok bs ∧ g' = { g with read := some (Notification.routingPayload bs) }
  | .emit .., reply, g' => reply = .ok () ∧ g' = { g with sent := true }
  | _, _, g' => g' = g

def protocol (k : Notification) (s : Session) : Protocol Reading := ⟨Allows k s, Moves⟩

/-- A subscription succeeds only if it sent something. -/
def Ends (r : Except LifecycleError Unit) (g : Reading) : Prop := r = .ok () → g.sent = true

theorem obeys_deliver {l : Limits} {g : Reading} {payload : Bytes} (h : g.read = some payload) :
    ((Notification.deliver l s k payload).mapError LifecycleError.notify).Obeys (protocol k s) Ends g := by
  unfold Notification.deliver
  simp only [Action.obeys_mapError, Action.obeys_bind, Action.obeys_emit]
  refine ⟨.send (some l.emit) h, ?_⟩
  rintro _ _ ⟨rfl, rfl⟩
  refine ⟨.join, ?_⟩
  rintro joined _ rfl
  exact fun _ => rfl

theorem obeys_subscribe {l : Limits} {g : Reading} (hk : ∀ m, k ≠ .config m) :
    ((Notification.subscribe l s k).mapError LifecycleError.notify).Obeys (protocol k s) Ends g := by
  unfold Notification.subscribe
  rw [Action.obeys_mapError, Action.obeys_bind]
  cases k with
  | config m => exact absurd rfl (hk m)
  | backends m =>
    refine Action.obeys_bind.mpr (Action.obeys_mapError.mpr (Action.obeys_call.mpr ⟨.backends _ rfl, ?_⟩))
    rintro _ _ ⟨bs, rfl, rfl⟩
    exact Action.obeys_mapError.mp (obeys_deliver rfl)
  | routing =>
    refine Action.obeys_bind.mpr (Action.obeys_mapError.mpr (Action.obeys_call.mpr ⟨.routing _ rfl, ?_⟩))
    rintro _ _ ⟨bs, rfl, rfl⟩
    exact Action.obeys_mapError.mp (obeys_deliver rfl)

variable {g : Reading} {c c₀ : Cluster} {r : Request}

/-- What is read is what is shown. -/
theorem attends_read (h : Attending profiles c₀ j k (g.read = some ·) (g.sent = true) c) {payload : Bytes}
    (hp : c.world.store.live.snapshot k = .ok payload) :
    Attending profiles c₀ j k ({ g with read := some payload }.read = some ·)
      ({ g with read := some payload }.sent = true) (c.withWorld c.world.served) := by
  refine h.turned (.stored h.coherent.sound (.refl _) rfl _ _ _) ⟨[], rfl, nofun⟩ fun p hp' => .inr ?_
  obtain rfl := Option.some.inj hp'
  exact ⟨Notification.announces_own hp, .inl hp⟩

/-- A request of a subscription is answered at once, and the session goes on subscribing. -/
theorem next (h : Attending profiles c₀ j k (g.read = some ·) (g.sent = true) c)
    (ha : (protocol k (c₀.session j)).allows g r) : ∃ v reply g', c.world.answer n r = .now v reply ∧
      (protocol k (c₀.session j)).moves g r reply g' ∧
      Attending profiles c₀ j k (g'.read = some ·) (g'.sent = true) (c.withWorld v) := by
  have hview := Store.view_present h.coherent.present
  cases ha with
  | @backends l m hk =>
    refine ⟨c.world.served, _, _, h.coherent.answer_served rfl rfl, ⟨_, rfl, rfl⟩, attends_read h ?_⟩
    rw [hk, hview]
    rfl
  | routing l hk =>
    refine ⟨c.world.served, _, _, h.coherent.answer_served rfl rfl, ⟨_, rfl, rfl⟩, attends_read h ?_⟩
    rw [hk, hview]
    rfl
  | send l hread =>
    exact ⟨_, _, _, World.answer_heard n h.hears, ⟨rfl, rfl⟩, h.sends hread fun _ => id⟩
  | join =>
    refine ⟨c.world.joined n k.room (c₀.session j).conn, _, g, rfl, rfl, ?_⟩
    exact h.turned (.joined h.coherent.sound n) ⟨[], rfl, nofun⟩ fun _ => .inl

end Reading

/-! ## Declarations of a config schema -/

namespace Cluster

open Handshake (Course)
open Notification (configMessage)

variable {c c₀ : Cluster} {v : World} {g g' : Course} {r : Request}

/-- A session declares the schema of its module, and so subscribes to the config that it saw or
created. Where it saw none there is none until it creates one, or an event tells of it. -/
structure Declaring (profiles : List Profile) (c₀ : Cluster) (j : Nat) (m : ModuleId) (g : Course)
    (c : Cluster) : Prop where
  attending : Attending profiles c₀ j (.config m) (fun p => ∃ x, g.Chose x ∧ x.data = p) (g.sent ≠ none) c
  missed : g.looked = some none → g.made = none → c.world.store.live.activeConfig m = none ∨
    ∃ e ∈ c.world.store.live.events, e.Touches (.config m) ∧ c₀.world.store.live.lastEventId < e.id

theorem Declaring.meanwhile (h : Declaring profiles c₀ j m g c)
    (horder : ∀ q ∈ profiles, q.worker.order = .oldestFirst) {i : Input} (hk : c.Knows i)
    (hm : Meanwhile i) (hov : (c.apply i).2 ≠ .overflow) : Declaring profiles c₀ j m g (c.apply i).1 where
  attending := h.attending.meanwhile horder hk hm hov
  missed hlooked hmade := by
    obtain ⟨es, hpublished⟩ := (h.attending.coherent.step horder hk hm hov).1.published
    rw [hpublished.moves.events]
    rcases h.missed hlooked hmade with hnone | ⟨e, he, htouch, hlt⟩
    · rcases hpublished.changes (.config m) with hsame | ⟨e, he, htouch⟩
      · refine .inl (Option.eq_none_iff_forall_ne_some.mpr fun x hx => ?_)
        rw [Tables.snapshot_config_ok.mpr ⟨x, hx, rfl⟩] at hsame
        obtain ⟨y, hy, -⟩ := Tables.snapshot_config_ok.mp hsame.symm
        exact nomatch hnone.symm.trans hy
      · refine .inr ⟨e, List.mem_append_right _ he, htouch, ?_⟩
        exact UInt64.lt_of_le_of_lt h.attending.log (hpublished.moves.above e he).1
    · exact .inr ⟨e, List.mem_append_left _ he, htouch, hlt⟩

/-- What neither looks for a config nor creates or sends one. -/
theorem Declaring.unchanged (h : Declaring profiles c₀ j m g c)
    (ht : World.Turned (c₀.session j) (.config m) c.world v)
    (hconfigs : v.store.live.configs = c.world.store.live.configs)
    (hd : ∃ ds, v.deliveries = ds ++ c.world.deliveries ∧ ∀ d ∈ ds, ¬ (Notification.config m).Announces d)
    (hlooked : g'.looked = g.looked) (hmade : g'.made = g.made) (hsent : g'.sent = g.sent) :
    Declaring profiles c₀ j m g' (c.withWorld v) where
  attending := by
    rw [hsent]
    refine h.attending.turned ht hd fun p hp => .inl ?_
    simpa only [Course.Chose, hlooked, hmade] using hp
  missed := by
    rw [hlooked, hmade]
    intro hl hm
    refine (h.missed hl hm).imp (fun hnone => ?_) fun ⟨e, he, htouch, hlt⟩ => ⟨e, ?_, htouch, hlt⟩
    · change v.store.live.activeConfig m = none
      unfold Tables.activeConfig at hnone ⊢
      rw [hconfigs]
      exact hnone
    · change e ∈ v.store.live.events
      rw [ht.moves.events, List.append_nil]
      exact he

/-- The session looks for the active config of its module. -/
theorem Declaring.looks (h : Declaring profiles c₀ j m g c)
    (hg' : g' = { g with looked := some (c.world.store.live.activeConfig m) }) :
    Declaring profiles c₀ j m g' (c.withWorld c.world.served) where
  attending := by
    subst hg'
    refine h.attending.turned (.stored h.attending.coherent.sound (.refl _) rfl _ _ _) ⟨[], rfl, nofun⟩ ?_
    rintro p ⟨x, hseen | hmade, rfl⟩
    · refine .inr ⟨rfl, .inl ?_⟩
      exact Tables.snapshot_config_ok.mpr ⟨x, Option.some.inj hseen, rfl⟩
    · exact .inl ⟨x, .inr hmade, rfl⟩
  missed hlooked _ := by
    subst hg'
    exact .inl (Option.some.inj hlooked)

/-- The session creates the first config of its module. -/
theorem Declaring.creates (h : Declaring profiles c₀ j m g c) {x : Config} (hlooked : g.looked = some none)
    (hmade : g.made = none) (hm : x.moduleId = m) (ha : x.active = true)
    (hfresh : ∀ old ∈ c.world.store.live.configs, old.id ≠ x.id) (hg' : g' = { g with made := some x }) :
    Declaring profiles c₀ j m g' (c.withWorld (c.world.write (c.world.store.live.insertConfig x))) where
  attending := by
    subst hg'
    have hmoves : c.world.store.live.Moves [] (c.world.store.live.insertConfig x) :=
      Tables.moves_insertConfig hfresh ⟨rfl, rfl⟩ rfl rfl
    refine h.attending.turned (.stored h.attending.coherent.sound hmoves rfl _ _ _) ⟨[], rfl, nofun⟩ ?_
    rintro p ⟨y, hseen | hy, rfl⟩
    · exact .inl ⟨y, .inl hseen, rfl⟩
    · obtain rfl := Option.some.inj hy
      refine .inr ⟨rfl, (h.missed hlooked hmade).imp_left fun hnone => ?_⟩
      exact Tables.snapshot_config_ok.mpr ⟨x, activeConfig_insertConfig hnone hm ha, rfl⟩
  missed _ hnone := by
    subst hg'
    exact nomatch hnone

/-- A request of a declaration is answered at once, and the session goes on declaring. -/
theorem Declaring.next (h : Declaring profiles c₀ j m g c)
    (ha : (Handshake.protocol m (c₀.session j)).allows g r) (hadmits : c.Admits r) :
    ∃ v reply g', c.world.answer n r = .now v reply ∧
      (Handshake.protocol m (c₀.session j)).moves g r reply g' ∧
      Declaring profiles c₀ j m g' (c.withWorld v) := by
  have hcoherent := h.attending.coherent
  have hsound := hcoherent.sound
  cases ha with
  | context =>
    refine ⟨c.world, _, g, rfl, ⟨h.attending.concerns m rfl, rfl⟩, ?_⟩
    exact h.unchanged (.stored hsound (.refl _) rfl _ _ _) rfl ⟨[], rfl, nofun⟩ rfl rfl rfl
  | clock =>
    refine ⟨c.world.ticked, _, g, rfl, rfl, ?_⟩
    exact h.unchanged (.stored hsound (.refl _) rfl _ _ _) rfl ⟨[], rfl, nofun⟩ rfl rfl rfl
  | schema l x =>
    refine ⟨c.world.write (c.world.store.live.upsertSchema x), _, g, hcoherent.answer_served rfl rfl,
      ⟨rfl, rfl⟩, ?_⟩
    have hmoves : c.world.store.live.Moves [] (c.world.store.live.upsertSchema x) :=
      Tables.moves_unshown ⟨rfl, rfl⟩ rfl rfl
    exact h.unchanged (.stored hsound hmoves rfl _ _ _) rfl ⟨[], rfl, nofun⟩ rfl rfl rfl
  | look l _ =>
    have hm : ∀ x ∈ c.world.store.live.activeConfig m, x.moduleId = m :=
      fun x hx => (Tables.activeConfig_some hx).2.1
    exact ⟨c.world.served, _, _, hcoherent.answer_served rfl rfl, ⟨_, rfl, hm, rfl⟩, h.looks rfl⟩
  | names l ns q =>
    refine ⟨c.world.served, _, g, hcoherent.answer_served rfl rfl, ⟨⟨_, rfl⟩, rfl⟩, ?_⟩
    exact h.unchanged (.stored hsound (.refl _) rfl _ _ _) rfl ⟨[], rfl, nofun⟩ rfl rfl rfl
  | freshId hlooked hid hmade =>
    refine ⟨_, _, _, rfl, rfl, ?_⟩
    exact h.unchanged (.stored hsound (.refl _) rfl _ _ _) rfl ⟨[], rfl, nofun⟩ rfl rfl rfl
  | create l hlooked hid hmade hm ha =>
    exact ⟨_, _, _, hcoherent.answer_served rfl rfl, ⟨rfl, rfl⟩, h.creates hlooked hmade hm ha hadmits rfl⟩
  | link l id names =>
    refine ⟨c.world.write (c.world.store.live.linkVariables id names), _, g, hcoherent.answer_served rfl rfl,
      ⟨rfl, rfl⟩, ?_⟩
    have hmoves : c.world.store.live.Moves [] (c.world.store.live.linkVariables id names) :=
      Tables.moves_unshown ⟨rfl, rfl⟩ rfl rfl
    exact h.unchanged (.stored hsound hmoves rfl _ _ _) rfl ⟨[], rfl, nofun⟩ rfl rfl rfl
  | @send l x hx hsent =>
    refine ⟨_, _, _, World.answer_heard n h.attending.hears, ⟨rfl, (if_pos rfl).symm⟩, ?_, h.missed⟩
    exact h.attending.sends ⟨x, hx, rfl⟩ fun _ => id
  | tell l payload =>
    refine ⟨_, _, g, World.answer_heard n h.attending.hears,
      ⟨rfl, (if_neg Handshake.errorMessage_ne).symm⟩, ?_⟩
    refine h.unchanged (.accepted hsound _ _) rfl
      ⟨[⟨c₀.session j, Lifecycle.errorMessage, payload⟩], rfl, fun d hd => ?_⟩ rfl rfl rfl
    obtain rfl := List.mem_singleton.mp hd
    exact Notification.not_announces_error
  | join =>
    refine ⟨c.world.joined n (.configChanging m) (c₀.session j).conn, _, g, rfl, rfl, ?_⟩
    exact h.unchanged (.joined hsound n) rfl ⟨[], rfl, nofun⟩ rfl rfl rfl

end Cluster

/-! ## Subscribing, then reading on -/

/-- What a session asks for that subscribes: the backends of a module, the routes, or the config of its
own module, whose schema it declares. -/
inductive Subscription where
  | backends (m : ModuleId)
  | routing
  | config (d : ConfigSchemaDeclaration)

namespace Subscription

open Lifecycle (Place)
open Cluster (Attending Coherent Declaring Run Meanwhile Woven Caught)

/-- The program that answers a subscription. -/
def steps (p : Place) (s : Session) : Subscription → Action LifecycleError Unit
  | backends m => (Notification.subscribe p.limits s (.backends m)).mapError .notify
  | routing => (Notification.subscribe p.limits s .routing).mapError .notify
  | config d => Lifecycle.onConfigSchema p s d

/-- What a session with a context is to be notified of. -/
def notification (context : SessionContext) : Subscription → Option Notification
  | backends m => some (.backends m)
  | routing => some .routing
  | config _ => context.moduleId.map .config

variable {op : Subscription} {c c₀ c₁ c₂ : Cluster}

theorem notification_concerns
    (hk : op.notification (c₀.world.peer (c₀.session j)).context = some k) :
    c₀.world.Concerns k (c₀.session j) := by
  rintro m rfl
  cases op with
  | backends m' => cases hk
  | routing => cases hk
  | config d =>
    obtain ⟨m', hm', heq⟩ := Option.map_eq_some_iff.mp hk
    rw [hm', Notification.config.inj heq]

/-- A subscription that succeeds sent the session something that was shown when it began or later. -/
theorem attends (h : Coherent profiles c₀) (horder : ∀ q ∈ profiles, q.worker.order = .oldestFirst)
    (hj : j < c₀.world.peers.length) (hh : c₀.world.hears (c₀.session j) = true)
    (hk : op.notification (c₀.world.peer (c₀.session j)).context = some k) {p : Place}
    (hwoven : Woven n (op.steps p (c₀.session j)).outcome c₀ (.done (.ok ())) c) :
    ∃ offers sent, sent ∧ Attending profiles c₀ j k offers sent c := by
  have hconcerns := notification_concerns hk
  have hread (hk : ∀ m, k ≠ .config m)
      (hwoven : Woven n ((Notification.subscribe p.limits (c₀.session j) k).mapError
        LifecycleError.notify).outcome c₀ (.done (.ok ())) c) :
      ∃ offers sent, sent ∧ Attending profiles c₀ j k offers sent c := by
    obtain ⟨g, hattending, hends⟩ : ∃ g : Reading,
        Attending profiles c₀ j k (g.read = some ·) (g.sent = true) c ∧ Reading.Ends (.ok ()) g :=
      hwoven.invariant (Reading.obeys_subscribe hk (g := ⟨none, false⟩))
        (h.attending hj hh hconcerns nofun nofun) (fun _ _ _ hinv ha _ => Reading.next hinv ha)
        fun _ _ _ hinv hk hm hn => hinv.meanwhile horder hk hm hn
    exact ⟨_, _, hends rfl, hattending⟩
  cases op with
  | backends m =>
    obtain rfl := Option.some.inj hk
    exact hread nofun hwoven
  | routing =>
    obtain rfl := Option.some.inj hk
    exact hread nofun hwoven
  | config d =>
    obtain ⟨m, -, rfl⟩ := Option.map_eq_some_iff.mp hk
    have hstart : Declaring profiles c₀ j m .initial c₀ :=
      ⟨h.attending hj hh hconcerns (by rintro p ⟨x, ⟨⟨⟩⟩ | ⟨⟨⟩⟩, -⟩) fun hsent => hsent rfl, nofun⟩
    obtain ⟨g, hdeclaring, hends⟩ : ∃ g, Declaring profiles c₀ j m g c ∧ Handshake.Ends (.ok ()) g :=
      hwoven.invariant Handshake.obeys_onConfigSchema hstart
        (fun _ _ _ hinv ha hadmits => hinv.next ha hadmits)
        fun _ _ _ hinv hk hm hn => hinv.meanwhile horder hk hm hn
    exact ⟨_, _, hends.mp rfl, hdeclaring.attending⟩

/-- In a cluster that was run, whose store can be reached and does not lag, a session that takes all
messages subscribes with success, its node then reads everything, and the session is still there. -/
structure Episode (op : Subscription) (j : Nat) (k : Notification) (c₀ c₁ c₂ : Cluster) : Prop where
  reached : ∃ profiles at_ h, (∀ q ∈ profiles, q.worker.order = .oldestFirst ∧ 1 ≤ q.worker.limit) ∧
    Run (fun _ c i => c.Ordinary i) (Cluster.start profiles at_) h c₀
  available : c₀.world.store.available = true
  present : c₀.world.store.frozen = none
  known : j < c₀.world.peers.length
  hears : c₀.world.hears (c₀.session j) = true
  about : op.notification (c₀.world.peer (c₀.session j)).context = some k
  subscribes : Woven (c₀.home j) (op.steps (c₀.place (c₀.home j)) (c₀.session j)).outcome c₀
    (.done (.ok ())) c₁
  reads : ∃ h, Run (fun _ _ i => Meanwhile i) c₁ h c₂ ∧ Caught (c₀.home j) h c₂
  member : c₀.session j ∈ (c₂.world.node (c₀.home j)).rooms.members k.room

/-- A subscriber is up to date in the end exactly if what it was last shown as it subscribed is still
what is shown, or an event that calls for another message was yet to be read by then. So it is
whenever its node, while it subscribed, read no event that was appended meanwhile. -/
theorem Episode.subscriber_upToDate_iff (h : Episode op j k c₀ c₁ c₂) :
    (∃ p, LastShown (c₀.session j) k c₁.world.deliveries p ∧ (c₂.world.UpToDate (c₀.session j) k ↔
      c₂.world.store.live.Current (c₁.world.node (c₀.home j)).cursor k p)) ∧
    ((c₁.world.node (c₀.home j)).cursor ≤ c₀.world.store.live.lastEventId →
      c₂.world.UpToDate (c₀.session j) k) := by
  obtain ⟨profiles, at_, h₀, hworkers, hrun₀⟩ := h.reached
  obtain ⟨h₂, hrun, hcaught⟩ := h.reads
  have horder : ∀ q ∈ profiles, q.worker.order = .oldestFirst := fun q hq => (hworkers q hq).1
  have hcoherent := Cluster.run_coherent horder hrun₀ h.available h.present
  obtain ⟨offers, sent, hsent, hattending⟩ :=
    attends hcoherent horder h.known h.hears h.about h.subscribes
  obtain ⟨p, hlast, hcurrent⟩ := hattending.shown hsent
  have hiff := hattending.coherent.upToDate_iff hworkers hrun hcaught hattending.hears
    hattending.concerns hlast h.member
  refine ⟨⟨p, hlast, hiff⟩, fun hcursor => hiff.mpr ?_⟩
  exact (hattending.coherent.current horder hrun hattending.log hcurrent).mono hcursor

/-! ## A change that is lost -/

def latecomer : Session := ⟨0, ⟨"c1"⟩⟩

def wanted : ModuleId := .ofName "a"

def lateNode : Cluster := .start [⟨⟨"n1"⟩, ⟨2000, 2000⟩, ⟨100, .oldestFirst⟩⟩] default

/-- A session of module `b`, then one of module `a` have connected to the node. -/
def late₀ : Cluster :=
  let c := (lateNode.apply (.connect 0 ⟨"c1"⟩ .record "b")).1
  (c.apply (.connect 0 ⟨"c2"⟩ .record "a")).1

/-- The session of `b` has read the backends of `a`, of which there is none; then the session of `a`
becomes ready, and the node polls. -/
def late₁ : Cluster :=
  let c := late₀.withWorld late₀.world.served
  let c := (c.apply (.ready 1 ⟨"10.0.0.1:80", "", "", "", [], [], none⟩)).1
  (c.apply (.poll 0)).1

/-- The session of `b` was sent what it read, and has joined the room. -/
def late₂ : Cluster :=
  let c := late₁.withWorld (late₁.world.accept latecomer Notification.backendsMessage
    (Notification.backendsPayload wanted ((late₀.world.store.view .stale).backendsByModule wanted)))
  c.withWorld (c.world.joined 0 (.backendsChanging wanted) ⟨"c1"⟩)

/-- The node has polled again. -/
def late₃ : Cluster := (late₂.apply (.poll 0)).1

theorem late_subscribes : Woven 0
    ((Subscription.backends wanted).steps ⟨⟨"n1"⟩, ⟨2000, 2000⟩⟩ latecomer).outcome late₀ (.done (.ok ()))
    late₂ := by
  have hstates : late₀.world.faults.isEmpty = true ∧ late₀.world.store.available = true ∧
      (late₀.withWorld late₀.world.served).Takes
        [.ready 1 ⟨"10.0.0.1:80", "", "", "", [], [], none⟩, .poll 0] ∧
      late₁.world.hears latecomer = true := by
    decide +kernel
  obtain ⟨hfaults, havailable, htakes, hhears⟩ := hstates
  have hstart : Woven 0
    ((Subscription.backends wanted).steps ⟨⟨"n1"⟩, ⟨2000, 2000⟩⟩ latecomer).outcome late₀ _ late₀ := .start
  have hread := hstart.turn trivial (World.answer_served 0 (List.isEmpty_iff.mp hfaults) havailable
    (l := some 2000) (c := .backendsByModule wanted .stale) rfl rfl)
  have hready := hread.meanwhile htakes.1 trivial (Cluster.ne_overflow htakes.2.1)
  have hpolled := hready.meanwhile htakes.2.2.1 trivial (Cluster.ne_overflow htakes.2.2.2.1)
  have hsent := hpolled.turn (c := late₁) trivial (World.answer_heard 0 hhears)
  exact hsent.turn trivial rfl

theorem late_reached : ∃ profiles at_ h,
    (∀ q ∈ profiles, q.worker.order = .oldestFirst ∧ 1 ≤ q.worker.limit) ∧
      Run (fun _ c i => c.Ordinary i) (Cluster.start profiles at_) h late₀ := by
  have hstates : lateNode.Takes [.connect 0 ⟨"c1"⟩ .record "b", .connect 0 ⟨"c2"⟩ .record "a"] ∧
      ∀ i, i < (lateNode.apply (.connect 0 ⟨"c1"⟩ .record "b")).1.presence.faces.length →
        (lateNode.apply (.connect 0 ⟨"c1"⟩ .record "b")).1.presence.conn i ≠ ⟨"c2"⟩ := by
    decide +kernel
  obtain ⟨htakes, hnew⟩ := hstates
  have hstart : Run (fun _ c i => c.Ordinary i) lateNode [] lateNode := .start
  obtain ⟨hone, htakes⟩ := hstart.takes htakes (by rintro k ⟨⟩) _ rfl
  obtain ⟨htwo, -⟩ := hone.takes htakes hnew late₀ rfl
  exact ⟨_, _, _, by decide, htwo⟩

theorem late_episode : Episode (.backends wanted) 0 (.backends wanted) late₀ late₂ late₃ := by
  have hstates : late₀.world.store.available = true ∧ late₀.world.store.frozen.isNone = true ∧
      0 < late₀.world.peers.length ∧ late₀.world.hears (late₀.session 0) = true ∧
      late₂.Takes [.poll 0] ∧ (late₂.take (.poll 0)).idle 0 = true ∧
      (late₂.world.store.view .stale).events = late₃.world.store.live.events ∧
      late₀.session 0 ∈ (late₃.world.node 0).rooms.members (.backendsChanging wanted) := by
    decide +kernel
  obtain ⟨havailable, hpresent, hknown, hhears, htakes, hidle, hlog, hmember⟩ := hstates
  have hstart : Run (fun _ _ i => Meanwhile i) late₂ [] late₂ := .start
  obtain ⟨hrun, -⟩ := hstart.takes htakes trivial late₃ rfl
  refine ⟨late_reached, havailable, Option.isNone_iff_eq_none.mp hpresent, hknown, hhears, rfl,
    late_subscribes, ⟨_, hrun, ?_⟩, hmember⟩
  exact ⟨late₂.take (.poll 0), List.mem_singleton_self _, hidle, hlog⟩

/-- What the session was last sent, and that it is not what is shown. -/
theorem late_states : LastShown latecomer (.backends wanted) late₂.world.deliveries
      (Notification.backendsPayload wanted []) ∧
    LastShown latecomer (.backends wanted) late₃.world.deliveries
      (Notification.backendsPayload wanted []) ∧
    late₃.world.store.live.snapshot (.backends wanted) ≠ .ok (Notification.backendsPayload wanted []) ∧
    ∀ e ∈ late₃.world.store.live.events, e.id ≤ (late₂.world.node 0).cursor := by
  have hstates : late₂.world.deliveries = [⟨latecomer, Notification.backendsMessage,
        Notification.backendsPayload wanted []⟩] ∧
      late₃.world.deliveries = late₂.world.deliveries ∧
      Notification.backendsPayload wanted (late₃.world.store.live.backendsByModule wanted) ≠
        Notification.backendsPayload wanted [] ∧
      ∀ e ∈ late₃.world.store.live.events, e.id ≤ (late₂.world.node 0).cursor := by
    decide +kernel
  obtain ⟨hsent, hsame, hother, hread⟩ := hstates
  have hlast : LastShown latecomer (.backends wanted) late₂.world.deliveries
      (Notification.backendsPayload wanted []) :=
    ⟨[], _, [], hsent, rfl, ⟨rfl, [], rfl⟩, rfl, nofun⟩
  refine ⟨hlast, ?_, ?_, hread⟩
  · rw [hsame]
    exact hlast
  · generalize late₃.world.store.live = t at hother ⊢
    exact fun h => hother (Except.ok.inj h)

/-- A change between the reading and the joining is lost: not every subscriber is up to date once its
node has read everything. -/
theorem late_join_misses : ¬ ∀ (op : Subscription) (j : Nat) (k : Notification) (c₀ c₁ c₂ : Cluster),
    Episode op j k c₀ c₁ c₂ → c₂.world.UpToDate (c₀.session j) k := by
  intro hclaim
  obtain ⟨q, hq, hlast⟩ := hclaim _ _ _ _ _ _ late_episode
  obtain ⟨-, hlast', hother, -⟩ := late_states
  obtain rfl := hlast.unique hlast'
  exact hother hq

/-- The event was read before the session joined. -/
theorem read_before_join : Episode (.backends wanted) 0 (.backends wanted) late₀ late₂ late₃ ∧
    ¬ late₃.world.UpToDate latecomer (.backends wanted) := by
  refine ⟨late_episode, fun hup => ?_⟩
  obtain ⟨⟨p, hlast, hiff⟩, -⟩ := late_episode.subscriber_upToDate_iff
  obtain ⟨hlast', -, hother, hread⟩ := late_states
  obtain rfl := hlast.unique hlast'
  rcases hiff.mp hup with hshown | ⟨e, he, -, hlt⟩
  · exact hother hshown
  · exact UInt64.not_le.mpr hlt (hread e he)

end Subscription

end ConfigRegistry
