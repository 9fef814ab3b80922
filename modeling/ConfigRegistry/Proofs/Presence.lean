import ConfigRegistry.Proofs.EventLog
import ConfigRegistry.Proofs.Rooms

/-!
# Who is there

The presence of a cluster is all that decides about backends: the rows, what each
session knows, and which sessions are registered with each node. Every step of a
cluster is a step of its presence (`Cluster.apply_presence`), so what holds of rows
and sessions over all runs is proved here and never looks at programs.
-/

namespace ConfigRegistry

/-- The rows of backends, the sessions with the nodes they connected to and what they know,
and the nodes with their registered sessions. -/
structure Presence where
  homes : List Nat
  available : Bool
  rows : List Backend
  faces : List (ConnectionId × Behaviour × SessionContext)
  places : List (Profile × List Session)

namespace Presence

def conn (k : Nat) (p : Presence) : ConnectionId := (p.faces[k]?.getD default).1

def session (k : Nat) (p : Presence) : Session := ⟨k, p.conn k⟩

def context (k : Nat) (p : Presence) : SessionContext := (p.faces[k]?.getD default).2.2

/-- How the peer of a session takes messages. -/
def behaviour (k : Nat) (p : Presence) : Behaviour := (p.faces[k]?.getD default).2.1

def home (k : Nat) (p : Presence) : Nat := p.homes[k]?.getD 0

def profile (n : Nat) (p : Presence) : Profile := (p.places[n]?.getD default).1

def registered (n : Nat) (p : Presence) : List Session := (p.places[n]?.getD default).2

/-! ## Steps -/

/-- A session of a node opens. -/
def opened (n : Nat) (id : ConnectionId) (behaviour : Behaviour) (context : SessionContext)
    (p : Presence) : Presence :=
  { p with homes := p.homes ++ [n], faces := p.faces ++ [(id, behaviour, context)] }

/-- The registered sessions of a node change. -/
def atNode (n : Nat) (f : List Session → List Session) (p : Presence) : Presence :=
  { p with places := p.places.modify n fun x => (x.1, f x.2) }

/-- The backend that a session holds changes. -/
def holding (k : Nat) (b : Option Backend) (p : Presence) : Presence :=
  { p with faces := p.faces.modify k fun x => (x.1, x.2.1, { x.2.2 with backend := b }) }

/-- The rows of a node. -/
def owned (n : Nat) (p : Presence) : List Backend :=
  p.rows.filter fun b => b.nodeId = (p.profile n).nodeId

/-- The rows of a node whose connections are not registered with it. -/
def phantoms (n : Nat) (p : Presence) : List Backend :=
  (p.owned n).filter fun b => !(p.registered n).any (·.conn = b.connectionId)

/-- The rows without those of some backends' connections. -/
def without (bs : List Backend) (p : Presence) : Presence :=
  { p with rows := p.rows.filter fun b => b.connectionId ∉ bs.map (·.connectionId) }

/-- What a disconnect answers and leaves of the rows. -/
inductive Departs (k : Nat) (p : Presence) : Except LifecycleError Unit → List Backend → Prop
  | unreachable (ha : p.available = false)
      (hc : (p.context k).moduleId ≠ none ∨ (p.context k).backend ≠ none) :
      Departs k p (.error (.store .unreachable)) p.rows
  | empty (hb : (p.context k).backend = none) : Departs k p (.ok ()) p.rows
  | withdraws (ha : p.available = true) {b : Backend} (hb : (p.context k).backend = some b) :
      Departs k p (.ok ()) (Table.erase Backend.connectionId b.connectionId p.rows)

/-- Inputs that leave rows and sessions alone. -/
def Apart : Cluster.Input → Prop
  | .connect .. | .ready .. | .disconnect .. | .clearPhantoms .. | .deleteOwn .. | .setAvailable _
  | .call (.insertBackend _) | .call (.deleteBackend _) | .call (.deleteBackends _) => False
  | _ => True

/-- Whether the node or the session of an input exists. -/
def Knows (p : Presence) : Cluster.Input → Prop
  | .connect n .. | .updateActive n .. | .activate n _ | .clearPhantoms n | .deleteOwn n | .poll n
  | .restart n => n < p.places.length
  | .requirements k _ | .configSchema k _ | .ready k _ | .disconnect k => k < p.faces.length
  | .call _ | .appendEventAt .. | .lag | .catchUp | .setAvailable _ => True

/-- The node that takes a step. -/
def actor (p : Presence) : Cluster.Input → Option Nat
  | .connect n .. | .updateActive n .. | .activate n _ | .clearPhantoms n | .deleteOwn n | .poll n
  | .restart n => some n
  | .requirements k _ | .configSchema k _ | .ready k _ | .disconnect k => some (p.home k)
  | .call _ | .appendEventAt .. | .lag | .catchUp | .setAvailable _ => none

/-- What a step does to rows and sessions. -/
inductive Step (p : Presence) : (i : Cluster.Input) → Option i.Reply → Presence → Prop
  | keeps {i : Cluster.Input} {o : Option i.Reply} (hi : Apart i) : Step p i o p
  | switches (b : Bool) (o : Option Unit) : Step p (.setAvailable b) o { p with available := b }
  /-- The session opens, but is not registered. -/
  | refused {n : Nat} {id : ConnectionId} {behaviour : Behaviour} {name : String}
      {o : Option (Except LifecycleError Unit)} (ho : ∀ x, o ≠ some (.ok x)) :
      Step p (.connect n id behaviour name) o (p.opened n id behaviour .empty)
  | connects {n : Nat} {id : ConnectionId} {behaviour : Behaviour} {name : String}
      (ha : p.available = true) :
      Step p (.connect n id behaviour name) (some (.ok ()))
        ((p.opened n id behaviour ⟨some (ModuleId.ofName (Text.trimmed name)), some (Text.trimmed name),
          none⟩).atNode n (Table.put Session.conn ⟨p.faces.length, id⟩))
  | unready {k : Nat} {d : BackendDeclaration} {o : Option (Except LifecycleError Backend)}
      (ho : ∀ x, o ≠ some (.ok x)) : Step p (.ready k d) o p
  | readies {k : Nat} {d : BackendDeclaration} {b : Backend} (ha : p.available = true)
      (hc : b.connectionId = p.conn k) (hn : b.nodeId = (p.profile (p.home k)).nodeId)
      (hm : (p.context k).moduleId = some b.moduleId) :
      Step p (.ready k d) (some (.ok b))
        { p.holding k (some b) with rows := Table.put Backend.connectionId b p.rows }
  | leaves {k : Nat} {r : Except LifecycleError Unit} {rows : List Backend} (h : Departs k p r rows) :
      Step p (.disconnect k) (some r)
        { (p.holding k none).atNode (p.home k) (Table.erase Session.conn (p.conn k)) with rows := rows }
  | unswept {n : Nat} {o : Option (Except HousekeepingError SweepReport)}
      (ho : ∀ x, o ≠ some (.ok x)) : Step p (.clearPhantoms n) o p
  | sweeps {n : Nat} {r : SweepReport} (ha : p.available = true) :
      Step p (.clearPhantoms n) (some (.ok r)) (p.without (p.phantoms n))
  | stays {n : Nat} {o : Option (Except HousekeepingError SweepReport)}
      (ho : ∀ x, o ≠ some (.ok x)) : Step p (.deleteOwn n) o p
  | departs {n : Nat} {r : SweepReport} (ha : p.available = true) :
      Step p (.deleteOwn n) (some (.ok r)) (p.without (p.owned n))

/-- A change of the registered sessions sees those of the node only. -/
theorem atNode_registered (n : Nat) (f : List Session → List Session) (p : Presence) :
    (p.atNode n fun _ => f (p.registered n)) = p.atNode n f := by
  unfold atNode registered
  congr 1
  apply List.ext_getElem?
  intro i
  simp only [List.getElem?_modify]
  cases hp : p.places[i]? with
  | none => rfl
  | some x =>
    by_cases hi : n = i
    · subst hi
      simp [hp]
    · simp [hi]

theorem atNode_self (n : Nat) (p : Presence) : (p.atNode n fun _ => p.registered n) = p := by
  refine (atNode_registered n id p).trans ?_
  unfold atNode
  rw [show (fun x : Profile × List Session => (x.1, id x.2)) = id from rfl, List.modify_id]

/-- What is at an index of a list with one more element. -/
theorem getElem?_concat {α : Type} (xs : List α) (x : α) (k : Nat) :
    (xs ++ [x])[k]? = if k = xs.length then some x else xs[k]? := by
  by_cases hk : k = xs.length
  · simp [hk]
  · by_cases hlt : k < xs.length
    · rw [if_neg hk, List.getElem?_append_left hlt]
    · have hlength : (xs ++ [x]).length ≤ k := by
        rw [List.length_append, List.length_singleton]
        omega
      rw [if_neg hk, List.getElem?_eq_none hlength, List.getElem?_eq_none (Nat.le_of_not_lt hlt)]

section Fields

variable (p : Presence) (n m k j : Nat) (id : ConnectionId) (behaviour : Behaviour)
  (ctx : SessionContext) (b : Option Backend) (f : List Session → List Session)

theorem conn_opened : (p.opened n id behaviour ctx).conn k =
    if k = p.faces.length then id else p.conn k := by
  unfold conn opened
  rw [getElem?_concat]
  split <;> rfl

theorem context_opened : (p.opened n id behaviour ctx).context k =
    if k = p.faces.length then ctx else p.context k := by
  unfold context opened
  rw [getElem?_concat]
  split <;> rfl

theorem home_opened (hl : p.homes.length = p.faces.length) :
    (p.opened n id behaviour ctx).home k = if k = p.faces.length then n else p.home k := by
  unfold home opened
  rw [getElem?_concat, hl]
  split <;> rfl

theorem conn_holding : (p.holding k b).conn j = p.conn j := by
  unfold conn holding
  simp only [List.getElem?_modify]
  cases p.faces[j]? with
  | none => rfl
  | some x => by_cases hj : k = j <;> simp [hj]

theorem behaviour_opened : (p.opened n id behaviour ctx).behaviour k =
    if k = p.faces.length then behaviour else p.behaviour k := by
  unfold Presence.behaviour opened
  rw [getElem?_concat]
  split <;> rfl

theorem behaviour_holding : (p.holding k b).behaviour j = p.behaviour j := by
  unfold Presence.behaviour holding
  simp only [List.getElem?_modify]
  cases p.faces[j]? with
  | none => rfl
  | some x => by_cases hj : k = j <;> simp [hj]

theorem context_holding (hk : k < p.faces.length) : (p.holding k b).context j =
    if j = k then { p.context k with backend := b } else p.context j := by
  unfold context holding
  simp only [List.getElem?_modify]
  by_cases hj : j = k
  · subst hj
    simp [List.getElem?_eq_getElem hk]
  · simp only [hj, ↓reduceIte]
    cases p.faces[j]? with
    | none => rfl
    | some x => simp [Ne.symm hj]

theorem profile_atNode : (p.atNode n f).profile m = p.profile m := by
  unfold profile atNode
  simp only [List.getElem?_modify]
  cases p.places[m]? with
  | none => rfl
  | some x => by_cases hm : n = m <;> simp [hm]

theorem registered_atNode (hn : n < p.places.length) : (p.atNode n f).registered m =
    if m = n then f (p.registered n) else p.registered m := by
  unfold registered atNode
  simp only [List.getElem?_modify]
  by_cases hm : m = n
  · subst hm
    simp [List.getElem?_eq_getElem hn]
  · simp only [hm, ↓reduceIte]
    cases p.places[m]? with
    | none => rfl
    | some x => simp [Ne.symm hm]

end Fields

/-- Who holds a backend once what one session holds has changed. -/
theorem backend_holding {p : Presence} {o : Option Backend} {j k : Nat} {x : Backend}
    (hk : k < p.faces.length) : ((p.holding k o).context j).backend = some x ↔
      j = k ∧ o = some x ∨ j ≠ k ∧ (p.context j).backend = some x := by
  rw [context_holding p k j o hk]
  by_cases hj : j = k <;> simp [hj]

theorem without_congr {bs bs' : List Backend} (p : Presence) (h : ∀ b, b ∈ bs ↔ b ∈ bs') :
    p.without bs = p.without bs' := by
  unfold without
  congr 1
  refine List.filter_congr fun b _ => ?_
  simp only [List.mem_map, h]

theorem without_nil (p : Presence) : p.without [] = p := by
  simp [without, List.filter_eq_self.mpr]

end Presence

/-! ## The presence of a world -/

/-- The presence of a world whose sessions connected to the given nodes. -/
def World.presence (homes : List Nat) (w : World) : Presence where
  homes := homes
  available := w.store.available
  rows := w.store.live.backends
  faces := w.peers.map Peer.face
  places := w.nodes.map fun st => (st.profile, st.rooms.sessions)

def Cluster.presence (c : Cluster) : Presence := c.world.presence c.homes

namespace World

variable {underway : Delivery → Prop} {s : Session} {l : List Nat} {w v : World}

theorem presence_of_aside (h : Aside underway s w v) : v.presence l = w.presence l := by
  obtain ⟨t, r, i, q, ps, ds, rfl, -, -, hf, -⟩ := h
  simp only [presence, hf]

theorem presence_of_settles (h : Settles underway w v) : v.presence l = w.presence l := by
  obtain ⟨t, ps, ds, rfl, hf, -⟩ := h
  simp only [presence, hf]

theorem presence_ticked : w.ticked.presence l = w.presence l := rfl

theorem presence_write (t : Tables) :
    (w.write t).presence l = { w.presence l with rows := t.backends } := rfl

theorem presence_setRooms (n : Nat) (x : RoomIndex) :
    (w.setRooms n x).presence l = (w.presence l).atNode n fun _ => x.sessions := by
  unfold presence Presence.atNode setRooms modifyNode
  congr 1
  apply List.ext_getElem?
  intro i
  simp only [List.getElem?_map, List.getElem?_modify]
  cases w.nodes[i]? with
  | none => rfl
  | some st => by_cases hi : n = i <;> simp [hi]

theorem presence_modifyNode (n : Nat) (f : NodeState → NodeState)
    (hf : ∀ st, (f st).profile = st.profile ∧ (f st).rooms = st.rooms) :
    (w.modifyNode n f).presence l = w.presence l := by
  unfold presence modifyNode
  congr 1
  apply List.ext_getElem?
  intro i
  simp only [List.getElem?_map, List.getElem?_modify]
  cases w.nodes[i]? with
  | none => rfl
  | some st => by_cases hi : n = i <;> simp [hi, hf]

theorem presence_modifyPeer (f : Peer → Peer)
    (g : ConnectionId × Behaviour × SessionContext → ConnectionId × Behaviour × SessionContext)
    (hf : ∀ p, (f p).face = g p.face) :
    (w.modifyPeer s f).presence l =
      { w.presence l with faces := (w.presence l).faces.modify s.serial g } := by
  unfold presence modifyPeer
  congr 1
  apply List.ext_getElem?
  intro i
  simp only [List.getElem?_map, List.getElem?_modify]
  cases w.peers[i]? with
  | none => rfl
  | some p => by_cases hi : s.serial = i <;> simp [hi, hf]

theorem presence_accept (event : String) (payload : Bytes) :
    (w.accept s event payload).presence l = w.presence l := by
  unfold presence
  rw [accept_eq]
  congr 1
  exact faces_modify_accepted _ _ _

theorem presence_context (s : Session) : (w.presence l).context s.serial = (w.peer s).context := by
  unfold Presence.context presence peer
  simp only [List.getElem?_map]
  cases w.peers[s.serial]? <;> rfl

theorem presence_registered (n : Nat) :
    (w.presence l).registered n = (w.node n).rooms.sessions := by
  unfold Presence.registered presence node
  simp only [List.getElem?_map]
  cases w.nodes[n]? <;> rfl

theorem presence_profile (n : Nat) : (w.presence l).profile n = (w.node n).profile := by
  unfold Presence.profile presence node
  simp only [List.getElem?_map]
  cases w.nodes[n]? <;> rfl

theorem presence_joined (n : Nat) (r : Room) (c : ConnectionId) :
    (w.joined n r c).presence l = w.presence l := by
  have hsessions : ((w.node n).rooms.join r c).2.sessions = (w.presence l).registered n := by
    rw [presence_registered, RoomIndex.join_sessions]
  unfold joined
  rw [presence_setRooms, hsessions, Presence.atNode_self]

theorem presence_registers (n : Nat) (s : Session) :
    (w.setRooms n ((w.node n).rooms.register s)).presence l =
      (w.presence l).atNode n (Table.put Session.conn s) := by
  rw [presence_setRooms, ← Presence.atNode_registered n (Table.put Session.conn s), presence_registered]
  rfl

theorem presence_unregisters (n : Nat) (c : ConnectionId) :
    (w.setRooms n ((w.node n).rooms.unregister c).2).presence l =
      (w.presence l).atNode n (Table.erase Session.conn c) := by
  rw [presence_setRooms, ← Presence.atNode_registered n (Table.erase Session.conn c),
    presence_registered]
  rfl

theorem presence_holds (s : Session) (b : Option Backend) :
    (w.modifyPeer s fun p => { p with context := { p.context with backend := b } }).presence l =
      (w.presence l).holding s.serial b :=
  presence_modifyPeer _ _ fun _ => rfl

end World

/-! ## Rows under writes -/

namespace Tables

variable {t t' : Tables} {es : List Event} {e : Event} {c : Config}

theorem Extends.backends (h : t.Extends es t') : t'.backends = t.backends := by
  rw [h.rest]

theorem deleteBackends_eq (cs : List ConnectionId) (t : Tables) : (deleteBackends cs t).2 =
    { t with backends := t.backends.filter fun b => b.connectionId ∉ cs } := by
  induction cs generalizing t with
  | nil => simp [deleteBackends, List.filter_eq_self.mpr]
  | cons c rest ih =>
    simp only [deleteBackends, deleteBackend, ih, Table.erase, List.filter_filter]
    congr 2
    funext b
    by_cases hb : b.connectionId = c <;> simp [hb]

theorem updateConfigData?_backends {data : Bytes} {now : Timestamp} {row : Config}
    (h : t.updateConfigData? c data now = some (row, t')) : t'.backends = t.backends := by
  unfold updateConfigData? at h
  dsimp only at h
  split at h
  · simp only [Option.some.injEq, Prod.mk.injEq] at h
    obtain ⟨-, rfl⟩ := h
    rfl
  · simp at h

end Tables

namespace Cluster

open Presence (Apart Step Departs)

variable {underway : Delivery → Prop} {c : Cluster}

theorem presence_session (k : Nat) : c.presence.session k = c.session k := by
  unfold Presence.session session Presence.conn presence World.presence
  simp only [List.getElem?_map]
  cases c.world.peers[k]? <;> rfl

theorem presence_conn (k : Nat) : c.presence.conn k = (c.session k).conn :=
  congrArg Session.conn (presence_session k)

theorem presence_faces : c.presence.faces.length = c.world.peers.length := List.length_map ..

theorem presence_home (k : Nat) : c.presence.home k = c.home k := rfl

theorem presence_profile (n : Nat) : c.presence.profile n = c.profile n := World.presence_profile n

theorem presence_context (k : Nat) : c.presence.context k = (c.world.peer (c.session k)).context :=
  World.presence_context (c.session k)

theorem presence_opened (n : Nat) (id : ConnectionId) (behaviour : Behaviour) :
    (c.opened n id behaviour).presence = c.presence.opened n id behaviour .empty := by
  simp [presence, World.presence, opened, modifyWorld, world, Presence.opened, Peer.face]

/-- A change at the end of a list. -/
theorem modify_concat {α : Type} (xs : List α) (x : α) (f : α → α) :
    (xs ++ [x]).modify xs.length f = xs ++ [f x] := by
  induction xs with
  | nil => rfl
  | cons y rest ih => simpa using ih

theorem presence_connected (n : Nat) (id : ConnectionId) (behaviour : Behaviour) (name : String) :
    (Lifecycle.connected n ⟨c.world.peers.length, id⟩ name (c.opened n id behaviour).world).presence
      (c.homes ++ [n]) = (c.presence.opened n id behaviour ⟨some (ModuleId.ofName name), some name,
        none⟩).atNode n (Table.put Session.conn ⟨c.presence.faces.length, id⟩) := by
  have hopened : (c.opened n id behaviour).world.presence (c.homes ++ [n]) =
      c.presence.opened n id behaviour .empty := presence_opened n id behaviour
  unfold Lifecycle.connected
  generalize (c.opened n id behaviour).world = w at hopened ⊢
  have hrows : (w.store.live.upsertModule (ModuleId.ofName name) name w.reading).2.backends =
      c.presence.rows := congrArg Presence.rows hopened
  refine (World.presence_registers (w := (w.ticked.write _).modifyPeer _ _) n _).trans ?_
  rw [World.presence_modifyPeer _ (fun x => (x.1, x.2.1, { x.2.2 with
    moduleId := some (ModuleId.ofName name), moduleName := some name })) fun _ => rfl,
    World.presence_write, World.presence_ticked, hopened, presence_faces]
  unfold Presence.opened
  simp only [← presence_faces, modify_concat, hrows]
  rfl

/-- Nothing else of a step reaches rows and sessions. -/
theorem presence_declared {n : Nat} {s : Session} {d : ConfigSchemaDeclaration} {w v : World}
    {l : List Nat} {o : Option (Except LifecycleError Unit)}
    (h : Lifecycle.Declared n underway s d w o v) : v.presence l = w.presence l := by
  have hoffered : ∀ {m : ModuleId} {schema : ConfigSchema} {cf : Config} {t : Tables},
      Lifecycle.Offering m d w.issued (w.store.live.upsertSchema schema) cf t →
      t.backends = w.store.live.backends := by
    intro m schema cf t ho
    cases ho with
    | found _ => rfl
    | created _ hc =>
      obtain ⟨names, -, -, rfl⟩ := hc.stored
      rfl
  have hwrite : ∀ {t : Tables} {v' : World}, t.backends = w.store.live.backends →
      World.Aside underway s (w.write t) v' → v'.presence l = w.presence l := by
    intro t v' ht ha
    rw [World.presence_of_aside ha, World.presence_write, ht]
    rfl
  cases h with
  | refused ha _ => exact World.presence_of_aside ha
  | invalid _ _ _ ha _ => exact hwrite (by rfl) ha
  | missed _ _ hc _ ha _ => exact hwrite (hoffered hc) ha
  | joins _ _ hc ha _ =>
    rw [World.presence_joined, World.presence_accept]
    exact hwrite (hoffered hc) ha

theorem presence_subscribing {n : Nat} {s : Session} {ks : List Notification} {w v : World}
    {l : List Nat} (h : Lifecycle.Subscribing n underway s w ks v) : v.presence l = w.presence l := by
  induction h with
  | start => rfl
  | aside _ ha ih => rw [World.presence_of_aside ha, ih]
  | joins _ _ _ ih => rw [World.presence_joined, World.presence_accept, ih]

theorem presence_left {n k : Nat} {w v : World} {l : List Nat} {r : Except LifecycleError Unit}
    {s : Session} (hk : s.serial = k) (h : Lifecycle.Left n s w r v) :
    ∃ rows, Departs k (w.presence l) r rows ∧ v.presence l =
      { ((w.presence l).holding k none).atNode n (Table.erase Session.conn s.conn) with
        rows := rows } := by
  obtain ⟨readings, t, -, hd, rfl⟩ := h.departed
  subst hk
  refine ⟨t.backends, ?_, ?_⟩
  · have hcontext := World.presence_context (w := w) (l := l) s
    have hmarked : ∀ now, (Lifecycle.marked (w.peer s).context now w.store.live).backends =
        w.store.live.backends := by
      intro now
      unfold Lifecycle.marked
      split <;> rfl
    cases hd with
    | unreachable ha hc => exact .unreachable ha (hcontext ▸ hc)
    | unknown _ hb => exact .empty (hcontext ▸ hb)
    | marks _ hb now =>
      rw [hmarked]
      exact .empty (hcontext ▸ hb)
    | withdraws ha hb now now' ht =>
      rw [(Tables.append?_extends ht).1.backends]
      unfold Tables.deleteBackend
      rw [hmarked]
      exact .withdraws ha (hcontext ▸ hb)
  · rw [World.presence_write, World.presence_holds]
    have hrooms := World.presence_unregisters (w := { w with readings := readings }) (l := l) n s.conn
    exact congrArg (fun p => { Presence.holding s.serial none p with rows := t.backends }) hrooms

theorem mem_owned {b : Backend} (n : Nat) : b ∈ c.presence.owned n ↔
    b ∈ c.world.store.live.backendsByNode (c.profile n).nodeId := by
  unfold Presence.owned Tables.backendsByNode
  rw [List.mem_mergeSort, presence_profile]
  rfl

theorem mem_phantoms {b : Backend} (n : Nat) : b ∈ c.presence.phantoms n ↔
    b ∈ Sweep.phantoms (c.profile n).nodeId (c.world.node n).rooms c.world.store.live := by
  have hregistered : c.presence.registered n = (c.world.node n).rooms.sessions :=
    World.presence_registered n
  unfold Presence.phantoms Sweep.phantoms RoomIndex.isConnected
  simp only [List.mem_filter, mem_owned, hregistered]

theorem presence_removed {checked : Nat} {bs bs' : List Backend} {w v : World} {l : List Nat}
    {r : SweepReport} (h : Sweep.Removed checked bs w.served r v) (hb : ∀ b, b ∈ bs' ↔ b ∈ bs) :
    v.presence l = (w.presence l).without bs' := by
  rw [Presence.without_congr _ hb]
  cases h with
  | nothing h =>
    rw [h, Presence.without_nil]
    rfl
  | some _ ht =>
    rw [World.presence_write, (Tables.appendAll?_extends ht).1.backends, Tables.deleteBackends_eq]
    rfl

/-- Calls that write no backends leave the rows alone. -/
theorem serve_rows {call : Store.Call} (hi : Apart (.call call)) {now : Timestamp} {st st' : Store}
    {x : call.Result} (h : st.serve now call = .ok x st') :
    st'.available = st.available ∧ st'.live.backends = st.live.backends := by
  cases call with
  | insertBackend | deleteBackend | deleteBackends => exact hi.elim
  | appendEvent p =>
    obtain ⟨t, ht, -, rfl⟩ := Store.serve_appendEvent h
    exact ⟨rfl, ht.backends⟩
  | appendEvents ps =>
    obtain ⟨t, ht, -, rfl⟩ := Store.serve_appendEvents h
    exact ⟨rfl, ht.backends⟩
  | updateConfigData id data =>
    obtain ⟨old, t, -, ht, rfl⟩ := Store.serve_updateConfigData h
    exact ⟨rfl, Tables.updateConfigData?_backends ht⟩
  | activateConfig id =>
    obtain ⟨old, -, rfl⟩ := Store.serve_activateConfig h
    exact ⟨rfl, rfl⟩
  | _ =>
    cases h
    exact ⟨rfl, rfl⟩

theorem presence_called {call : Store.Call} (hi : Apart (.call call)) {w v : World} {l : List Nat}
    {r : Except StoreError call.Result} (h : w.perform call = some (v, r)) :
    v.presence l = w.presence l := by
  cases World.performed h with
  | served _ hs =>
    obtain ⟨havailable, hrows⟩ := serve_rows hi hs
    unfold World.presence
    simp only [havailable, hrows]
    split <;> rfl
  | failed _ => split <;> rfl

theorem presence_knows {i : Input} (hk : c.Knows i) : c.presence.Knows i := by
  have hplaces : c.presence.places.length = c.world.nodes.length := List.length_map ..
  cases i <;> simp only [Presence.Knows, hplaces, presence_faces] <;> exact hk

theorem perform_homes {α : Type} (n : Nat) (p : Prog α) : (c.perform n p).1.homes = c.homes := by
  unfold perform
  rcases c.sim.perform n p with ⟨sim, finish⟩
  rfl

theorem homes_connect (n : Nat) (id : ConnectionId) (behaviour : Behaviour) (name : String) :
    (c.apply (.connect n id behaviour name)).1.homes = c.homes ++ [n] := by
  unfold apply
  rw [perform_homes]
  rfl

/-- Only a connection adds a session. -/
theorem homes_kept {i : Input} (h : ∀ n id behaviour name, i ≠ .connect n id behaviour name) :
    (c.apply i).1.homes = c.homes := by
  cases i with
  | connect n id behaviour name => exact absurd rfl (h n id behaviour name)
  | appendEventAt p at_ =>
    cases ht : c.world.store.live.append? p at_ <;> simp [apply, ht, modifyStore, modifyWorld]
  | restart | lag | catchUp | setAvailable => rfl
  | _ => exact perform_homes _ _

/-! ## Effects on the presence -/

section Effects

variable {o : Option (Except LifecycleError Unit)} {n k : Nat} {w v : World} {l : List Nat}

/-- A write of anything but backends leaves rows and sessions alone, whether it comes about or not. -/
theorem presence_attempted {ε α : Type} {s : Session} {done : α → World → Prop}
    {o : Option (Except ε α)} (h : World.Attempt underway s w done o v)
    (hd : ∀ x v, done x v → ∃ w₁ t, World.Aside underway s w w₁ ∧
      t.backends = w.store.live.backends ∧ v = w₁.write t) :
    v.presence l = w.presence l := by
  cases h with
  | failed ha _ => exact World.presence_of_aside ha
  | succeeded hx =>
    obtain ⟨w₁, t, ha, ht, rfl⟩ := hd _ _ hx
    rw [World.presence_write, World.presence_of_aside ha, ht]
    rfl

theorem updated_backends {m : ModuleId} {data : Bytes} {live t : Tables} {row : Config}
    (h : ConfigWrite.Updated m data live row t) : t.backends = live.backends := by
  obtain ⟨active, old, names, now, now', t₁, e, -, -, -, -, hdata, ht⟩ := h.written
  have hlinked : t.backends = t₁.backends := (Tables.append?_extends ht).1.backends
  exact hlinked.trans (Tables.updateConfigData?_backends hdata)

theorem activated_backends {id : ConfigId} {live t : Tables} (h : ConfigWrite.Activated id live t) :
    t.backends = live.backends := by
  obtain ⟨cf, now, e, -, ht⟩ := h.written
  exact (Tables.append?_extends ht).1.backends

theorem presence_polled {ws : WorkerSettings} {x : Limits} {outcome : PollOutcome}
    (h : Worker.Polled n ws x w outcome v) : v.presence l = w.presence l := by
  cases h with
  | idle _ => rfl
  | dispatched _ failed reads => exact World.presence_modifyNode _ _ fun _ => ⟨rfl, rfl⟩

/-- The effect of an input that leaves rows and sessions alone. -/
theorem presence_apart {i : Input} {o : Option i.Reply} (hi : Apart i) (h : c.Effect underway i o w) :
    w.presence l = c.world.presence l := by
  cases i with
  | connect | ready | disconnect | clearPhantoms | deleteOwn | setAvailable => exact hi.elim
  | requirements k r =>
    obtain ⟨ks, -, hs, -⟩ := h
    exact presence_subscribing hs
  | configSchema k d => exact presence_declared h
  | updateActive n m data =>
    refine presence_attempted (h default) ?_
    rintro row v ⟨-, w₁, t, ha, hupdated, rfl⟩
    exact ⟨w₁, t, ha, updated_backends hupdated, rfl⟩
  | activate n id =>
    refine presence_attempted (h default) ?_
    rintro row v ⟨-, w₁, t, ha, hactivated, rfl⟩
    exact ⟨w₁, t, ha, activated_backends hactivated, rfl⟩
  | poll n =>
    rcases h with ⟨-, -, rfl⟩ | ⟨-, outcome, -, hp⟩
    · rfl
    · exact presence_polled hp
  | restart n =>
    obtain rfl := h
    exact World.presence_modifyNode _ _ fun _ => ⟨rfl, rfl⟩
  | call call =>
    obtain ⟨r, hr, -⟩ := h
    exact presence_called hi hr
  | appendEventAt p at_ =>
    obtain ⟨e, t, ht, -, rfl⟩ := h
    rw [World.presence_write, (Tables.append?_extends ht).1.backends]
    rfl
  | lag | catchUp =>
    obtain rfl := h
    rfl

theorem step_connect {id : ConnectionId} {behaviour : Behaviour} {name : String}
    (h : c.Effect underway (.connect n id behaviour name) o w) :
    c.presence.Step (.connect n id behaviour name) o (w.presence (c.homes ++ [n])) := by
  cases h with
  | failed ha ho =>
    have hopened : (c.opened n id behaviour).world.presence (c.homes ++ [n]) =
        c.presence.opened n id behaviour .empty := presence_opened n id behaviour
    rw [World.presence_of_aside ha, hopened]
    exact .refused ho
  | succeeded h =>
    obtain ⟨ha, -, rfl⟩ := h
    rw [presence_connected]
    exact .connects ha

theorem step_ready {d : BackendDeclaration} {o : Option (Except LifecycleError Backend)}
    (h : c.Effect underway (.ready k d) o w) :
    c.presence.Step (.ready k d) o (w.presence c.homes) := by
  cases h with
  | failed ha ho =>
    rw [World.presence_of_aside ha]
    exact .unready ho
  | succeeded h =>
    obtain ⟨ha, hconn, howner, hm, e, t, ht, rfl⟩ := h
    rw [World.presence_holds, World.presence_write, (Tables.append?_extends ht).1.backends]
    refine .readies ha ?_ ?_ ?_
    · rw [hconn, presence_conn]
    · rw [howner, presence_profile, presence_home]
      rfl
    · rw [presence_context]
      exact hm

theorem step_disconnect (h : c.Effect underway (.disconnect k) o w) :
    c.presence.Step (.disconnect k) o (w.presence c.homes) := by
  obtain ⟨r, rfl, hleft⟩ := h
  obtain ⟨rows, hd, hv⟩ := presence_left (l := c.homes) rfl hleft
  rw [hv, ← presence_session]
  exact .leaves hd

theorem step_clearPhantoms {o : Option (Except HousekeepingError SweepReport)}
    (h : c.Effect underway (.clearPhantoms n) o w) :
    c.presence.Step (.clearPhantoms n) o (w.presence c.homes) := by
  cases h default with
  | failed ha ho =>
    rw [World.presence_of_aside ha]
    exact .unswept ho
  | succeeded h =>
    rw [presence_removed h.2 fun b => mem_phantoms n]
    exact .sweeps h.1

theorem step_deleteOwn {o : Option (Except HousekeepingError SweepReport)}
    (h : c.Effect underway (.deleteOwn n) o w) :
    c.presence.Step (.deleteOwn n) o (w.presence c.homes) := by
  cases h default with
  | failed ha ho =>
    rw [World.presence_of_aside ha]
    exact .stays ho
  | succeeded h =>
    rw [presence_removed h.2 fun b => mem_owned n]
    exact .departs h.1

end Effects

/-- Every step of a cluster is a step of its presence. -/
theorem apply_presence (hc : c.Steady underway) (i : Input)
    (hu : ∀ n, i = .poll n → ∀ l k, Simulation.Announced underway c.world (c.world.notices n l k))
    (hi : ∀ call, i = .call call → Apart i) (hn : (c.apply i).2 ≠ .overflow) :
    c.presence.Step i (c.apply i).2.value? (c.apply i).1.presence := by
  obtain ⟨w, heff, hset, -⟩ := apply_effect hc i hu hn
  have hafter : (c.apply i).1.presence = w.presence (c.apply i).1.homes := World.presence_of_settles hset
  rw [hafter]
  by_cases hj : Apart i
  · rw [homes_kept (by rintro n id behaviour name rfl; exact hj), presence_apart hj heff]
    exact .keeps hj
  cases i with
  | connect n id behaviour name =>
    rw [homes_connect]
    exact step_connect heff
  | ready k d =>
    rw [homes_kept (by simp)]
    exact step_ready heff
  | disconnect k =>
    rw [homes_kept (by simp)]
    exact step_disconnect heff
  | clearPhantoms n =>
    rw [homes_kept (by simp)]
    exact step_clearPhantoms heff
  | deleteOwn n =>
    rw [homes_kept (by simp)]
    exact step_deleteOwn heff
  | setAvailable b =>
    obtain rfl := heff
    exact .switches b _
  | call call => exact absurd (hi call rfl) hj
  | _ => exact absurd trivial hj

end Cluster

end ConfigRegistry
