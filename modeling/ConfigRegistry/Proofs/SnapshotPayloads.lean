import ConfigRegistry.Proofs.ByteOrder
import ConfigRegistry.Proofs.Fanouts
import ConfigRegistry.Proofs.RoundTrips

/-!
# What snapshots of backends say

A message with the backends of a module, and one with the routes to all modules, tells of
every row that inserts and deletes have left, once each and in the order of the addresses
(`snapshots_faithful`). Its text depends on the rows alone, not on the writes that led to
them, unless two rows have the same place in the order.
-/

namespace ConfigRegistry

open Json

/-! ## Writes to the backends -/

/-- A write to the backends. -/
inductive BackendWrite where
  | insert (b : Backend)
  | delete (c : ConnectionId)
  | deleteAll (cs : List ConnectionId)

namespace BackendWrite

/-- The call that makes a write. -/
def call : BackendWrite → Store.Call
  | insert b => .insertBackend b
  | delete c => .deleteBackend c
  | deleteAll cs => .deleteBackends cs

/-- The tables after a write. -/
def apply : BackendWrite → Tables → Tables
  | insert b, t => t.insertBackend b
  | delete c, t => (t.deleteBackend c).2
  | deleteAll cs, t => (Tables.deleteBackends cs t).2

/-- The backend of each connection after a write. -/
def leaves (rows : ConnectionId → Option Backend) : BackendWrite → ConnectionId → Option Backend
  | insert b, c => if c = b.connectionId then some b else rows c
  | delete d, c => if c = d then none else rows c
  | deleteAll ds, c => if c ∈ ds then none else rows c

/-- The backend of each connection after writes to an empty table. -/
def left (ws : List BackendWrite) : ConnectionId → Option Backend := ws.foldl leaves fun _ => none

end BackendWrite

/-- The store after a write. -/
def Store.after (s : Store) (w : BackendWrite) : Store :=
  match s.serve default w.call with
  | .ok _ s => s
  | .error _ => s
  | .overflow => s

theorem Store.after_eq (s : Store) (w : BackendWrite) : s.after w = { s with live := w.apply s.live } := by
  cases w <;> rfl

/-- The tables of a store that was empty before the writes. -/
def Tables.built (ws : List BackendWrite) : Tables := (ws.foldl Store.after .empty).live

namespace Tables

variable {t : Tables} {ws ws' : List BackendWrite} {m : ModuleId}

theorem apply_keyed (h : t.backends.Pairwise (·.connectionId ≠ ·.connectionId)) (w : BackendWrite) :
    (w.apply t).backends.Pairwise (·.connectionId ≠ ·.connectionId) := by
  cases w with
  | insert b => exact Table.keyed_put h b
  | delete c => exact h.filter _
  | deleteAll cs =>
    induction cs generalizing t with
    | nil => exact h
    | cons c rest ih => exact ih (t := (t.deleteBackend c).2) (h.filter _)

theorem mem_deleteBackends {b : Backend} (cs : List ConnectionId) :
    b ∈ (deleteBackends cs t).2.backends ↔ b ∈ t.backends ∧ b.connectionId ∉ cs := by
  induction cs generalizing t with
  | nil => simp [deleteBackends]
  | cons c rest ih =>
    simp only [deleteBackends, ih, deleteBackend, Table.mem_erase, List.mem_cons, not_or, and_assoc]

theorem mem_apply {rows : ConnectionId → Option Backend}
    (h : ∀ b, b ∈ t.backends ↔ rows b.connectionId = some b) (w : BackendWrite) (b : Backend) :
    b ∈ (w.apply t).backends ↔ w.leaves rows b.connectionId = some b := by
  cases w with
  | insert x =>
    simp only [BackendWrite.apply, insertBackend, BackendWrite.leaves, Table.mem_put, h]
    split
    case isTrue hx => simp [hx, eq_comm]
    case isFalse hx =>
      have hne : b ≠ x := fun he => hx (he ▸ rfl)
      simp [hx, hne]
  | delete c =>
    simp only [BackendWrite.apply, deleteBackend, BackendWrite.leaves, Table.mem_erase, h]
    split
    case isTrue hc => simp [hc]
    case isFalse hc => simp [hc]
  | deleteAll cs =>
    simp only [BackendWrite.apply, BackendWrite.leaves, mem_deleteBackends, h]
    split
    case isTrue hc => simp [hc]
    case isFalse hc => simp [hc]

/-- A table has one row of a connection at most, the one that the writes have left. -/
theorem built_rows (ws : List BackendWrite) :
    (built ws).backends.Pairwise (·.connectionId ≠ ·.connectionId) ∧
      ∀ b, b ∈ (built ws).backends ↔ BackendWrite.left ws b.connectionId = some b := by
  have hfold : ∀ (ws : List BackendWrite) (s : Store) (rows : ConnectionId → Option Backend),
      s.live.backends.Pairwise (·.connectionId ≠ ·.connectionId) →
      (∀ b, b ∈ s.live.backends ↔ rows b.connectionId = some b) →
      (ws.foldl Store.after s).live.backends.Pairwise (·.connectionId ≠ ·.connectionId) ∧
        ∀ b, b ∈ (ws.foldl Store.after s).live.backends ↔
          ws.foldl BackendWrite.leaves rows b.connectionId = some b := by
    intro ws
    induction ws with
    | nil => exact fun s rows hkeyed hmem => ⟨hkeyed, hmem⟩
    | cons w ws ih =>
      intro s rows hkeyed hmem
      refine ih _ _ ?_ fun b => ?_
      · rw [Store.after_eq]
        exact apply_keyed hkeyed w
      · rw [Store.after_eq]
        exact mem_apply hmem w b
  exact hfold ws .empty (fun _ => none) .nil fun b => ⟨nofun, nofun⟩

/-- Writes that leave the same rows build tables with the same rows. -/
theorem built_perm (h : BackendWrite.left ws' = BackendWrite.left ws) :
    (built ws').backends.Perm (built ws).backends := by
  have hnodup : ∀ ws : List BackendWrite, (built ws).backends.Nodup := fun ws =>
    (built_rows ws).1.imp fun hne he => hne (congrArg Backend.connectionId he)
  refine (List.perm_ext_iff_of_nodup (hnodup ws') (hnodup ws)).mpr fun b => ?_
  rw [(built_rows ws').2, (built_rows ws).2, h]

/-! ## The order of rows -/

/-- Ordered by a text, and where it is the same, by something else. -/
def Then (key : Backend → String) (le : Backend → Backend → Prop) (a b : Backend) : Prop :=
  key a < key b ∨ key a = key b ∧ le a b

theorem Then.trans {key : Backend → String} {le : Backend → Backend → Prop}
    (htrans : ∀ a b c, le a b → le b c → le a c) (a b c : Backend)
    (hab : Then key le a b) (hbc : Then key le b c) : Then key le a c := by
  rcases hab with hab | ⟨hab, hle⟩ <;> rcases hbc with hbc | ⟨hbc, hle'⟩
  · exact .inl (String.lt_trans hab hbc)
  · exact .inl (hbc ▸ hab)
  · exact .inl (hab ▸ hbc)
  · exact .inr ⟨hab.trans hbc, htrans a b c hle hle'⟩

theorem Then.total {key : Backend → String} {le : Backend → Backend → Prop}
    (htotal : ∀ a b, le a b ∨ le b a) (a b : Backend) : Then key le a b ∨ Then key le b a := by
  by_cases hab : key a < key b
  · exact .inl (.inl hab)
  · by_cases hba : key b < key a
    · exact .inr (.inl hba)
    · have he : key a = key b := String.le_antisymm (String.not_lt.mp hba) (String.not_lt.mp hab)
      exact (htotal a b).imp (fun h => .inr ⟨he, h⟩) fun h => .inr ⟨he.symm, h⟩

theorem Then.le {key : Backend → String} {le : Backend → Backend → Prop} {a b : Backend}
    (h : Then key le a b) : key a ≤ key b := by
  rcases h with h | ⟨h, -⟩
  · exact String.not_lt.mp (String.lt_asymm h)
  · exact h ▸ String.le_refl _

theorem addressLe_iff (a b : Backend) :
    addressLe a b = true ↔ Then (·.address) (·.connectionId.text ≤ ·.connectionId.text) a b := by
  simp [addressLe, Then]

theorem routeLe_iff (a b : Backend) :
    routeLe a b = true ↔ Then (·.moduleName) (addressLe · ·) a b := by
  simp [routeLe, Then]

theorem addressLe_trans (a b c : Backend) (hab : addressLe a b = true) (hbc : addressLe b c = true) :
    addressLe a c = true := by
  have htrans : ∀ a b c : Backend, a.connectionId.text ≤ b.connectionId.text →
      b.connectionId.text ≤ c.connectionId.text → a.connectionId.text ≤ c.connectionId.text :=
    fun _ _ _ => String.le_trans
  rw [addressLe_iff] at hab hbc ⊢
  exact Then.trans htrans a b c hab hbc

theorem addressLe_total (a b : Backend) : addressLe a b = true ∨ addressLe b a = true := by
  rw [addressLe_iff, addressLe_iff]
  exact Then.total (fun _ _ => String.le_total _ _) a b

theorem routeLe_trans (a b c : Backend) (hab : routeLe a b = true) (hbc : routeLe b c = true) :
    routeLe a c = true := by
  rw [routeLe_iff] at hab hbc ⊢
  exact Then.trans addressLe_trans a b c hab hbc

theorem routeLe_total (a b : Backend) : routeLe a b = true ∨ routeLe b a = true := by
  rw [routeLe_iff, routeLe_iff]
  exact Then.total addressLe_total a b

/-- The backends of a module come in the order of their addresses. -/
theorem backendsByModule_sorted (m : ModuleId) (t : Tables) :
    (t.backendsByModule m).Pairwise (·.address ≤ ·.address) := by
  have hsorted := List.pairwise_mergeSort addressLe_trans (fun a b => by simpa using addressLe_total a b)
    (t.backends.filter (·.moduleId = m))
  exact hsorted.imp fun h => ((addressLe_iff _ _).mp h).le

/-- All backends come in the order of the names of their modules, then of their addresses. -/
theorem allBackends_sorted (t : Tables) :
    t.allBackends.Pairwise (Then (·.moduleName) (·.address ≤ ·.address)) := by
  have hsorted := List.pairwise_mergeSort routeLe_trans (fun a b => by simpa using routeLe_total a b)
    t.backends
  refine hsorted.imp fun h => ?_
  exact ((routeLe_iff _ _).mp h).imp_right fun ⟨he, hle⟩ => ⟨he, ((addressLe_iff _ _).mp hle).le⟩

theorem backendsByModule_perm (m : ModuleId) (t : Tables) :
    (t.backendsByModule m).Perm (t.backends.filter (·.moduleId = m)) := List.mergeSort_perm _ _

theorem allBackends_perm (t : Tables) : t.allBackends.Perm t.backends := List.mergeSort_perm _ _

/-- No two backends of a module share their address. -/
def DistinctAddresses (m : ModuleId) (t : Tables) : Prop :=
  ∀ a ∈ t.backends, ∀ b ∈ t.backends, a.moduleId = m → b.moduleId = m → a.address = b.address → a = b

/-- No two backends share the name of their module and their address. -/
def DistinctRoutes (t : Tables) : Prop :=
  ∀ a ∈ t.backends, ∀ b ∈ t.backends, a.moduleName = b.moduleName → a.address = b.address → a = b

/-- Two listings of the same backends of a module are one. -/
theorem backendsByModule_unique {u : Tables} (hperm : u.backends.Perm t.backends)
    (hties : t.DistinctAddresses m) :
    u.backendsByModule m = t.backendsByModule m := by
  have hmem : ∀ {b}, b ∈ t.backendsByModule m → b ∈ t.backends ∧ b.moduleId = m := by
    intro b hb
    simpa using (backendsByModule_perm m t).mem_iff.mp hb
  have hsame : (u.backendsByModule m).Perm (t.backendsByModule m) :=
    (backendsByModule_perm m u).trans ((hperm.filter _).trans (backendsByModule_perm m t).symm)
  refine hsame.eq_of_pairwise ?_ (backendsByModule_sorted m u) (backendsByModule_sorted m t)
  intro a b ha hb hab hba
  obtain ⟨ha, ham⟩ := hmem (hsame.mem_iff.mp ha)
  obtain ⟨hb, hbm⟩ := hmem hb
  exact hties a ha b hb ham hbm (String.le_antisymm hab hba)

/-- Two listings of the same backends are one. -/
theorem allBackends_unique {u : Tables} (hperm : u.backends.Perm t.backends)
    (hties : t.DistinctRoutes) :
    u.allBackends = t.allBackends := by
  have hsame : u.allBackends.Perm t.allBackends :=
    (allBackends_perm u).trans (hperm.trans (allBackends_perm t).symm)
  refine hsame.eq_of_pairwise ?_ (allBackends_sorted u) (allBackends_sorted t)
  intro a b ha hb hab hba
  have ha := (allBackends_perm t).mem_iff.mp (hsame.mem_iff.mp ha)
  have hb := (allBackends_perm t).mem_iff.mp hb
  rcases hab with hab | ⟨hab, hle⟩ <;> rcases hba with hba | ⟨hba, hle'⟩
  · exact absurd hba (String.lt_asymm hab)
  · exact absurd hab (hba ▸ String.lt_irrefl _)
  · exact absurd hba (hab ▸ String.lt_irrefl _)
  · exact hties a ha b hb hab (String.le_antisymm hle hle')

end Tables

/-! ## What is sent -/

/-- What a node sends of a notification. A session that subscribes is offered the payload, and the
call comes to an end, whoever it is; a session that records has the payload then and is in the room.
When the notification is published, the payload is queued for every member of the room. -/
structure World.Sends (w : World) (n : Nat) (l : Limits) (k : Notification) (p : Bytes) : Prop where
  offers (underway : Delivery → Prop) (s : Session) :
    (Notification.subscribe l s k).Ensures n underway (Notification.Offered n underway s k p w.served) w
  returns (s : Session) :
    (Notification.subscribe l s k).Returns n s (w.peer s).behaviour (fun _ _ => True) w
  subscribes (s : Session) (hs : w.hears s = true) :
    w.run n (Notification.subscribe l s k).outcome =
      .finished ((w.served.accept s k.message p).joined n k.room s.conn) (.ok ())
  publishes : ∃ reads, w.run n (Worker.publish l k) = .finished (w.queued reads
    (((w.node n).rooms.members k.room).map (⟨l.emit, ·, k.message, p⟩))) true

theorem World.sends_of_snapshot {w : World} {n : Nat} {l : Limits} {k : Notification} {p : Bytes}
    (hw : w.Still) (ha : w.store.available = true) (hconfig : ∀ m, k ≠ .config m)
    (hk : (w.store.view .stale).snapshot k = .ok p) : w.Sends n l k p where
  offers := by
    refine fun underway s => Notification.ensures_subscribe hw fun o v h => ?_
    cases h with
    | unreachable hu => exact absurd (ha.symm.trans hu) nofun
    | absent e _ he => exact absurd (hk.symm.trans he) nofun
    | offered _ hp hoffered _ =>
      cases hk.symm.trans hp
      exact hoffered
  returns := by
    intro s
    have hfit : w.Fit s (w.peer s).behaviour 0 := ⟨rfl, w.store.live.lastEventId.toNat_lt_size⟩
    have htimed := Notification.subscribe_blameless (l := l) (s := s) (i := 0) hconfig
    exact (htimed.returns n (Nat.zero_le 1) hfit).mono fun _ _ _ => trivial
  subscribes := fun _ hs => Notification.run_subscribe ⟨hw.faults, ha⟩ hs hk
  publishes := ⟨_, Worker.run_publish ⟨hw.faults, ha⟩ hk⟩

/-- A node that reads the backends that writes have left, perhaps from a copy that lags behind. -/
structure World.ShowsWrites (w : World) (ws : List BackendWrite) : Prop where
  still : w.Still
  available : w.store.available = true
  rows : (w.store.view .stale).backends = (Tables.built ws).backends

theorem World.ShowsWrites.sends_backends {w : World} {ws : List BackendWrite} {n : Nat} {l : Limits}
    (h : w.ShowsWrites ws) (m : ModuleId) :
    w.Sends n l (.backends m) (Notification.backendsPayload m ((Tables.built ws).backendsByModule m)) := by
  refine World.sends_of_snapshot h.still h.available nofun ?_
  simp only [Tables.snapshot, Tables.backendsByModule, h.rows]

theorem World.ShowsWrites.sends_routes {w : World} {ws : List BackendWrite} {n : Nat} {l : Limits}
    (h : w.ShowsWrites ws) :
    w.Sends n l .routing (Notification.routingPayload (Tables.built ws).allBackends) := by
  refine World.sends_of_snapshot h.still h.available nofun ?_
  simp only [Tables.snapshot, Tables.allBackends, h.rows]

/-- Routes in the order of the names of their modules, then of their addresses, byte by byte. -/
def RouteEntry.Before (a b : RouteEntry) : Prop :=
  Bytes.ofText a.moduleName < Bytes.ofText b.moduleName ∨
    a.moduleName = b.moduleName ∧ Bytes.ofText a.address ≤ Bytes.ofText b.address

theorem Tables.addresses_ordered (m : ModuleId) (t : Tables) :
    ((t.backendsByModule m).map BackendAddress.ofBackend).Pairwise
      fun a b => Bytes.ofText a.address ≤ Bytes.ofText b.address :=
  List.pairwise_map.mpr ((t.backendsByModule_sorted m).imp Bytes.ofText_le_ofText)

theorem Tables.routes_ordered (t : Tables) :
    (t.allBackends.map RouteEntry.ofBackend).Pairwise RouteEntry.Before := by
  refine List.pairwise_map.mpr (t.allBackends_sorted.imp fun h => ?_)
  exact h.imp Bytes.ofText_lt_ofText fun ⟨he, hle⟩ => ⟨he, Bytes.ofText_le_ofText hle⟩

/-- The routes to a module and its backends are the same ones. -/
theorem Tables.routes_agree (m : ModuleId) (t : Tables) :
    (((t.allBackends.map RouteEntry.ofBackend).filter (·.moduleId = m)).map
        fun r => (r.address, r.version, r.endpoints)).Perm
      (((t.backendsByModule m).map BackendAddress.ofBackend).map
        fun b => (b.address, b.version, b.endpoints)) := by
  have hrows : (t.allBackends.filter (·.moduleId = m)).Perm (t.backendsByModule m) :=
    ((t.allBackends_perm).filter _).trans (t.backendsByModule_perm m).symm
  rw [List.filter_map, List.map_map, List.map_map]
  exact hrows.map _

/-- A node sends the backends of a module, and the routes to all modules, as writes have left them:
every row once and in order. Both tell the same of a module, and the texts do not depend on how the
rows came to be unless two rows have the same place in the order. -/
theorem snapshots_faithful {ws : List BackendWrite} {w : World} {n : Nat} {l : Limits}
    (hw : w.ShowsWrites ws) :
    ((Tables.built ws).backends.Pairwise (·.connectionId ≠ ·.connectionId) ∧
      ∀ b, b ∈ (Tables.built ws).backends ↔ BackendWrite.left ws b.connectionId = some b) ∧
    ∃ (snapshot : ModuleId → BackendsSnapshot) (routes : List RouteEntry),
      (∀ m, w.Sends n l (.backends m) (encode (snapshot m)) ∧
        decode BackendsSnapshot (encode (snapshot m)) = .ok (snapshot m) ∧
        (snapshot m).moduleId = m ∧
        (snapshot m).backends.Perm
          (((Tables.built ws).backends.filter (·.moduleId = m)).map .ofBackend) ∧
        (snapshot m).backends.Pairwise fun a b => Bytes.ofText a.address ≤ Bytes.ofText b.address) ∧
      (w.Sends n l .routing (encode routes) ∧
        decode (List RouteEntry) (encode routes) = .ok routes ∧
        routes.Perm ((Tables.built ws).backends.map .ofBackend) ∧
        routes.Pairwise RouteEntry.Before) ∧
      (∀ m, ((routes.filter (·.moduleId = m)).map fun r => (r.address, r.version, r.endpoints)).Perm
        ((snapshot m).backends.map fun b => (b.address, b.version, b.endpoints))) ∧
      ∀ (ws' : List BackendWrite) (w' : World) (n' : Nat) (l' : Limits), w'.ShowsWrites ws' →
        BackendWrite.left ws' = BackendWrite.left ws →
        (∀ m, (Tables.built ws).DistinctAddresses m →
          w'.Sends n' l' (.backends m) (encode (snapshot m))) ∧
        ((Tables.built ws).DistinctRoutes → w'.Sends n' l' .routing (encode routes)) := by
  refine ⟨Tables.built_rows ws, fun m => .ofBackends m ((Tables.built ws).backendsByModule m),
    (Tables.built ws).allBackends.map .ofBackend, fun m => ?_, ?_, fun m => ?_, ?_⟩
  · exact ⟨hw.sends_backends m, snapshot_faithful.returns _ trivial trivial, rfl,
      ((Tables.built ws).backendsByModule_perm m).map _, Tables.addresses_ordered m _⟩
  · exact ⟨hw.sends_routes, routes_faithful.returns _ trivial trivial,
      (Tables.built ws).allBackends_perm.map _, Tables.routes_ordered _⟩
  · exact Tables.routes_agree m _
  · intro ws' w' n' l' hw' hleft
    have hperm := Tables.built_perm hleft
    refine ⟨fun m hties => ?_, fun hties => ?_⟩
    · have hsends := hw'.sends_backends (n := n') (l := l') m
      rw [Tables.backendsByModule_unique hperm hties] at hsends
      exact hsends
    · have hsends := hw'.sends_routes (n := n') (l := l')
      rw [Tables.allBackends_unique hperm hties] at hsends
      exact hsends

/-- A backend at an address. -/
def backendAt (conn address : String) : Backend :=
  { (default : Backend) with connectionId := ⟨conn⟩, address := address }

/-- Two backends of one module; the first one was deleted and inserted again. -/
def rewritten : List BackendWrite :=
  [.insert (backendAt "c1" "10.0.0.2:1"), .insert (backendAt "c2" "10.0.0.10:1"), .delete ⟨"c1"⟩,
    .insert (backendAt "c1" "10.0.0.2:1")]

/-- The text is the one of the backends inserted once, and it reaches a subscriber. -/
theorem rewritten_rows_sent :
    ∃ s : BackendsSnapshot, s.addresses.Perm ["10.0.0.10:1", "10.0.0.2:1"] ∧
      decode BackendsSnapshot (encode s) = .ok s ∧
      ((World.initial default).write (Tables.built rewritten)).Sends 0 ⟨2000, 2000⟩ (.backends default)
        (encode s) ∧
      ((World.initial default).write (Tables.built (rewritten.take 2))).Sends 0 ⟨2000, 2000⟩
        (.backends default) (encode s) ∧
      ∃ v, ((World.initial default).write (Tables.built rewritten)).run 0
          (Notification.subscribe ⟨2000, 2000⟩ ⟨0, ⟨"c3"⟩⟩ (.backends default)).outcome =
            .finished v (.ok ()) ∧
        v.deliveries = [⟨⟨0, ⟨"c3"⟩⟩, Notification.backendsMessage, encode s⟩] := by
  have hshows : ∀ ws, ((World.initial default).write (Tables.built ws)).ShowsWrites ws :=
    fun ws => ⟨⟨rfl, rfl⟩, rfl, rfl⟩
  have hleft : BackendWrite.left (rewritten.take 2) = BackendWrite.left rewritten := by
    funext c
    simp only [BackendWrite.left, rewritten, List.take, List.foldl, BackendWrite.leaves, backendAt]
    by_cases hc : c = ⟨"c1"⟩
    · subst hc
      rfl
    · simp [hc]
  have hmem : ∀ b ∈ (Tables.built rewritten).backends,
      b = backendAt "c2" "10.0.0.10:1" ∨ b = backendAt "c1" "10.0.0.2:1" := by
    intro b hb
    have hlist : b ∈ [backendAt "c2" "10.0.0.10:1", backendAt "c1" "10.0.0.2:1"] := hb
    simpa using hlist
  have hties : (Tables.built rewritten).DistinctAddresses default := by
    intro a ha b hb _ _ he
    rcases hmem a ha with rfl | rfl <;> rcases hmem b hb with rfl | rfl
    · rfl
    · exact absurd he (by decide)
    · exact absurd he (by decide)
    · rfl
  obtain ⟨-, snapshot, routes, hbackends, -, -, hcanonical⟩ :=
    snapshots_faithful (n := 0) (l := ⟨2000, 2000⟩) (hshows rewritten)
  obtain ⟨hsends, hdecode, -, hrows, -⟩ := hbackends default
  refine ⟨snapshot default, ?_, hdecode, hsends,
    (hcanonical _ _ 0 ⟨2000, 2000⟩ (hshows _) hleft).1 default hties,
    _, hsends.subscribes ⟨0, ⟨"c3"⟩⟩ rfl, rfl⟩
  exact hrows.map (·.address)

end ConfigRegistry
