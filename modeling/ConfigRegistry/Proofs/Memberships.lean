import ConfigRegistry.Proofs.Fanouts
import Mathlib.Data.Finset.Card
import Mathlib.Data.Finset.Image

/-!
# Rooms are a relation

The sessions and the rooms of a node are two tables that must agree. Whatever connections do,
the tables stand for a set of registered ids and a plain relation between rooms and ids
(`RoomIndex.Stands`), and nothing else can be seen of them: every answer and every count is that
of the relation (`RoomIndex.behaves_as_relation`).
-/

namespace ConfigRegistry

/-- What connections do to the rooms of a node. -/
inductive RoomChange where
  | register (s : Session)
  | unregister (c : ConnectionId)
  | join (r : Room) (c : ConnectionId)
  | leave (r : Room) (c : ConnectionId)

/-- What is answered to changes made one after the other, and the state behind the last one. -/
def RoomChange.play {σ : Type} (step : RoomChange → σ → Option Bool × σ) :
    List RoomChange → σ → List (Option Bool) × σ
  | [], a => ([], a)
  | i :: rest, a =>
    let (answer, a) := step i a
    let (answers, a) := play step rest a
    (answer :: answers, a)

/-! ## The relation -/

/-- The registered ids, the session that registered last under an id, and who is in which room. -/
structure Membership where
  registered : Finset ConnectionId
  session : ConnectionId → Session
  related : Finset (Room × ConnectionId)

namespace Membership

/-- Nobody is registered. -/
def empty : Membership := ⟨∅, default, ∅⟩

/-- The ids in a room. -/
def idsIn (r : Room) (m : Membership) : Finset ConnectionId :=
  (m.related.filter (·.1 = r)).image Prod.snd

/-- The rooms with somebody in them. -/
def rooms (m : Membership) : Finset Room := m.related.image Prod.fst

/-- Registering has no answer; leaving tells whether the id was in the room, the others whether it
was registered. Only a registered id joins a room, and one that unregisters is in none. -/
def step : RoomChange → Membership → Option Bool × Membership
  | .register s, m => (none,
      { m with registered := insert s.conn m.registered, session := Function.update m.session s.conn s })
  | .unregister c, m => (some (c ∈ m.registered),
      { m with registered := m.registered.erase c, related := m.related.filter (·.2 ≠ c) })
  | .join r c, m => (some (c ∈ m.registered),
      { m with related := if c ∈ m.registered then insert (r, c) m.related else m.related })
  | .leave r c, m => (some ((r, c) ∈ m.related), { m with related := m.related.erase (r, c) })

@[simp] theorem mem_idsIn {m : Membership} {r : Room} {c : ConnectionId} :
    c ∈ m.idsIn r ↔ (r, c) ∈ m.related := by
  simp [idsIn]

@[simp] theorem mem_rooms {m : Membership} {r : Room} : r ∈ m.rooms ↔ ∃ c, (r, c) ∈ m.related := by
  simp [rooms]

end Membership

namespace RoomIndex

variable {x : RoomIndex} {m : Membership} {r r' : Room} {c c' : ConnectionId} {s : Session}

/-- A change with its answer. -/
def step : RoomChange → RoomIndex → Option Bool × RoomIndex
  | .register s, x => (none, x.register s)
  | .unregister c, x => (x.unregister c).map some id
  | .join r c, x => (x.join r c).map some id
  | .leave r c, x => (x.leave r c).map some id

/-! ## What the tables stand for -/

/-- The tables are sound and hold what the relation says. -/
structure Stands (x : RoomIndex) (m : Membership) : Prop where
  sound : x.Sound
  distinct : x.Distinct
  session : ∀ c, x.session? c = if c ∈ m.registered then some (m.session c) else none
  idsIn : ∀ r c, c ∈ x.idsIn r ↔ (r, c) ∈ m.related

theorem isConnected_eq_isSome (x : RoomIndex) (c : ConnectionId) :
    x.isConnected c = (x.session? c).isSome := by
  rw [isConnected, session?, Table.find?, List.isSome_find?]

theorem Stands.isConnected (h : x.Stands m) (c : ConnectionId) :
    x.isConnected c = decide (c ∈ m.registered) := by
  rw [isConnected_eq_isSome, h.session]
  split <;> simp [*]

theorem Stands.isMember (h : x.Stands m) (r : Room) (c : ConnectionId) :
    x.isMember r c = decide ((r, c) ∈ m.related) := by
  rw [RoomIndex.isMember, List.contains_eq_mem, decide_eq_decide]
  exact h.idsIn r c

theorem stands_empty : RoomIndex.empty.Stands .empty where
  sound := empty_sound
  distinct := fun _ => List.nodup_nil
  session := fun _ => rfl
  idsIn := fun _ _ => by simp [RoomIndex.idsIn, RoomIndex.empty, Membership.empty, Table.find?]

/-! ## Changes -/

theorem Stands.register (h : x.Stands m) (s : Session) :
    (x.register s).Stands (m.step (.register s)).2 where
  sound := register_sound h.sound s
  distinct := h.distinct
  session := by
    intro c
    by_cases hc : c = s.conn
    · subst hc
      exact (Table.find?_put Session.conn s x.sessions).trans (by simp [Membership.step])
    · refine (Table.find?_put_ne hc).trans ((h.session c).trans ?_)
      simp [Membership.step, hc]
  idsIn := h.idsIn

theorem mem_idsIn_unregister (h : x.Sound) :
    c' ∈ (x.unregister c).2.idsIn r ↔ c' ∈ x.idsIn r ∧ c' ≠ c := by
  rw [mem_idsIn (unregister_sound h c), mem_idsIn h]
  constructor
  · rintro ⟨ids, hm, hc'⟩
    obtain ⟨-, old, hold, rfl⟩ := mem_unregister_rooms.mp hm
    obtain ⟨hin, hne⟩ := List.mem_filter.mp hc'
    exact ⟨⟨old, hold, hin⟩, of_decide_eq_true hne⟩
  · rintro ⟨⟨old, hold, hin⟩, hne⟩
    have hleft : c' ∈ old.filter (· ≠ c) := List.mem_filter.mpr ⟨hin, decide_eq_true hne⟩
    exact ⟨_, mem_unregister_rooms.mpr ⟨List.ne_nil_of_mem hleft, old, hold, rfl⟩, hleft⟩

theorem Stands.unregister (h : x.Stands m) (c : ConnectionId) :
    (x.unregister c).2.Stands (m.step (.unregister c)).2 where
  sound := unregister_sound h.sound c
  distinct := distinct_unregister h.sound h.distinct c
  session := by
    intro c'
    by_cases hc : c' = c
    · subst hc
      exact (Table.find?_erase c' x.sessions).trans (by simp [Membership.step])
    · refine (Table.find?_erase_ne hc).trans ((h.session c').trans ?_)
      simp [Membership.step, hc]
  idsIn := by
    intro r c'
    rw [mem_idsIn_unregister h.sound, h.idsIn]
    simp [Membership.step]

theorem Stands.join (h : x.Stands m) (r : Room) (c : ConnectionId) :
    (x.join r c).2.Stands (m.step (.join r c)).2 where
  sound := join_sound h.sound r c
  distinct := distinct_join h.distinct r c
  session := by
    intro c'
    rw [session?, join_sessions]
    exact h.session c'
  idsIn := by
    intro r' c'
    have hc : x.isConnected c = true ↔ c ∈ m.registered := by
      rw [h.isConnected, decide_eq_true_iff]
    have hrelated : (r', c') ∈ (m.step (.join r c)).2.related ↔
        (r', c') ∈ m.related ∨ c ∈ m.registered ∧ r' = r ∧ c' = c := by
      by_cases hreg : c ∈ m.registered <;> simp [Membership.step, hreg, or_comm]
    rw [hrelated, ← h.idsIn, ← hc, idsIn_join]
    -- who is in already is not added again
    split
    · rename_i hnew
      simp [hnew.1, hnew.2.1]
    · rename_i hold
      constructor
      · exact .inl
      · rintro (hin | ⟨hreg, rfl, rfl⟩)
        · exact hin
        · exact Decidable.not_not.mp fun hout => hold ⟨rfl, hreg, hout⟩

theorem Stands.leave (h : x.Stands m) (r : Room) (c : ConnectionId) :
    (x.leave r c).2.Stands (m.step (.leave r c)).2 where
  sound := leave_sound h.sound r c
  distinct := distinct_leave h.distinct r c
  session := h.session
  idsIn := by
    intro r' c'
    rw [RoomIndex.leave, idsIn_setIds]
    by_cases hr : r' = r
    · subst hr
      simp [Membership.step, h.idsIn, and_comm]
    · simp [Membership.step, h.idsIn, hr]

/-- A change has the answer of the relation, and the tables go on standing for it. -/
theorem Stands.step (h : x.Stands m) (i : RoomChange) :
    (x.step i).1 = (m.step i).1 ∧ (x.step i).2.Stands (m.step i).2 := by
  cases i with
  | register s => exact ⟨rfl, h.register s⟩
  | unregister c => exact ⟨congrArg some (h.isConnected c), h.unregister c⟩
  | join r c =>
    have hanswer : (x.join r c).1 = x.isConnected c := by
      unfold RoomIndex.join
      split <;> simp [*]
    exact ⟨congrArg some (hanswer.trans (h.isConnected c)), h.join r c⟩
  | leave r c => exact ⟨congrArg some (h.isMember r c), h.leave r c⟩

theorem Stands.play (h : x.Stands m) (is : List RoomChange) :
    (RoomChange.play RoomIndex.step is x).1 = (RoomChange.play Membership.step is m).1 ∧
      (RoomChange.play RoomIndex.step is x).2.Stands (RoomChange.play Membership.step is m).2 := by
  induction is generalizing x m with
  | nil => exact ⟨rfl, h⟩
  | cons i rest ih =>
    obtain ⟨hanswer, hnext⟩ := h.step i
    obtain ⟨hanswers, hlast⟩ := ih hnext
    exact ⟨congrArg₂ List.cons hanswer hanswers, hlast⟩

/-! ## What can be seen -/

theorem Stands.members (h : x.Stands m) (r : Room) :
    (x.members r : Multiset Session) = (m.idsIn r).val.map m.session := by
  have hids : (x.idsIn r : Multiset ConnectionId) = (m.idsIn r).val := by
    have hnodup := Multiset.coe_nodup.mpr (h.distinct r)
    refine (Multiset.Nodup.ext hnodup (m.idsIn r).nodup).mpr fun c => ?_
    rw [Multiset.mem_coe, h.idsIn, Finset.mem_val, Membership.mem_idsIn]
  have hsession : ∀ c ∈ x.idsIn r, x.session? c = some (m.session c) := by
    intro c hc
    have hconnected := h.sound.connected _ (mem_rooms_of_mem_idsIn hc) c hc
    rw [h.isConnected, decide_eq_true_iff] at hconnected
    rw [h.session, if_pos hconnected]
  rw [← hids, RoomIndex.members, List.filterMap_congr hsession, List.filterMap_eq_map',
    Multiset.map_coe]

theorem Stands.connectionCount (h : x.Stands m) : x.connectionCount = m.registered.card := by
  have hnodup : (x.sessions.map Session.conn).Nodup := List.pairwise_map.mpr h.sound.sessions
  have hset : (x.sessions.map Session.conn).toFinset = m.registered := by
    ext c
    rw [List.mem_toFinset, List.mem_map, ← isConnected_iff, h.isConnected, decide_eq_true_iff]
  rw [← hset, List.toFinset_card_of_nodup hnodup, List.length_map]
  rfl

theorem Stands.roomCount (h : x.Stands m) : x.roomCount = m.rooms.card := by
  have hnodup : (x.rooms.map Prod.fst).Nodup := List.pairwise_map.mpr h.sound.keyed
  have hset : (x.rooms.map Prod.fst).toFinset = m.rooms := by
    ext r
    simp only [List.mem_toFinset, List.mem_map, Membership.mem_rooms, ← h.idsIn]
    constructor
    · rintro ⟨⟨r, ids⟩, hm, rfl⟩
      obtain ⟨c, hc⟩ := List.exists_mem_of_ne_nil ids (h.sound.nonempty _ hm)
      exact ⟨c, (mem_idsIn h.sound).mpr ⟨ids, hm, hc⟩⟩
    · rintro ⟨c, hc⟩
      exact ⟨_, mem_rooms_of_mem_idsIn hc, rfl⟩
  rw [← hset, List.toFinset_card_of_nodup hnodup, List.length_map]
  rfl

/-- All that can be seen of the rooms of a node is what a relation says, in which only registered
ids are; a room without members is not kept. -/
structure Shows (x : RoomIndex) (m : Membership) : Prop where
  isConnected : ∀ c, x.isConnected c = decide (c ∈ m.registered)
  isMember : ∀ r c, x.isMember r c = decide ((r, c) ∈ m.related)
  members : ∀ r, (x.members r : Multiset Session) = (m.idsIn r).val.map m.session
  connectionCount : x.connectionCount = m.registered.card
  roomCount : x.roomCount = m.rooms.card
  registered : ∀ r c, (r, c) ∈ m.related → c ∈ m.registered
  nonempty : ∀ room ∈ x.rooms, room.2 ≠ []

theorem Stands.shows (h : x.Stands m) : x.Shows m where
  isConnected := h.isConnected
  isMember := h.isMember
  members := h.members
  connectionCount := h.connectionCount
  roomCount := h.roomCount
  registered := by
    intro r c hc
    have hin := (h.idsIn r c).mpr hc
    have hconnected := h.sound.connected _ (mem_rooms_of_mem_idsIn hin) c hin
    rwa [h.isConnected, decide_eq_true_iff] at hconnected
  nonempty := h.sound.nonempty

/-- Whatever connections do, every answer is that of the relation, and so is all that can be seen
afterwards. -/
theorem behaves_as_relation (is : List RoomChange) :
    let tables := RoomChange.play RoomIndex.step is RoomIndex.empty
    let relation := RoomChange.play Membership.step is Membership.empty
    tables.1 = relation.1 ∧ tables.2.Shows relation.2 :=
  ⟨(stands_empty.play is).1, (stands_empty.play is).2.shows⟩

end RoomIndex

end ConfigRegistry
