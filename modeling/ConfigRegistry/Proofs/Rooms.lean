import ConfigRegistry.Proofs.Cluster

/-!
# Rooms stay sound

The rooms of a node have distinct names and members, and only registered connections
are in them (`RoomIndex.Sound`). Registering, unregistering, joining and leaving keep
this, so it holds of every node in every run, and who is in a room after such a change is
read off the members before it.
-/

namespace ConfigRegistry

/-! ## Keyed lists -/

namespace Table

/-- Two rows of one key are one row. -/
theorem keyed_unique {α κ : Type} {key : α → κ} {rows : List α}
    (h : rows.Pairwise (key · ≠ key ·)) {a b : α} (ha : a ∈ rows) (hb : b ∈ rows)
    (hk : key a = key b) : a = b := by
  induction rows with
  | nil => simp at ha
  | cons r rest ih =>
    obtain ⟨hr, hrest⟩ := List.pairwise_cons.mp h
    rcases List.mem_cons.mp ha with rfl | ha' <;> rcases List.mem_cons.mp hb with rfl | hb'
    · rfl
    · exact absurd hk (hr b hb')
    · exact absurd hk.symm (hr a ha')
    · exact ih hrest ha' hb'

variable {α κ : Type} [DecidableEq κ] {key : α → κ} {rows : List α}

theorem keyed_put (h : rows.Pairwise (key · ≠ key ·)) (row : α) :
    (put key row rows).Pairwise (key · ≠ key ·) := by
  refine List.pairwise_append.mpr ⟨h.filter _, List.pairwise_singleton _ _, fun a ha b hb => ?_⟩
  obtain rfl := List.mem_singleton.mp hb
  exact (mem_erase.mp ha).2

/-- A row of a new key comes last. -/
theorem put_fresh {row : α} (h : ∀ r ∈ rows, key r ≠ key row) : put key row rows = rows ++ [row] := by
  unfold put
  congr 1
  exact List.filter_eq_self.mpr fun r hr => decide_eq_true (h r hr)

theorem find?_erase (k : κ) (rows : List α) : find? key k (erase key k rows) = none :=
  List.find?_eq_none.mpr fun _ hr => by simpa using (mem_erase.mp hr).2

theorem find?_erase_ne {k k' : κ} (hk : k ≠ k') :
    find? key k (erase key k' rows) = find? key k rows := by
  unfold find? erase
  rw [List.find?_filter]
  congr 1
  funext r
  by_cases hr : key r = k
  · simp [hr, hk]
  · simp [hr]

/-- Rows of other keys are found as before. -/
theorem find?_put_ne {row : α} {k : κ} (hk : k ≠ key row) :
    find? key k (put key row rows) = find? key k rows := by
  have herase : find? key k (erase key (key row) rows) = find? key k rows := find?_erase_ne hk
  unfold put
  unfold find? at herase ⊢
  rw [List.find?_append, herase, List.find?_singleton]
  simp [Ne.symm hk]

/-- Rows of other keys stay. -/
theorem erase_put (row : α) (rows : List α) :
    erase key (key row) (put key row rows) = erase key (key row) rows := by
  unfold put
  simp [erase]

/-- A row that was put is the only one of its key. -/
theorem filter_put (row : α) (rows : List α) :
    (put key row rows).filter (fun r => key r = key row) = [row] := by
  unfold put
  simp [erase, List.filter_append]

theorem keyed_erase (h : rows.Pairwise (key · ≠ key ·)) (k : κ) :
    (erase key k rows).Pairwise (key · ≠ key ·) := h.filter _

/-- The row of a key is the only one of it. -/
theorem filter_key (h : rows.Pairwise (key · ≠ key ·)) {r : α} (hr : r ∈ rows) :
    rows.filter (fun a => key a = key r) = [r] := by
  induction rows with
  | nil => cases hr
  | cons a rest ih =>
    obtain ⟨ha, hrest⟩ := List.pairwise_cons.mp h
    rcases List.mem_cons.mp hr with rfl | hr'
    · have hnone : rest.filter (fun a => key a = key r) = [] :=
        List.filter_eq_nil_iff.mpr fun b hb => by simpa using (ha b hb).symm
      rw [List.filter_cons_of_pos (by simp), hnone]
    · rw [List.filter_cons_of_neg (by simpa using ha r hr'), ih hrest hr']

theorem find?_some {k : κ} {r : α} (h : find? key k rows = some r) : r ∈ rows ∧ key r = k := by
  refine ⟨List.mem_of_find?_eq_some h, ?_⟩
  simpa using List.find?_some h

theorem find?_of_mem (h : rows.Pairwise (key · ≠ key ·)) {r : α} (hr : r ∈ rows) :
    find? key (key r) rows = some r := by
  cases hf : find? key (key r) rows with
  | none =>
    have hnone := List.find?_eq_none.mp hf r hr
    simp at hnone
  | some r' =>
    obtain ⟨hr', hk⟩ := find?_some hf
    rw [keyed_unique h hr' hr hk]

end Table

namespace RoomIndex

variable {x : RoomIndex} {r r' : Room} {c : ConnectionId} {s s' : Session}

/-- Sessions and rooms have distinct names, rooms have members, and these are registered. -/
structure Sound (x : RoomIndex) : Prop where
  sessions : x.sessions.Pairwise (Session.conn · ≠ Session.conn ·)
  keyed : x.rooms.Pairwise (Prod.fst · ≠ Prod.fst ·)
  nonempty : ∀ m ∈ x.rooms, m.2 ≠ []
  connected : ∀ m ∈ x.rooms, ∀ c ∈ m.2, x.isConnected c = true

theorem isConnected_iff : x.isConnected c = true ↔ ∃ s ∈ x.sessions, s.conn = c := by
  simp [isConnected]

theorem empty_sound : empty.Sound := ⟨.nil, .nil, nofun, nofun⟩

theorem mem_idsIn (h : x.Sound) : c ∈ x.idsIn r ↔ ∃ ids, (r, ids) ∈ x.rooms ∧ c ∈ ids := by
  unfold idsIn
  constructor
  · intro hc
    cases hf : Table.find? Prod.fst r x.rooms with
    | none => simp [hf] at hc
    | some m =>
      obtain ⟨hm, rfl⟩ := Table.find?_some hf
      exact ⟨m.2, hm, by simpa [hf] using hc⟩
  · rintro ⟨ids, hm, hc⟩
    have hf := Table.find?_of_mem h.keyed hm
    rw [hf]
    exact hc

/-- The members of a room are the registered sessions whose ids are in it. -/
theorem mem_members (h : x.Sound) :
    s ∈ x.members r ↔ s ∈ x.sessions ∧ ∃ ids, (r, ids) ∈ x.rooms ∧ s.conn ∈ ids := by
  unfold members
  rw [List.mem_filterMap]
  constructor
  · rintro ⟨c, hc, hf⟩
    obtain ⟨hs, rfl⟩ := Table.find?_some hf
    exact ⟨hs, (mem_idsIn h).mp hc⟩
  · rintro ⟨hs, hids⟩
    exact ⟨s.conn, (mem_idsIn h).mpr hids, Table.find?_of_mem h.sessions hs⟩

/-! ## Registering -/

theorem register_sound (h : x.Sound) (s : Session) : (x.register s).Sound where
  sessions := Table.keyed_put h.sessions s
  keyed := h.keyed
  nonempty := h.nonempty
  connected := by
    intro m hm c hc
    obtain ⟨s', hs', rfl⟩ := isConnected_iff.mp (h.connected m hm c hc)
    refine isConnected_iff.mpr ?_
    by_cases hconn : s'.conn = s.conn
    · exact ⟨s, Table.mem_put.mpr (.inr rfl), hconn.symm⟩
    · exact ⟨s', Table.mem_put.mpr (.inl ⟨hs', hconn⟩), rfl⟩

/-- A connection whose id is new is in no room after it registered. -/
theorem members_register (h : x.Sound) (hnew : x.isConnected s.conn = false)
    (hs : s' ∈ (x.register s).members r) : s' ∈ x.members r := by
  obtain ⟨hs', ids, hm, hin⟩ := (mem_members (register_sound h s)).mp hs
  refine (mem_members h).mpr ⟨?_, ids, hm, hin⟩
  rcases Table.mem_put.mp hs' with ⟨hold, -⟩ | rfl
  · exact hold
  · have hconn := h.connected _ hm _ hin
    rw [hnew] at hconn
    cases hconn

/-- Members stay when another connection registers. -/
theorem members_register_of (h : x.Sound) (hc : s'.conn ≠ s.conn) (hs : s' ∈ x.members r) :
    s' ∈ (x.register s).members r := by
  obtain ⟨hs', ids, hm, hin⟩ := (mem_members h).mp hs
  exact (mem_members (register_sound h s)).mpr ⟨Table.mem_put.mpr (.inl ⟨hs', hc⟩), ids, hm, hin⟩

/-! ## Unregistering -/

theorem mem_unregister_rooms {ids : List ConnectionId} :
    (r, ids) ∈ (x.unregister c).2.rooms ↔
      ids ≠ [] ∧ ∃ old, (r, old) ∈ x.rooms ∧ ids = old.filter (· ≠ c) := by
  unfold unregister
  simp only [List.mem_filterMap]
  constructor
  · rintro ⟨⟨r', old⟩, hm, hif⟩
    by_cases he : (old.filter (· ≠ c)).isEmpty
    · simp only [he, ↓reduceIte, reduceCtorEq] at hif
    · simp only [he, Bool.false_eq_true, ↓reduceIte, Option.some.injEq, Prod.mk.injEq] at hif
      obtain ⟨rfl, rfl⟩ := hif
      exact ⟨by simpa using he, old, hm, rfl⟩
  · rintro ⟨hne, old, hm, rfl⟩
    refine ⟨(r, old), hm, ?_⟩
    simp only [List.isEmpty_iff, hne, ↓reduceIte]

theorem unregister_sound (h : x.Sound) (c : ConnectionId) : (x.unregister c).2.Sound where
  sessions := Table.keyed_erase h.sessions c
  keyed := by
    refine List.Pairwise.filterMap _ ?_ h.keyed
    have hname : ∀ (m y : Room × List ConnectionId), (if (m.2.filter (· ≠ c)).isEmpty then none
        else some (m.1, m.2.filter (· ≠ c))) = some y → m.1 = y.1 := by
      rintro ⟨r, ids⟩ y hy
      by_cases he : (ids.filter (· ≠ c)).isEmpty
      · simp only [he, ↓reduceIte, reduceCtorEq] at hy
      · simp only [he, Bool.false_eq_true, ↓reduceIte, Option.some.injEq] at hy
        exact hy ▸ rfl
    intro m m' hne y hy y' hy'
    rw [← hname m y hy, ← hname m' y' hy']
    exact hne
  nonempty := by
    rintro ⟨r, ids⟩ hm
    exact (mem_unregister_rooms.mp hm).1
  connected := by
    rintro ⟨r, ids⟩ hm c' hc'
    obtain ⟨-, old, hold, rfl⟩ := mem_unregister_rooms.mp hm
    obtain ⟨hin, hne⟩ := List.mem_filter.mp hc'
    obtain ⟨s, hs, rfl⟩ := isConnected_iff.mp (h.connected _ hold c' hin)
    exact isConnected_iff.mpr ⟨s, Table.mem_erase.mpr ⟨hs, of_decide_eq_true hne⟩, rfl⟩

theorem members_unregister (h : x.Sound) (hs : s ∈ (x.unregister c).2.members r) :
    s ∈ x.members r ∧ s.conn ≠ c := by
  obtain ⟨hs', ids, hm, hin⟩ := (mem_members (unregister_sound h c)).mp hs
  obtain ⟨-, old, hold, rfl⟩ := mem_unregister_rooms.mp hm
  obtain ⟨hsession, hne⟩ := Table.mem_erase.mp hs'
  exact ⟨(mem_members h).mpr ⟨hsession, old, hold, (List.mem_filter.mp hin).1⟩, hne⟩

/-- Members stay when another connection unregisters. -/
theorem members_unregister_of (h : x.Sound) (hc : s.conn ≠ c) (hs : s ∈ x.members r) :
    s ∈ (x.unregister c).2.members r := by
  obtain ⟨hs', ids, hm, hin⟩ := (mem_members h).mp hs
  have hleft : s.conn ∈ ids.filter (· ≠ c) := List.mem_filter.mpr ⟨hin, decide_eq_true hc⟩
  refine (mem_members (unregister_sound h c)).mpr ⟨Table.mem_erase.mpr ⟨hs', hc⟩, _, ?_, hleft⟩
  exact mem_unregister_rooms.mpr ⟨List.ne_nil_of_mem hleft, ids, hm, rfl⟩

theorem filterMap_self {α : Type} {f : α → Option α} {xs : List α} (h : ∀ a ∈ xs, f a = some a) :
    xs.filterMap f = xs := by
  induction xs with
  | nil => rfl
  | cons a rest ih =>
    rw [List.filterMap_cons, h a List.mem_cons_self, ih fun b hb => h b (List.mem_cons_of_mem a hb)]

/-- Unregistering a connection that is not registered changes nothing. -/
theorem unregister_idle (h : x.Sound) (hc : x.isConnected c = false) : (x.unregister c).2 = x := by
  have hsessions : Table.erase Session.conn c x.sessions = x.sessions := by
    refine List.filter_eq_self.mpr fun s hs => decide_eq_true ?_
    rintro rfl
    rw [isConnected_iff.mpr ⟨s, hs, rfl⟩] at hc
    cases hc
  have hrooms : ∀ m ∈ x.rooms, (if (m.2.filter (· ≠ c)).isEmpty then none
      else some (m.1, m.2.filter (· ≠ c))) = some m := by
    rintro ⟨r, ids⟩ hm
    have hids : ids.filter (· ≠ c) = ids := by
      refine List.filter_eq_self.mpr fun c' hc' => decide_eq_true ?_
      rintro rfl
      rw [h.connected _ hm _ hc'] at hc
      cases hc
    have hne : ids ≠ [] := h.nonempty _ hm
    simp only [hids, List.isEmpty_iff, hne, ↓reduceIte]
  unfold unregister
  rw [hsessions]
  change RoomIndex.mk x.sessions (x.rooms.filterMap _) = x
  congr 1
  exact filterMap_self hrooms

/-! ## Joining -/

theorem mem_join_rooms {ids : List ConnectionId} (hc : x.isConnected c = true)
    (hm : (r, ids) ∈ (x.join r' c).2.rooms) :
    (r, ids) ∈ x.rooms ∨ r = r' ∧ ids = x.idsIn r' ++ [c] := by
  unfold join at hm
  simp only [hc, ↓reduceIte] at hm
  by_cases hin : (x.idsIn r').contains c
  · simp only [hin, ↓reduceIte] at hm
    exact .inl hm
  · simp only [hin, Bool.false_eq_true, ↓reduceIte, setIds, List.isEmpty_iff, List.append_eq_nil_iff,
      List.cons_ne_self, and_false] at hm
    rcases Table.mem_put.mp hm with ⟨hm, -⟩ | heq
    · exact .inl hm
    · exact .inr (Prod.mk.injEq .. ▸ heq)

theorem mem_idsIn_join (h : x.Sound) {ids : List ConnectionId}
    (hm : (r, ids) ∈ (x.join r' c).2.rooms) {c' : ConnectionId} (hc' : c' ∈ ids) :
    (∃ old, (r, old) ∈ x.rooms ∧ c' ∈ old) ∨ r = r' ∧ c' = c ∧ x.isConnected c = true := by
  by_cases hc : x.isConnected c
  · rcases mem_join_rooms hc hm with hm | ⟨rfl, rfl⟩
    · exact .inl ⟨ids, hm, hc'⟩
    · rcases List.mem_append.mp hc' with hin | hin
      · exact .inl ((mem_idsIn h).mp hin)
      · exact .inr ⟨rfl, List.mem_singleton.mp hin, hc⟩
  · simp only [join, hc, Bool.false_eq_true, ↓reduceIte] at hm
    exact .inl ⟨ids, hm, hc'⟩

theorem join_sessions (r : Room) (c : ConnectionId) (x : RoomIndex) :
    (x.join r c).2.sessions = x.sessions := by
  unfold join setIds
  split
  · dsimp only
    split <;> rfl
  · rfl

theorem join_sound (h : x.Sound) (r : Room) (c : ConnectionId) : (x.join r c).2.Sound where
  sessions := (join_sessions r c x).symm ▸ h.sessions
  keyed := by
    unfold join
    by_cases hc : x.isConnected c
    · simp only [hc, ↓reduceIte]
      split
      · exact h.keyed
      · simp only [setIds, List.isEmpty_iff, List.append_eq_nil_iff, List.cons_ne_self, and_false,
          ↓reduceIte]
        exact Table.keyed_put h.keyed _
    · simp only [hc, Bool.false_eq_true, ↓reduceIte]
      exact h.keyed
  nonempty := by
    rintro ⟨r', ids⟩ hm
    by_cases hc : x.isConnected c
    · rcases mem_join_rooms hc hm with hm | ⟨-, rfl⟩
      · exact h.nonempty _ hm
      · simp
    · simp only [join, hc, Bool.false_eq_true, ↓reduceIte] at hm
      exact h.nonempty _ hm
  connected := by
    rintro ⟨r', ids⟩ hm c' hc'
    unfold isConnected
    rw [join_sessions]
    rcases mem_idsIn_join h hm hc' with ⟨old, hold, hin⟩ | ⟨-, rfl, hc⟩
    · exact h.connected _ hold c' hin
    · exact hc

/-- A join adds the registered session of the connection to the room, and nobody else. -/
theorem members_join (h : x.Sound) (hs : s ∈ (x.join r' c).2.members r) :
    s ∈ x.members r ∨ r = r' ∧ s.conn = c ∧ s ∈ x.sessions := by
  obtain ⟨hsession, ids, hm, hin⟩ := (mem_members (join_sound h r' c)).mp hs
  rw [join_sessions] at hsession
  rcases mem_idsIn_join h hm hin with hold | ⟨hr, hc, -⟩
  · exact .inl ((mem_members h).mpr ⟨hsession, hold⟩)
  · exact .inr ⟨hr, hc, hsession⟩

theorem idsIn_put (ids : List ConnectionId) :
    (⟨x.sessions, Table.put Prod.fst (r', ids) x.rooms⟩ : RoomIndex).idsIn r =
      if r = r' then ids else x.idsIn r := by
  unfold idsIn
  by_cases hr : r = r'
  · rw [if_pos hr, hr, Table.find?_put Prod.fst (r', ids) x.rooms]
    rfl
  · rw [if_neg hr, Table.find?_put_ne hr]

/-- Who is in a room after a join: the connection is added where it is registered and not yet in. -/
theorem idsIn_join : (x.join r' c).2.idsIn r =
    if r = r' ∧ x.isConnected c = true ∧ c ∉ x.idsIn r then x.idsIn r ++ [c] else x.idsIn r := by
  unfold join
  by_cases hc : x.isConnected c
  · by_cases hin : c ∈ x.idsIn r'
    · simp only [hc, ↓reduceIte, List.contains_iff_mem, hin]
      rw [if_neg]
      rintro ⟨rfl, -, hout⟩
      exact hout hin
    · simp only [hc, ↓reduceIte, List.contains_iff_mem, hin, setIds, List.isEmpty_iff,
        List.append_eq_nil_iff, List.cons_ne_self, and_false, idsIn_put, true_and]
      by_cases hr : r = r'
      · simp [hr, hin]
      · simp [hr]
  · simp [hc]

/-- A registered connection that joins a room is in it. -/
theorem mem_idsIn_self (hc : x.isConnected c = true) : c ∈ (x.join r c).2.idsIn r := by
  rw [idsIn_join]
  split
  · exact List.mem_append_right _ (List.mem_singleton_self c)
  · rename_i hin
    exact Decidable.not_not.mp fun hout => hin ⟨rfl, hc, hout⟩

/-- Connections stay in their rooms when one joins a room. -/
theorem mem_idsIn_join_of {c' : ConnectionId} (hc' : c' ∈ x.idsIn r) :
    c' ∈ (x.join r' c).2.idsIn r := by
  rw [idsIn_join]
  split
  · exact List.mem_append_left _ hc'
  · exact hc'

/-- Members stay when a connection joins a room. -/
theorem members_join_of (h : x.Sound) (hs : s ∈ x.members r) : s ∈ (x.join r' c).2.members r := by
  obtain ⟨hsession, hids⟩ := (mem_members h).mp hs
  have hin : s.conn ∈ (x.join r' c).2.idsIn r := mem_idsIn_join_of ((mem_idsIn h).mpr hids)
  refine (mem_members (join_sound h r' c)).mpr ⟨?_, (mem_idsIn (join_sound h r' c)).mp hin⟩
  rw [join_sessions]
  exact hsession

/-- The session registered under an id is a member of the room that the connection joins. -/
theorem members_join_of_session (hs : x.session? s.conn = some s) :
    s ∈ (x.join r s.conn).2.members r := by
  have hin := mem_idsIn_self (r := r) (isConnected_iff.mpr ⟨s, (Table.find?_some hs).1, rfl⟩)
  refine List.mem_filterMap.mpr ⟨s.conn, hin, ?_⟩
  unfold session?
  rw [join_sessions]
  exact hs

theorem members_join_self (h : x.Sound) (hs : s ∈ x.sessions) : s ∈ (x.join r s.conn).2.members r :=
  members_join_of_session (Table.find?_of_mem h.sessions hs)

/-! ## Leaving -/

theorem idsIn_setIds (ids : List ConnectionId) :
    (x.setIds r' ids).idsIn r = if r = r' then ids else x.idsIn r := by
  by_cases he : ids.isEmpty
  · obtain rfl := List.isEmpty_iff.mp he
    unfold setIds idsIn
    by_cases hr : r = r'
    · rw [if_pos hr, hr, if_pos he, Table.find?_erase]
      rfl
    · rw [if_neg hr, if_pos he, Table.find?_erase_ne hr]
  · unfold setIds
    rw [if_neg he, idsIn_put]

theorem mem_leave_rooms {ids : List ConnectionId} (hm : (r, ids) ∈ (x.leave r' c).2.rooms) :
    (r, ids) ∈ x.rooms ∨ r = r' ∧ ids = (x.idsIn r').filter (· ≠ c) ∧ ids ≠ [] := by
  unfold leave setIds at hm
  by_cases he : ((x.idsIn r').filter (· ≠ c)).isEmpty
  · simp only [he, ↓reduceIte] at hm
    exact .inl (Table.mem_erase.mp hm).1
  · simp only [he, Bool.false_eq_true, ↓reduceIte] at hm
    rcases Table.mem_put.mp hm with ⟨hm, -⟩ | heq
    · exact .inl hm
    · obtain ⟨rfl, rfl⟩ := Prod.mk.injEq .. ▸ heq
      exact .inr ⟨rfl, rfl, fun hnil => he (List.isEmpty_iff.mpr hnil)⟩

theorem leave_sound (h : x.Sound) (r : Room) (c : ConnectionId) : (x.leave r c).2.Sound where
  sessions := h.sessions
  keyed := by
    unfold leave setIds
    dsimp only
    split
    · exact Table.keyed_erase h.keyed r
    · exact Table.keyed_put h.keyed _
  nonempty := by
    rintro ⟨r', ids⟩ hm
    rcases mem_leave_rooms hm with hm | ⟨-, -, hne⟩
    · exact h.nonempty _ hm
    · exact hne
  connected := by
    rintro ⟨r', ids⟩ hm c' hc'
    rcases mem_leave_rooms hm with hm | ⟨-, rfl, -⟩
    · exact h.connected _ hm c' hc'
    · obtain ⟨old, hold, hin⟩ := (mem_idsIn h).mp (List.mem_filter.mp hc').1
      exact h.connected _ hold c' hin

end RoomIndex

/-! ## Every node -/

/-- The rooms of every node are sound. -/
def World.Sound (w : World) : Prop := ∀ n, (w.node n).rooms.Sound

namespace World

variable {underway : Delivery → Prop} {s : Session} {w v : World} {n : Nat}

theorem Sound.of_nodes (h : w.Sound) (hn : v.nodes = w.nodes) : v.Sound := by
  intro i
  unfold node
  rw [hn]
  exact h i

theorem Sound.modifyNode (h : w.Sound) {f : NodeState → NodeState}
    (hf : ∀ st, st.rooms.Sound → (f st).rooms.Sound) : (w.modifyNode n f).Sound := by
  intro i
  by_cases hi : i = n
  · by_cases hn : n < w.nodes.length
    · rw [hi, node_modifyNode w n f hn]
      exact hf _ (h n)
    · have hnone : (w.modifyNode n f).nodes[n]? = none := by
        refine List.getElem?_eq_none ?_
        rw [nodes_modifyNode_length]
        exact Nat.le_of_not_lt hn
      rw [hi]
      unfold node
      rw [hnone]
      exact RoomIndex.empty_sound
  · rw [node_modifyNode_ne w n f hi]
    exact h i

theorem Sound.setRooms (h : w.Sound) {x : RoomIndex} (hx : x.Sound) : (w.setRooms n x).Sound :=
  h.modifyNode fun _ _ => hx

theorem Sound.aside (h : w.Sound) (ha : Aside underway s w v) : v.Sound := by
  obtain ⟨t, r, i, q, ps, ds, rfl, -⟩ := ha
  exact h

theorem Sound.joined (h : w.Sound) (r : Room) (c : ConnectionId) : (w.joined n r c).Sound :=
  h.setRooms (RoomIndex.join_sound (h n) r c)

/-! ## Everybody in place -/

theorem rooms_modifyNode {i : Nat} {f : NodeState → NodeState} (hf : ∀ st, (f st).rooms = st.rooms) :
    ((w.modifyNode n f).node i).rooms = (w.node i).rooms := by
  rcases node_modifyNode_cases n i f w with hi | ⟨-, hi⟩
  · rw [hi]
  · rw [hi, hf]

/-- The rooms of the nodes and the modules of the sessions are as they were, and what has arrived was
under way or tells of errors. -/
structure Stays (underway : Delivery → Prop) (w v : World) : Prop where
  rooms : ∀ n, (v.node n).rooms = (w.node n).rooms
  modules : ∀ s, (v.peer s).context.moduleId = (w.peer s).context.moduleId
  arrived : ∃ new, v.deliveries = new ++ w.deliveries ∧ ∀ d ∈ new, underway d ∨ ∃ s, Tells s d

theorem Stays.of_same (hn : v.nodes = w.nodes) (hp : v.peers = w.peers)
    (hd : v.deliveries = w.deliveries) : w.Stays underway v where
  rooms := by
    intro n
    unfold node
    rw [hn]
  modules := by
    intro s
    unfold peer
    rw [hp]
  arrived := ⟨[], hd, nofun⟩

theorem Stays.aside (ha : Aside underway s w v) : w.Stays underway v where
  rooms := by
    intro n
    obtain ⟨t, r, i, q, ps, ds, rfl, -⟩ := ha
    rfl
  modules := fun s' => congrArg (·.moduleId) (context_of_faces ha.faces s')
  arrived := by
    obtain ⟨t, r, i, q, ps, ds, rfl, -, -, -, hds⟩ := ha
    exact ⟨ds, rfl, fun d hd => (hds d hd).imp And.right fun he => ⟨s, he⟩⟩

theorem Stays.trans {u : World} (h : w.Stays underway u) (h' : u.Stays underway v) :
    w.Stays underway v where
  rooms := fun n => (h'.rooms n).trans (h.rooms n)
  modules := fun s => (h'.modules s).trans (h.modules s)
  arrived := by
    obtain ⟨ds, hds, hall⟩ := h.arrived
    obtain ⟨ds', hds', hall'⟩ := h'.arrived
    refine ⟨ds' ++ ds, by rw [hds', hds, List.append_assoc], fun d hd => ?_⟩
    exact (List.mem_append.mp hd).elim (hall' d) (hall d)

theorem Stays.modifyNode (h : w.Stays underway v) {f : NodeState → NodeState}
    (hf : ∀ st, (f st).rooms = st.rooms) : w.Stays underway (v.modifyNode n f) where
  rooms := fun i => (rooms_modifyNode hf).trans (h.rooms i)
  modules := h.modules
  arrived := h.arrived

theorem Stays.modifyPeer (h : w.Stays underway v) {f : Peer → Peer}
    (hf : ∀ p, (f p).context.moduleId = p.context.moduleId) : w.Stays underway (v.modifyPeer s f) where
  rooms := h.rooms
  modules := fun s' =>
    (peer_modifyPeer s s' f (·.context.moduleId) (.inr hf) v).trans (h.modules s')
  arrived := h.arrived

theorem Sound.stays (h : w.Sound) (hs : w.Stays underway v) : v.Sound := by
  intro n
  rw [hs.rooms]
  exact h n

end World

namespace Cluster

variable {underway : Delivery → Prop} {c : Cluster}

theorem start_sound (profiles : List Profile) (at_ : Timestamp) :
    (Cluster.start profiles at_).world.Sound := by
  intro n
  unfold World.node start world World.initial
  simp only [List.getElem?_map]
  cases profiles[n]? with
  | none => exact RoomIndex.empty_sound
  | some p => exact RoomIndex.empty_sound

theorem sound_subscribing {n : Nat} {s : Session} {ks : List Notification} {w v : World}
    (hw : w.Sound) (h : Lifecycle.Subscribing n underway s w ks v) : v.Sound := by
  induction h with
  | start => exact hw
  | aside _ ha ih => exact ih.aside ha
  | joins _ _ _ ih => exact World.Sound.joined (ih.of_nodes rfl) _ _

theorem sound_declared {n : Nat} {s : Session} {d : ConfigSchemaDeclaration} {w v : World}
    {o : Option (Except LifecycleError Unit)} (hw : w.Sound)
    (h : Lifecycle.Declared n underway s d w o v) : v.Sound := by
  have hwrite : ∀ t, (w.write t).Sound := fun t => hw.of_nodes rfl
  cases h with
  | refused ha _ => exact hw.aside ha
  | invalid _ _ _ ha _ => exact (hwrite _).aside ha
  | missed _ _ _ _ ha _ => exact (hwrite _).aside ha
  | joins _ _ _ ha _ => exact World.Sound.joined (((hwrite _).aside ha).of_nodes rfl) _ _

theorem stays_removed {checked : Nat} {bs : List Backend} {w v : World} {r : SweepReport}
    (h : Sweep.Removed checked bs w.served r v) : w.Stays underway v := by
  cases h with
  | nothing _ => exact .of_same rfl rfl rfl
  | some _ _ => exact .of_same rfl rfl rfl

theorem stays_polled {n : Nat} {ws : WorkerSettings} {l : Limits} {outcome : PollOutcome} {w v : World}
    (h : Worker.Polled n ws l w outcome v) : w.Stays underway v := by
  cases h with
  | idle _ => exact .of_same rfl rfl rfl
  | dispatched _ failed reads =>
    have hqueued : ∀ ms, w.Stays underway (w.queued reads ms) := fun _ => .of_same rfl rfl rfl
    exact (hqueued _).modifyNode fun _ => rfl

/-- Inputs by which no session connects or disconnects, or enters a room. -/
def Stationary : Input → Prop
  | .connect .. | .requirements .. | .configSchema .. | .disconnect _ => False
  | _ => True

/-- By any other input everybody stays in place. -/
theorem effect_stays {i : Input} {o : Option i.Reply} {w : World} (hi : Stationary i)
    (h : c.Effect underway i o w) : c.world.Stays underway w := by
  cases i with
  | connect | requirements | configSchema | disconnect => exact hi.elim
  | ready k d =>
    refine World.Attempt.elim h (fun _ ha => .aside ha) ?_
    rintro b v ⟨-, -, -, -, e, t, -, rfl⟩
    have hwritten : c.world.Stays underway (c.world.ticked.ticked.write t) := .of_same rfl rfl rfl
    exact hwritten.modifyPeer fun _ => rfl
  | updateActive n m data =>
    refine World.Attempt.elim (h default) (fun _ ha => .aside ha) ?_
    rintro row v ⟨-, w₁, t, ha, -, rfl⟩
    exact (World.Stays.aside ha).trans (.of_same rfl rfl rfl)
  | activate n id =>
    refine World.Attempt.elim (h default) (fun _ ha => .aside ha) ?_
    rintro row v ⟨-, w₁, t, ha, -, rfl⟩
    exact (World.Stays.aside ha).trans (.of_same rfl rfl rfl)
  | clearPhantoms n =>
    exact World.Attempt.elim (h default) (fun _ ha => .aside ha) fun _ _ hx => stays_removed hx.2
  | deleteOwn n =>
    exact World.Attempt.elim (h default) (fun _ ha => .aside ha) fun _ _ hx => stays_removed hx.2
  | poll n =>
    rcases h with ⟨-, -, rfl⟩ | ⟨-, outcome, -, hp⟩
    · exact .of_same rfl rfl rfl
    · exact stays_polled hp
  | restart n =>
    obtain rfl := h
    have hsame : c.world.Stays underway c.world := .of_same rfl rfl rfl
    exact hsame.modifyNode fun _ => rfl
  | call call =>
    obtain ⟨r, hr, -⟩ := h
    obtain ⟨hnodes, hpeers, hdeliveries⟩ := perform_frame hr
    exact .of_same hnodes hpeers hdeliveries
  | appendEventAt p at_ =>
    obtain ⟨e, t, -, -, rfl⟩ := h
    exact .of_same rfl rfl rfl
  | lag | catchUp | setAvailable =>
    obtain rfl := h
    exact .of_same rfl rfl rfl

/-- Every step keeps the rooms of all nodes sound. -/
theorem apply_sound (hc : c.Steady underway) (i : Input)
    (hu : ∀ n, i = .poll n → ∀ l k, Simulation.Announced underway c.world (c.world.notices n l k))
    (hn : (c.apply i).2 ≠ .overflow) (h : c.world.Sound) : (c.apply i).1.world.Sound := by
  obtain ⟨w, heff, hset, -⟩ := apply_effect hc i hu hn
  refine World.Sound.of_nodes (w := w) ?_ hset.nodes
  by_cases hi : Stationary i
  · exact h.stays (effect_stays hi heff)
  -- Rooms change where sessions register, join and leave.
  generalize (c.apply i).2.value? = o at heff
  cases i with
  | connect n id behaviour name =>
    have hopened : (c.opened n id behaviour).world.Sound := h.of_nodes rfl
    refine World.Attempt.elim heff (fun _ ha => hopened.aside ha) ?_
    rintro x v ⟨-, -, rfl⟩
    exact World.Sound.setRooms (hopened.of_nodes rfl) (RoomIndex.register_sound (h n) _)
  | requirements k r =>
    obtain ⟨ks, -, hs, -⟩ := heff
    exact sound_subscribing h hs
  | configSchema k d => exact sound_declared h heff
  | disconnect k =>
    obtain ⟨r, -, hleft⟩ := heff
    obtain ⟨readings, t, -, -, rfl⟩ := hleft.departed
    exact (h.setRooms (RoomIndex.unregister_sound (h _) _)).of_nodes rfl
  | _ => exact absurd trivial hi

end Cluster

end ConfigRegistry
