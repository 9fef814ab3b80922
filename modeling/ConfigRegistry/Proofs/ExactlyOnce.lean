import ConfigRegistry.Proofs.Consumption

/-!
# Every event is read once

A run of appends, retention, lag, outages and polls keeps an account of the log: each
appended event is still there or was deleted by a step of the run (`Recorded`), for the
live tables and for the ones that local reads see. The cursor passes an event only with
the poll that reads it, or with one that no longer sees it (`Lost`).
-/

namespace ConfigRegistry

namespace Cluster

variable {n : Nat} {h h' : List Taken} {x : Taken} {c c₀ : Cluster} {t t' : Tables}

/-- The events up to the last id of some tables are in them, or were deleted. -/
structure Recorded (h : List Taken) (t : Tables) : Prop where
  logged : t.Logged
  given : ∀ e ∈ t.events, e ∈ h.flatMap Taken.appended
  kept : ∀ e ∈ h.flatMap Taken.appended, e.id ≤ t.lastEventId →
    e ∈ t.events ∨ ∃ d ∈ h, d.Deletes e

/-- The poll that took the cursor past an event did not see it any more. -/
def Lost (n : Nat) (h : List Taken) (e : Event) : Prop :=
  ∃ h₁ x h₂, h = h₁ ++ x :: h₂ ∧ x.input = .poll n ∧ x.before.cursor n < e.id ∧
    e.id ≤ x.after.cursor n ∧ e ∉ x.before.visible.events ∧ ∃ d ∈ h₁, d.Deletes e

theorem Lost.append {e : Event} (hl : Lost n h e) (h' : List Taken) : Lost n (h ++ h') e := by
  obtain ⟨h₁, x, h₂, rfl, hrest⟩ := hl
  exact ⟨h₁, x, h₂ ++ h', by simp, hrest⟩

theorem appended_concat : (h ++ [x]).flatMap Taken.appended = h.flatMap Taken.appended ++ x.appended := by
  simp

theorem batch_concat : (h ++ [x]).flatMap Taken.batch = h.flatMap Taken.batch ++ x.batch := by
  simp

theorem Recorded.concat (hr : Recorded h t) (hlt : ∀ e ∈ x.appended, t.lastEventId < e.id) :
    Recorded (h ++ [x]) t where
  logged := hr.logged
  given := by
    intro e he
    rw [appended_concat]
    exact List.mem_append_left _ (hr.given e he)
  kept := by
    intro e he hle
    rw [appended_concat] at he
    rcases List.mem_append.mp he with he | he
    · rcases hr.kept e he hle with hin | ⟨d, hd, hdel⟩
      · exact .inl hin
      · exact .inr ⟨d, List.mem_append_left _ hd, hdel⟩
    · exact absurd (hlt e he) (UInt64.not_lt.mpr hle)

theorem Recorded.appends (hr : Recorded h t) (ht : t.Extends x.appended t')
    (hle : ∀ e ∈ h.flatMap Taken.appended, e.id ≤ t.lastEventId) : Recorded (h ++ [x]) t' where
  logged := ht.logged hr.logged
  given := by
    intro e he
    rw [ht.events] at he
    rw [appended_concat]
    exact List.mem_append.mpr ((List.mem_append.mp he).imp_left (hr.given e))
  kept := by
    intro e he _
    rw [ht.events]
    rw [appended_concat] at he
    rcases List.mem_append.mp he with he | he
    · rcases hr.kept e he (hle e he) with hin | ⟨d, hd, hdel⟩
      · exact .inl (List.mem_append_left _ hin)
      · exact .inr ⟨d, List.mem_append_left _ hd, hdel⟩
    · exact .inl (List.mem_append_right _ he)

theorem Recorded.retains {before : Timestamp} (hr : Recorded h x.before.world.store.live)
    (hi : x.input = .call (.deleteEventsBefore before)) (ha : x.appended = [])
    (hl : x.after.world.store.live = (x.before.world.store.live.deleteEventsBefore before).2) :
    Recorded (h ++ [x]) x.after.world.store.live where
  logged := hl ▸ Tables.deleteEventsBefore_logged before hr.logged
  given := by
    intro e he
    rw [hl] at he
    rw [appended_concat]
    exact List.mem_append_left _ (hr.given e (Tables.mem_deleteEventsBefore.mp he).1)
  kept := by
    intro e he hle
    rw [appended_concat, ha, List.append_nil] at he
    have hlast : e.id ≤ x.before.world.store.live.lastEventId := by
      rw [hl] at hle
      exact hle
    rcases hr.kept e he hlast with hin | ⟨d, hd, hdel⟩
    · by_cases hafter : e ∈ x.after.world.store.live.events
      · exact .inl hafter
      · exact .inr ⟨x, by simp, ⟨before, hi⟩, hin, hafter⟩
    · exact .inr ⟨d, List.mem_append_left _ hd, hdel⟩

/-- What a run has done to the log, and how far a worker has come. -/
structure Consumed (n : Nat) (h : List Taken) (c : Cluster) : Prop where
  live : Recorded h c.world.store.live
  seen : Recorded h c.visible
  count : c.world.store.live.lastEventId.toNat = (h.flatMap Taken.appended).length
  ascending : (h.flatMap Taken.appended).Pairwise (·.id < ·.id)
  below : ∀ e ∈ h.flatMap Taken.appended, e.id ≤ c.world.store.live.lastEventId
  /-- What local reads see is not ahead of the log, and the cursor is not ahead of either. -/
  behind : c.visible.lastEventId ≤ c.world.store.live.lastEventId
  reached : c.cursor n ≤ c.visible.lastEventId
  once : (h.flatMap Taken.batch).Pairwise (·.id < ·.id)
  passed : ∀ e ∈ h.flatMap Taken.batch, e ∈ h.flatMap Taken.appended ∧ e.id ≤ c.cursor n
  accounted : ∀ e ∈ h.flatMap Taken.appended, e.id ≤ c.cursor n →
    e ∈ h.flatMap Taken.batch ∨ Lost n h e

theorem visible_of_live (hf : c.world.store.frozen = none) : c.visible = c.world.store.live := by
  simp [visible, Store.view, hf]

theorem visible_of_frozen (hf : c.world.store.frozen = some t) : c.visible = t := by
  simp [visible, Store.view, hf]

theorem recorded_empty : Recorded [] .empty := ⟨Tables.empty_logged, nofun, nofun⟩

theorem consumed_start (hl : c₀.world.store.live = .empty) (hf : c₀.world.store.frozen = none)
    (hc : c₀.cursor n = 0) : Consumed n [] c₀ := by
  have hv : c₀.visible = .empty := (visible_of_live hf).trans hl
  constructor
  · rw [hl]; exact recorded_empty
  · rw [hv]; exact recorded_empty
  · rw [hl]; rfl
  · exact .nil
  · simp
  · rw [hv, hl]; exact UInt64.le_refl _
  · rw [hc]; exact UInt64.zero_le
  · exact .nil
  · simp
  · simp

/-- A step that reads nothing keeps the account of what was read. -/
theorem Consumed.unread (hc : Consumed n h x.before) (hb : x.batch = [])
    (hcur : x.after.cursor n = x.before.cursor n)
    (hnew : ∀ e ∈ x.appended, x.before.world.store.live.lastEventId < e.id) :
    ((h ++ [x]).flatMap Taken.batch).Pairwise (·.id < ·.id) ∧
    (∀ e ∈ (h ++ [x]).flatMap Taken.batch, e ∈ (h ++ [x]).flatMap Taken.appended ∧
      e.id ≤ x.after.cursor n) ∧
    ∀ e ∈ (h ++ [x]).flatMap Taken.appended, e.id ≤ x.after.cursor n →
      e ∈ (h ++ [x]).flatMap Taken.batch ∨ Lost n (h ++ [x]) e := by
  rw [batch_concat, hb, List.append_nil, hcur, appended_concat]
  refine ⟨hc.once, fun e he => (hc.passed e he).imp_left (List.mem_append_left _), ?_⟩
  intro e he hle
  rcases List.mem_append.mp he with he | he
  · exact (hc.accounted e he hle).imp_right (·.append [x])
  · have hlast := UInt64.le_trans hle (UInt64.le_trans hc.reached hc.behind)
    exact absurd (hnew e he) (UInt64.not_lt.mpr hlast)

theorem Consumed.appends (hc : Consumed n h x.before)
    (hl : x.before.world.store.live.Extends x.appended x.after.world.store.live)
    (hf : x.after.world.store.frozen = x.before.world.store.frozen) (hb : x.batch = [])
    (hcur : x.after.cursor n = x.before.cursor n) : Consumed n (h ++ [x]) x.after := by
  obtain ⟨honce, hpassed, haccounted⟩ := hc.unread hb hcur fun e he => (hl.above e he).1
  have hlive := hc.live.appends hl hc.below
  -- Local reads see the log with the new events, or a copy that is older than these.
  have hseen : Recorded (h ++ [x]) x.after.visible ∧
      x.before.visible.lastEventId ≤ x.after.visible.lastEventId ∧
      x.after.visible.lastEventId ≤ x.after.world.store.live.lastEventId := by
    cases hfrozen : x.before.world.store.frozen with
    | none =>
      rw [visible_of_live (hf.trans hfrozen), visible_of_live hfrozen]
      exact ⟨hlive, hl.le, UInt64.le_refl _⟩
    | some f =>
      have hseen := hc.seen
      have hbehind := hc.behind
      rw [visible_of_frozen hfrozen] at hseen hbehind
      rw [visible_of_frozen (hf.trans hfrozen), visible_of_frozen hfrozen]
      refine ⟨hseen.concat fun e he => ?_, UInt64.le_refl _, UInt64.le_trans hbehind hl.le⟩
      exact UInt64.lt_of_le_of_lt hbehind (hl.above e he).1
  constructor
  · exact hlive
  · exact hseen.1
  · rw [hl.count, hc.count, appended_concat, List.length_append]
  · rw [appended_concat]
    refine List.pairwise_append.mpr ⟨hc.ascending, hl.sorted, fun a ha b hb => ?_⟩
    exact UInt64.lt_of_le_of_lt (hc.below a ha) (hl.above b hb).1
  · intro e he
    rw [appended_concat] at he
    rcases List.mem_append.mp he with he | he
    · exact UInt64.le_trans (hc.below e he) hl.le
    · exact (hl.above e he).2
  · exact hseen.2.2
  · rw [hcur]
    exact UInt64.le_trans hc.reached hseen.2.1
  · exact honce
  · exact hpassed
  · exact haccounted

theorem Consumed.retains {before : Timestamp} (hc : Consumed n h x.before)
    (hi : x.input = .call (.deleteEventsBefore before))
    (hl : x.after.world.store.live = (x.before.world.store.live.deleteEventsBefore before).2)
    (hf : x.after.world.store.frozen = x.before.world.store.frozen) (ha : x.appended = [])
    (hb : x.batch = []) (hcur : x.after.cursor n = x.before.cursor n) :
    Consumed n (h ++ [x]) x.after := by
  obtain ⟨honce, hpassed, haccounted⟩ := hc.unread hb hcur (by simp [ha])
  have hlive := hc.live.retains hi ha hl
  have hlast : x.after.world.store.live.lastEventId = x.before.world.store.live.lastEventId := by
    rw [hl]
    rfl
  have happended : (h ++ [x]).flatMap Taken.appended = h.flatMap Taken.appended := by
    rw [appended_concat, ha, List.append_nil]
  -- A copy that local reads see still has the deleted events.
  have hseen : Recorded (h ++ [x]) x.after.visible ∧
      x.after.visible.lastEventId = x.before.visible.lastEventId := by
    cases hfrozen : x.before.world.store.frozen with
    | none =>
      rw [visible_of_live (hf.trans hfrozen), visible_of_live hfrozen]
      exact ⟨hlive, hlast⟩
    | some f =>
      rw [visible_of_frozen (hf.trans hfrozen), visible_of_frozen hfrozen]
      exact ⟨(visible_of_frozen hfrozen ▸ hc.seen).concat (by simp [ha]), rfl⟩
  constructor
  · exact hlive
  · exact hseen.1
  · rw [hlast, hc.count, happended]
  · rw [happended]
    exact hc.ascending
  · rw [happended, hlast]
    exact hc.below
  · rw [hseen.2, hlast]
    exact hc.behind
  · rw [hcur, hseen.2]
    exact hc.reached
  · exact honce
  · exact hpassed
  · exact haccounted

theorem Consumed.views (hc : Consumed n h x.before)
    (hl : x.after.world.store.live = x.before.world.store.live)
    (hf : x.after.world.store.frozen = none ∨
      x.after.world.store.frozen = some x.before.world.store.live)
    (ha : x.appended = []) (hb : x.batch = []) (hcur : x.after.cursor n = x.before.cursor n) :
    Consumed n (h ++ [x]) x.after := by
  obtain ⟨honce, hpassed, haccounted⟩ := hc.unread hb hcur (by simp [ha])
  have happended : (h ++ [x]).flatMap Taken.appended = h.flatMap Taken.appended := by
    rw [appended_concat, ha, List.append_nil]
  have hlive : Recorded (h ++ [x]) x.after.world.store.live := by
    rw [hl]
    exact hc.live.concat (by simp [ha])
  -- Local reads see the log itself, or a copy that was made now.
  have hvisible : x.after.visible = x.after.world.store.live := by
    rcases hf with hf | hf
    · exact visible_of_live hf
    · exact (visible_of_frozen hf).trans hl.symm
  constructor
  · exact hlive
  · rw [hvisible]
    exact hlive
  · rw [hl, hc.count, happended]
  · rw [happended]
    exact hc.ascending
  · rw [happended, hl]
    exact hc.below
  · rw [hvisible]
    exact UInt64.le_refl _
  · rw [hcur, hvisible, hl]
    exact UInt64.le_trans hc.reached hc.behind
  · exact honce
  · exact hpassed
  · exact haccounted

/-- What a worker fetches next: an initial part of what is pending in the log it sees. -/
theorem fetched_eq (horder : (c.profile n).worker.order = .oldestFirst)
    (hlt : (c.cursor n).toNat + 1 < UInt64.size) :
    Worker.fetched n (c.profile n).worker c.world =
      (c.visible.pending (c.cursor n)).take (c.profile n).worker.limit := by
  unfold Worker.fetched
  rw [horder]
  exact Tables.eventsAfter_oldestFirst _ hlt

/-- What a worker fetches comes behind what it fetched before, and what it passes is fetched now unless
retention had deleted it. -/
theorem Consumed.fetches (hc : Consumed n h x.before) (hi : x.input = .poll n) (ha : x.appended = [])
    (hb : x.batch.Pairwise (·.id < ·.id))
    (hmem : ∀ e, e ∈ x.batch ↔ e ∈ x.before.visible.events ∧ x.before.cursor n < e.id ∧
      e.id ≤ x.after.cursor n)
    (hle : x.before.cursor n ≤ x.after.cursor n)
    (hreached : x.after.cursor n ≤ x.before.visible.lastEventId) :
    ((h ++ [x]).flatMap Taken.batch).Pairwise (·.id < ·.id) ∧
    (∀ e ∈ (h ++ [x]).flatMap Taken.batch,
      e ∈ (h ++ [x]).flatMap Taken.appended ∧ e.id ≤ x.after.cursor n) ∧
    ∀ e ∈ (h ++ [x]).flatMap Taken.appended, e.id ≤ x.after.cursor n →
      e ∈ (h ++ [x]).flatMap Taken.batch ∨ Lost n (h ++ [x]) e := by
  rw [appended_concat, ha, List.append_nil, batch_concat]
  refine ⟨?_, fun e he => ?_, fun e he hpast => ?_⟩
  · refine List.pairwise_append.mpr ⟨hc.once, hb, fun a ha b hb => ?_⟩
    exact UInt64.lt_of_le_of_lt (hc.passed a ha).2 ((hmem b).mp hb).2.1
  · rcases List.mem_append.mp he with he | he
    · exact (hc.passed e he).imp_right (UInt64.le_trans · hle)
    · exact ⟨hc.seen.given e ((hmem e).mp he).1, ((hmem e).mp he).2.2⟩
  · by_cases hbefore : e.id ≤ x.before.cursor n
    · exact (hc.accounted e he hbefore).imp (List.mem_append_left _) (·.append [x])
    · -- Passed just now: the event was in the log that was read, unless retention had deleted it.
      have hlt : x.before.cursor n < e.id := UInt64.not_le.mp hbefore
      by_cases hin : e ∈ x.before.visible.events
      · exact .inl (List.mem_append_right _ ((hmem e).mpr ⟨hin, hlt, hpast⟩))
      · have hdeleted := (hc.seen.kept e he (UInt64.le_trans hpast hreached)).resolve_left hin
        exact .inr ⟨h, x, [], rfl, hi, hlt, hpast, hin, hdeleted⟩

/-- A poll whose batch is an initial part of what is pending keeps the account. -/
theorem Consumed.reads (hc : Consumed n h x.before) (hi : x.input = .poll n) {limit : Nat}
    (hl : x.after.world.store.live = x.before.world.store.live)
    (hf : x.after.world.store.frozen = x.before.world.store.frozen) (ha : x.appended = [])
    (hb : x.batch = (x.before.visible.pending (x.before.cursor n)).take limit)
    (hcur : x.after.cursor n = Worker.cursorAfter (x.before.cursor n) x.batch) :
    Consumed n (h ++ [x]) x.after := by
  have happended : (h ++ [x]).flatMap Taken.appended = h.flatMap Taken.appended := by
    rw [appended_concat, ha, List.append_nil]
  have hvisible : x.after.visible = x.before.visible := by
    simp only [visible, Store.view, hl, hf]
  have hsorted : x.batch.Pairwise (·.id < ·.id) := by
    rw [hb]
    exact (hc.seen.logged.sorted.filter _).take
  have hmem : ∀ e, e ∈ x.batch ↔ e ∈ x.before.visible.events ∧ x.before.cursor n < e.id ∧
      e.id ≤ x.after.cursor n := by
    intro e
    rw [hcur, hb]
    exact Worker.mem_batch hc.seen.logged.sorted limit
  have hreached : x.after.cursor n ≤ x.before.visible.lastEventId := by
    rcases Worker.cursorAfter_cases (x.before.cursor n) x.batch with hsame | ⟨e, he, hlast⟩
    · rw [hcur, hsame]
      exact hc.reached
    · rw [hcur, hlast]
      exact hc.seen.logged.bounded e ((hmem e).mp he).1
  obtain ⟨honce, hpassed, haccounted⟩ := hc.fetches hi ha hsorted hmem
    (hcur ▸ Worker.le_cursorAfter _ _) hreached
  constructor
  · rw [hl]
    exact hc.live.concat (by simp [ha])
  · rw [hvisible]
    exact hc.seen.concat (by simp [ha])
  · rw [hl, hc.count, happended]
  · rw [happended]
    exact hc.ascending
  · rw [happended, hl]
    exact hc.below
  · rw [hvisible, hl]
    exact hc.behind
  · rw [hvisible]
    exact hreached
  · exact honce
  · exact hpassed
  · exact haccounted

/-! ## Runs -/

/-- No message is under way, and the worker of a node reads the oldest events first. -/
structure Watched (n : Nat) (c : Cluster) : Prop where
  steady : c.Steady fun _ => True
  known : n < c.world.nodes.length
  order : (c.profile n).worker.order = .oldestFirst
  limit : 1 ≤ (c.profile n).worker.limit

theorem Watched.take (hw : Watched n c) {i : Input} (hi : LogInput n i)
    (hov : (c.apply i).2 ≠ .overflow) :
    Turn n (c.take i) ∧ Watched n (c.apply i).1 ∧ (c.apply i).1.profile n = c.profile n := by
  obtain ⟨hturn, hsteady, hlen, hprofile⟩ := take_turn hw.steady hw.known hi hov
  refine ⟨hturn, ⟨hsteady, hlen ▸ hw.known, ?_, ?_⟩, hprofile⟩
  · rw [hprofile]
    exact hw.order
  · rw [hprofile]
    exact hw.limit

theorem consumed_turn (hw : Watched n x.before) (hc : Consumed n h x.before)
    (hfew : (h.flatMap Taken.appended).length < UInt64.size - 1) (ht : Turn n x) :
    Consumed n (h ++ [x]) x.after := by
  cases ht with
  | appends hl hf _ hb hcur => exact hc.appends hl hf hb hcur
  | retains hi hl hf ha _ hb hcur => exact hc.retains hi hl hf ha hb hcur
  | views hl hf ha _ hb hcur => exact hc.views hl hf ha hb hcur
  | reads hi hl hf ha _ hb hcur =>
    refine hc.reads hi hl hf ha (hb.trans (fetched_eq hw.order ?_)) hcur
    have hlast := UInt64.le_iff_toNat_le.mp (UInt64.le_trans hc.reached hc.behind)
    rw [hc.count] at hlast
    omega

theorem run_consumed (hrun : Run (fun _ _ i => LogInput n i) c₀ h c) (hw : Watched n c₀)
    (h₀ : Consumed n [] c₀) (hfew : (h.flatMap Taken.appended).length < UInt64.size - 1) :
    Watched n c ∧ c.profile n = c₀.profile n ∧ Consumed n h c := by
  induction hrun with
  | start => exact ⟨hw, rfl, h₀⟩
  | @step h c hrun i hk hi hov ih =>
    rw [appended_concat, List.length_append] at hfew
    have hbefore : (h.flatMap Taken.appended).length < UInt64.size - 1 := by omega
    obtain ⟨hwatched, hprofile, hconsumed⟩ := ih hbefore
    obtain ⟨hturn, hwatched', hprofile'⟩ := hwatched.take hi hov
    exact ⟨hwatched', hprofile'.trans hprofile, consumed_turn hwatched hconsumed hbefore hturn⟩

/-- The cursor of a worker never decreases. -/
theorem Turn.cursor_le (ht : Turn n x) : x.before.cursor n ≤ x.after.cursor n := by
  cases ht with
  | appends _ _ _ _ hcur => exact hcur ▸ UInt64.le_refl _
  | retains _ _ _ _ _ _ hcur => exact hcur ▸ UInt64.le_refl _
  | views _ _ _ _ _ hcur => exact hcur ▸ UInt64.le_refl _
  | reads _ _ _ _ _ _ hcur => exact hcur ▸ Worker.le_cursorAfter _ _

/-- A poll that fails found the store unreachable. -/
theorem failed_poll (hw : Watched n c) {i : Input} (hi : LogInput n i)
    (hov : (c.apply i).2 ≠ .overflow) (hx : (c.take i).failed = true) :
    c.world.store.available = false ∧ (c.apply i).1.world.store = c.world.store ∧
      (c.apply i).1.cursor n = c.cursor n := by
  obtain ⟨w, heff, hset, -⟩ := apply_effect hw.steady i (fun _ _ _ _ _ _ _ => trivial) hov
  cases i with
  | poll m =>
    rcases heff with ⟨ha, -, rfl⟩ | ⟨-, outcome, ho, -⟩
    · exact ⟨ha, hset.store, (cursor_of_nodes hset.nodes).1⟩
    · rw [Cluster.take, ho] at hx
      simp [Taken.failed] at hx
  | _ => simp [Cluster.take, Taken.failed] at hx

/-! ## Draining -/

theorem served_concat : (h ++ [x]).filter Taken.served =
    h.filter Taken.served ++ if x.served then [x] else [] := by
  rw [List.filter_append]
  cases hs : x.served <;> simp [hs]

/-- What the polls that succeeded have taken of the events that were pending at first, while local
reads go on to see the same ones. -/
structure Draining (n : Nat) (last : EventId) (c₀ : Cluster) (p : List Event) (limit : Nat)
    (h : List Taken) (c : Cluster) : Prop where
  watched : Watched n c
  profile : c.profile n = c₀.profile n
  events : c.visible.events = c₀.visible.events
  reached : c.cursor n ≤ last
  pending : c.visible.pending (c.cursor n) = p.drop (limit * (h.filter Taken.served).length)
  batches : (h.filter Taken.served).map Taken.batch =
    (List.range (h.filter Taken.served).length).map fun j => (p.drop (limit * j)).take limit

theorem pending_congr {t u : Tables} (h : t.events = u.events) (cursor : EventId) :
    t.pending cursor = u.pending cursor := by
  unfold Tables.pending
  rw [h]

section Draining

variable {last : EventId} {p : List Event} {limit : Nat}

/-- A step that is no poll that succeeds takes nothing. -/
theorem Draining.rests (hd : Draining n last c₀ p limit h x.before) (hw : Watched n x.after)
    (hprofile : x.after.profile n = x.before.profile n)
    (hsame : x.after.visible.events = x.before.visible.events) (hs : x.served = false)
    (hcur : x.after.cursor n = x.before.cursor n) : Draining n last c₀ p limit (h ++ [x]) x.after where
  watched := hw
  profile := hprofile.trans hd.profile
  events := hsame.trans hd.events
  reached := hcur ▸ hd.reached
  pending := by
    rw [served_concat, hs, hcur, pending_congr hsame]
    simpa using hd.pending
  batches := by
    rw [served_concat, hs]
    simpa using hd.batches

/-- A poll that succeeds takes the next batch. -/
theorem Draining.takes (hd : Draining n last c₀ p limit h x.before) (hw : Watched n x.after)
    (hprofile : x.after.profile n = x.before.profile n)
    (hsame : x.after.visible.events = x.before.visible.events) (hs : x.served = true)
    (hsorted : c₀.visible.events.Pairwise (·.id < ·.id)) (hbound : ∀ e ∈ c₀.visible.events, e.id ≤ last)
    (hb : x.batch = (x.before.visible.pending (x.before.cursor n)).take limit)
    (hcur : x.after.cursor n = Worker.cursorAfter (x.before.cursor n) x.batch) :
    Draining n last c₀ p limit (h ++ [x]) x.after where
  watched := hw
  profile := hprofile.trans hd.profile
  events := hsame.trans hd.events
  reached := by
    rcases Worker.cursorAfter_cases (x.before.cursor n) x.batch with hkeep | ⟨e, he, hmoved⟩
    · exact (hcur.trans hkeep) ▸ hd.reached
    · rw [hb] at he
      have hin := (Tables.mem_pending.mp (List.mem_of_mem_take he)).1
      exact (hcur.trans hmoved) ▸ hbound e (hd.events ▸ hin)
  pending := by
    have hascending : x.before.visible.events.Pairwise (·.id < ·.id) := hd.events ▸ hsorted
    rw [pending_congr hsame, hcur, hb, Worker.pending_cursorAfter hascending, hd.pending,
      List.drop_drop, served_concat, hs]
    simp [Nat.mul_succ]
  batches := by
    rw [served_concat, hs, if_pos rfl, List.map_append, hd.batches]
    simp [hb, hd.pending, List.range_succ]

/-- While local reads see the same events, each poll that succeeds takes the next batch of them. -/
theorem run_drains (hrun : Run (fun _ _ i => LogInput n i) c₀ h c) (hw : Watched n c₀)
    (hsorted : c₀.visible.events.Pairwise (·.id < ·.id)) (hlast : last.toNat + 1 < UInt64.size)
    (hbound : ∀ e ∈ c₀.visible.events, e.id ≤ last) (hcur : c₀.cursor n ≤ last)
    (hsame : ∀ x ∈ h, x.after.visible.events = x.before.visible.events)
    (hp : c₀.visible.pending (c₀.cursor n) = p) (hlimit : (c₀.profile n).worker.limit = limit) :
    Draining n last c₀ p limit h c := by
  induction hrun with
  | start => exact ⟨hw, rfl, rfl, hcur, by simpa using hp, rfl⟩
  | @step h c hrun i hk hi hov ih =>
    have hd : Draining n last c₀ p limit h (c.take i).before :=
      ih fun x hx => hsame x (List.mem_append_left _ hx)
    obtain ⟨hturn, hwatched, hprofile⟩ := hd.watched.take hi hov
    have hsame' : (c.take i).after.visible.events = (c.take i).before.visible.events :=
      hsame (c.take i) (by simp)
    cases hturn with
    | appends _ _ hs _ hc => exact hd.rests hwatched hprofile hsame' hs hc
    | retains _ _ _ _ hs _ hc => exact hd.rests hwatched hprofile hsame' hs hc
    | views _ _ _ hs _ hc => exact hd.rests hwatched hprofile hsame' hs hc
    | reads _ _ _ _ hs hb hc =>
      have hcursor : (c.cursor n).toNat + 1 < UInt64.size := by
        have hle := UInt64.le_iff_toNat_le.mp hd.reached
        change (c.cursor n).toNat ≤ last.toNat at hle
        omega
      refine hd.takes hwatched hprofile hsame' hs hsorted hbound ?_ hc
      rw [← hlimit, ← hd.profile]
      exact hb.trans (fetched_eq hd.watched.order hcursor)

end Draining

/-- A window of a list is empty from the rounded up number of windows on. -/
theorem window_ne_nil {limit j : Nat} (hlimit : 1 ≤ limit) (p : List Event) :
    (p.drop (limit * j)).take limit ≠ [] ↔ j < (p.length + limit - 1) / limit := by
  rw [ne_eq, List.take_eq_nil_iff, List.drop_eq_nil_iff, Nat.lt_iff_add_one_le,
    Nat.le_div_iff_mul_le (by omega), Nat.add_mul, Nat.one_mul, Nat.mul_comm j limit]
  omega

/-- What a worker makes of the log over a run from an empty one. -/
structure ReadsOnce (n : Nat) (h : List Taken) (c : Cluster) : Prop where
  /-- Ids increase from append to append, whatever was deleted in between. -/
  appended : (h.flatMap Taken.appended).Pairwise (·.id < ·.id)
  fetched : (h.flatMap Taken.batch).Pairwise (·.id < ·.id)
  real : ∀ e ∈ h.flatMap Taken.batch, e ∈ h.flatMap Taken.appended
  accounted : ∀ e ∈ h.flatMap Taken.appended, e.id ≤ c.cursor n →
    e ∈ h.flatMap Taken.batch ∨ Lost n h e
  /-- A poll that fails reads its cursor, asks the store in vain and does nothing else. -/
  failing : ∀ x ∈ h, x.failed = true → x.after.cursor n = x.before.cursor n ∧
    x.after.world.store = x.before.world.store ∧
    x.before.polling n = [⟨.cursor, x.before.cursor n⟩,
      ⟨.store (some (x.before.profile n).limits.store) (.eventsAfter (x.before.cursor n)
        (x.before.profile n).worker.limit (x.before.profile n).worker.order .stale),
        .error .unreachable⟩]
  advancing : ∀ x ∈ h, x.before.cursor n ≤ x.after.cursor n
  /-- While the visible events stay the same, just enough of the polls that succeed fetch some. -/
  draining : ∀ h' c', Run (fun _ _ i => LogInput n i) c h' c' →
    (∀ x ∈ h', x.after.visible.events = x.before.visible.events) →
    ∀ (j : Nat) (hj : j < (h'.filter Taken.served).length),
      ((h'.filter Taken.served)[j].batch ≠ [] ↔
        j < ((c.visible.pending (c.cursor n)).length + (c.profile n).worker.limit - 1) /
          (c.profile n).worker.limit)

/-- Over every run of appends, retention, lag, outages and polls from an empty store, a worker
reads the log once and in order. -/
theorem reads_once_in_order (hw : Watched n c₀) (hlive : c₀.world.store.live = .empty)
    (hfrozen : c₀.world.store.frozen = none) (hcursor : c₀.cursor n = 0)
    (hrun : Run (fun _ _ i => LogInput n i) c₀ h c)
    (hfew : (h.flatMap Taken.appended).length < UInt64.size - 1) : ReadsOnce n h c := by
  have h₀ : Consumed n [] c₀ := consumed_start hlive hfrozen hcursor
  obtain ⟨hwatched, hprofile, hconsumed⟩ := run_consumed hrun hw h₀ hfew
  -- Every step of the run started where the run before it had led.
  have hentry : ∀ x ∈ h, Watched n x.before ∧ LogInput n x.input ∧
      (x.before.apply x.input).2 ≠ .overflow ∧ x = x.before.take x.input := by
    intro x hx
    obtain ⟨h₁, h₂, rfl, hrun₁, -, hi, hov, heq⟩ := hrun.mem hx
    rw [List.flatMap_append, List.length_append] at hfew
    exact ⟨(run_consumed hrun₁ hw h₀ (by omega)).1, hi, hov, heq⟩
  constructor
  · exact hconsumed.ascending
  · exact hconsumed.once
  · exact fun e he => (hconsumed.passed e he).1
  · exact hconsumed.accounted
  · intro x hx hfailed
    obtain ⟨hwatched', hi, hov, heq⟩ := hentry x hx
    rw [heq] at hfailed ⊢
    obtain ⟨ha, hstore, hcur⟩ := failed_poll hwatched' hi hov hfailed
    exact ⟨hcur, hstore, polling_unavailable hwatched'.steady.faults ha⟩
  · intro x hx
    obtain ⟨hwatched', hi, hov, heq⟩ := hentry x hx
    rw [heq]
    exact (hwatched'.take hi hov).1.cursor_le
  · intro h' c' hrun' hsame j hj
    have hlast : c.visible.lastEventId.toNat + 1 < UInt64.size := by
      have hle := UInt64.le_iff_toNat_le.mp hconsumed.behind
      rw [hconsumed.count] at hle
      omega
    have hdrained := run_drains hrun' hwatched hconsumed.seen.logged.sorted hlast
      hconsumed.seen.logged.bounded hconsumed.reached hsame rfl rfl
    have hbatch : (h'.filter Taken.served)[j].batch =
        ((c.visible.pending (c.cursor n)).drop ((c.profile n).worker.limit * j)).take
          (c.profile n).worker.limit := by
      have hget := congrArg (·[j]?) hdrained.batches
      simpa [hj] using hget
    rw [hbatch]
    exact window_ne_nil hwatched.limit _

/-- A node reads one event at a time; of two events retention deletes the first. -/
theorem reads_once_after_retention :
    let c₀ := Cluster.start [⟨⟨"n1"⟩, ⟨2000, 2000⟩, ⟨1, .oldestFirst⟩⟩] default
    let early : Input := .appendEventAt default default
    let late : Input := .appendEventAt default ⟨5, 0⟩
    let retention : Input := .call (.deleteEventsBefore ⟨3, 0⟩)
    let c₁ := (c₀.apply early).1
    let c₂ := (c₁.apply late).1
    let c₃ := (c₂.apply retention).1
    let h := [c₀.take early, c₁.take late, c₂.take retention, c₃.take (.poll 0)]
    h.flatMap Taken.batch = [⟨2, default, ⟨5, 0⟩⟩] ∧ ReadsOnce 0 h (c₃.apply (.poll 0)).1 := by
  intro c₀ early late retention c₁ c₂ c₃ h
  have hw : Watched 0 c₀ := ⟨start_steady _ _, by decide, rfl, by decide⟩
  have hrun₁ : Run (fun _ _ i => LogInput 0 i) c₀ [c₀.take early] c₁ :=
    .step .start early trivial trivial (ne_overflow rfl)
  have hrun₂ : Run (fun _ _ i => LogInput 0 i) c₀ [c₀.take early, c₁.take late] c₂ :=
    .step hrun₁ late trivial trivial (ne_overflow rfl)
  have hrun₃ : Run (fun _ _ i => LogInput 0 i) c₀
      [c₀.take early, c₁.take late, c₂.take retention] c₃ :=
    .step hrun₂ retention trivial trivial (ne_overflow (by decide +kernel))
  have hrun : Run (fun _ _ i => LogInput 0 i) c₀ h (c₃.apply (.poll 0)).1 :=
    .step hrun₃ (.poll 0) Nat.one_pos rfl (ne_overflow (by decide +kernel))
  exact ⟨by decide +kernel, reads_once_in_order hw rfl rfl rfl hrun (by decide +kernel)⟩

end Cluster

end ConfigRegistry
