import ConfigRegistry.Dispatch
import ConfigRegistry.Store.Tables

/-!
# The event log

The log is in strictly ascending order of ids, and no id in it exceeds the one given
out last (`Tables.Logged`); appends extend it and retention thins it out. A worker that
reads the oldest events first takes an initial part of what is pending, so its cursor
passes exactly the events it was given.
-/

namespace ConfigRegistry

theorem toNat_lt_iff {a b : UInt64} : a < b ↔ a.toNat < b.toNat := UInt64.lt_iff_toNat_lt

theorem succ_lt_size {a b : UInt64} (h : a < b) : a.toNat + 1 < UInt64.size :=
  Nat.lt_of_le_of_lt (toNat_lt_iff.mp h) b.toNat_lt

namespace Tables

/-- The log is in ascending order of ids, and the last id given out bounds it. -/
structure Logged (t : Tables) : Prop where
  sorted : t.events.Pairwise (·.id < ·.id)
  bounded : ∀ e ∈ t.events, e.id ≤ t.lastEventId

theorem empty_logged : Tables.empty.Logged where
  sorted := by simp [empty]
  bounded := by simp [empty]

/-! ## Appending -/

/-- Some events were appended, with ids above all given out before, and nothing else changed. -/
structure Extends (t : Tables) (es : List Event) (t' : Tables) : Prop where
  rest : t' = { t with lastEventId := t'.lastEventId, events := t.events ++ es }
  count : t'.lastEventId.toNat = t.lastEventId.toNat + es.length
  above : ∀ e ∈ es, t.lastEventId < e.id ∧ e.id ≤ t'.lastEventId
  sorted : es.Pairwise (·.id < ·.id)

variable {t t' t'' : Tables} {es es' : List Event} {e : Event}

theorem Extends.refl (t : Tables) : t.Extends [] t where
  rest := by simp
  count := rfl
  above := by simp
  sorted := .nil

theorem Extends.le (h : t.Extends es t') : t.lastEventId ≤ t'.lastEventId := by
  rw [UInt64.le_iff_toNat_le, h.count]
  exact Nat.le_add_right _ _

theorem Extends.trans (h : t.Extends es t') (h' : t'.Extends es' t'') : t.Extends (es ++ es') t'' where
  rest := by
    have hr := h'.rest
    rw [h.rest] at hr
    simpa using hr
  count := by
    rw [h'.count, h.count, List.length_append]
    omega
  above := by
    intro e he
    rcases List.mem_append.mp he with he | he
    · exact ⟨(h.above e he).1, UInt64.le_trans (h.above e he).2 h'.le⟩
    · exact ⟨UInt64.lt_of_le_of_lt h.le (h'.above e he).1, (h'.above e he).2⟩
  sorted := by
    refine List.pairwise_append.mpr ⟨h.sorted, h'.sorted, fun a ha b hb => ?_⟩
    exact UInt64.lt_of_le_of_lt (h.above a ha).2 (h'.above b hb).1

theorem append?_extends {p : EventPayload} {now : Timestamp} (h : t.append? p now = some (e, t')) :
    t.Extends [e] t' ∧ e.payload = p := by
  unfold append? at h
  split at h
  · rename_i hlt
    simp only [Option.some.injEq, Prod.mk.injEq] at h
    obtain ⟨rfl, rfl⟩ := h
    have hnext : (t.lastEventId + 1).toNat = t.lastEventId.toNat + 1 := by
      rw [UInt64.toNat_add]
      exact Nat.mod_eq_of_lt hlt
    refine ⟨⟨rfl, hnext, ?_, by simp⟩, rfl⟩
    intro e he
    obtain rfl := List.mem_singleton.mp he
    refine ⟨?_, UInt64.le_refl _⟩
    rw [toNat_lt_iff, hnext]
    exact Nat.lt_succ_self _
  · simp at h

theorem appendAll?_extends {ps : List EventPayload} {now : Timestamp}
    (h : appendAll? now ps t = some (es, t')) : t.Extends es t' ∧ es.map (·.payload) = ps := by
  induction ps generalizing t es t' with
  | nil =>
    simp only [appendAll?, Option.some.injEq, Prod.mk.injEq] at h
    obtain ⟨rfl, rfl⟩ := h
    exact ⟨.refl t, rfl⟩
  | cons p rest ih =>
    simp only [appendAll?, Option.bind_eq_bind, Option.bind_eq_some_iff, Option.pure_def,
      Option.some.injEq, Prod.mk.injEq, Prod.exists] at h
    obtain ⟨e, t₁, he, es₁, t₂, hes, rfl, rfl⟩ := h
    obtain ⟨hx, hp⟩ := append?_extends he
    obtain ⟨hxs, hps⟩ := ih hes
    exact ⟨hx.trans hxs, by simp [hp, hps]⟩

theorem Extends.events (h : t.Extends es t') : t'.events = t.events ++ es := by
  rw [h.rest]

theorem Extends.logged (h : t.Extends es t') (ht : t.Logged) : t'.Logged where
  sorted := by
    rw [h.events]
    refine List.pairwise_append.mpr ⟨ht.sorted, h.sorted, fun a ha b hb => ?_⟩
    exact UInt64.lt_of_le_of_lt (ht.bounded a ha) (h.above b hb).1
  bounded := by
    intro e he
    rw [h.events] at he
    rcases List.mem_append.mp he with he | he
    · exact UInt64.le_trans (ht.bounded e he) h.le
    · exact (h.above e he).2

/-! ## Retention -/

theorem mem_deleteEventsBefore {before : Timestamp} :
    e ∈ (t.deleteEventsBefore before).2.events ↔ e ∈ t.events ∧ e.createdAt.isBefore before = false := by
  simp [deleteEventsBefore]

theorem deleteEventsBefore_logged (before : Timestamp) (ht : t.Logged) :
    (t.deleteEventsBefore before).2.Logged where
  sorted := ht.sorted.filter _
  bounded := fun e he => ht.bounded e (mem_deleteEventsBefore.mp he).1

/-! ## Reading -/

/-- The events above a cursor. -/
def pending (cursor : EventId) (t : Tables) : List Event := t.events.filter fun e => cursor < e.id

theorem mem_pending {cursor : EventId} : e ∈ t.pending cursor ↔ e ∈ t.events ∧ cursor < e.id := by
  simp [pending]

/-- The events that a read behind a cursor reaches. The last id there is has none behind it, so a
cursor there reaches the event of this id again. -/
def due (cursor : EventId) (t : Tables) : List Event :=
  t.events.filter fun e => min (cursor.toNat + 1) (UInt64.size - 1) ≤ e.id.toNat

theorem eventsAfter_eq (cursor : EventId) (limit : Nat) (order : FetchOrder) (t : Tables) :
    t.eventsAfter cursor limit order = match order with
      | .oldestFirst => (t.due cursor).take limit
      | .newestFirst => (t.due cursor).reverse.take limit := rfl

theorem of_mem_eventsAfter {cursor : EventId} {limit : Nat} {order : FetchOrder}
    (he : e ∈ t.eventsAfter cursor limit order) : e ∈ t.due cursor := by
  rw [eventsAfter_eq] at he
  cases order with
  | oldestFirst => exact List.mem_of_mem_take he
  | newestFirst => exact List.mem_reverse.mp (List.mem_of_mem_take he)

theorem mem_due {cursor : EventId} (he : e ∈ t.due cursor) :
    e ∈ t.events ∧ (cursor < e.id ∨ e.id.toNat + 1 = UInt64.size) := by
  obtain ⟨hmem, hfirst⟩ := List.mem_filter.mp he
  have hle : min (cursor.toNat + 1) (UInt64.size - 1) ≤ e.id.toNat := of_decide_eq_true hfirst
  have hlt : e.id.toNat < UInt64.size := e.id.toNat_lt
  refine ⟨hmem, ?_⟩
  rw [toNat_lt_iff]
  omega

theorem mem_due_of_last {cursor : EventId} (he : e ∈ t.events) (hlast : e.id.toNat + 1 = UInt64.size) :
    e ∈ t.due cursor :=
  List.mem_filter.mpr ⟨he, decide_eq_true (by omega)⟩

theorem due_eq_pending {cursor : EventId} (hc : cursor.toNat + 1 < UInt64.size) :
    t.due cursor = t.pending cursor := by
  have hfirst : min (cursor.toNat + 1) (UInt64.size - 1) = cursor.toNat + 1 := by omega
  refine List.filter_congr fun e _ => ?_
  rw [hfirst, decide_eq_decide, toNat_lt_iff]
  exact Nat.succ_le_iff

/-- Without an event of the last id there is, nothing is reached twice. -/
theorem due_eq_pending_of_below {cursor : EventId}
    (hbelow : ∀ e ∈ t.events, e.id.toNat + 1 < UInt64.size) : t.due cursor = t.pending cursor := by
  by_cases hc : cursor.toNat + 1 < UInt64.size
  · exact due_eq_pending hc
  · have hdue : t.due cursor = [] := by
      refine List.eq_nil_iff_forall_not_mem.mpr fun e he => ?_
      obtain ⟨hmem, hlt | hlast⟩ := mem_due he
      · exact hc (succ_lt_size hlt)
      · exact Nat.ne_of_lt (hbelow e hmem) hlast
    have hpending : t.pending cursor = [] := by
      refine List.eq_nil_iff_forall_not_mem.mpr fun e he => ?_
      exact hc (succ_lt_size (mem_pending.mp he).2)
    rw [hdue, hpending]

/-- Behind the last id there is, the event of this id is reached if any. -/
theorem length_due_le {cursor : EventId} (ht : t.events.Pairwise (·.id < ·.id))
    (hc : ¬ cursor.toNat + 1 < UInt64.size) : (t.due cursor).length ≤ 1 := by
  have hsorted : (t.due cursor).Pairwise (·.id < ·.id) := ht.filter _
  have hlast : ∀ e ∈ t.due cursor, e.id.toNat + 1 = UInt64.size := by
    intro e he
    exact (mem_due he).2.resolve_left fun hlt => hc (succ_lt_size hlt)
  generalize t.due cursor = es at hsorted hlast
  match es with
  | [] | [_] => simp
  | a :: b :: _ =>
    have hlt : a.id < b.id := (List.pairwise_cons.mp hsorted).1 b List.mem_cons_self
    have ha := hlast a List.mem_cons_self
    have hb := hlast b (List.mem_cons_of_mem a List.mem_cons_self)
    rw [toNat_lt_iff] at hlt
    omega

theorem length_due_le_limit {cursor : EventId} {limit : Nat} (ht : t.events.Pairwise (·.id < ·.id))
    (hl : 1 ≤ limit) (hp : (t.pending cursor).length ≤ limit) : (t.due cursor).length ≤ limit := by
  by_cases hc : cursor.toNat + 1 < UInt64.size
  · rwa [due_eq_pending hc]
  · exact Nat.le_trans (length_due_le ht hc) hl

theorem eventsAfter_eq_nil {cursor : EventId} {limit : Nat} {order : FetchOrder} (hl : 1 ≤ limit) :
    t.eventsAfter cursor limit order = [] ↔ t.due cursor = [] := by
  have hne : limit ≠ 0 := by omega
  rw [eventsAfter_eq]
  cases order <;> simp [List.take_eq_nil_iff, hne]

/-- Nothing lies behind the highest id of the log, but the event of the last id there is is
reached again. -/
theorem due_eq_nil {top : EventId} (htop : ∃ e ∈ t.events, e.id = top)
    (hmax : ∀ e ∈ t.events, e.id ≤ top) : t.due top = [] ↔ top.toNat + 1 < UInt64.size := by
  constructor
  · intro hnone
    obtain ⟨e, he, rfl⟩ := htop
    have hnot := List.filter_eq_nil_iff.mp hnone e he
    rw [decide_eq_true_iff] at hnot
    omega
  · intro hc
    rw [due_eq_pending hc, pending, List.filter_eq_nil_iff]
    intro e he
    rw [decide_eq_true_iff]
    exact UInt64.not_lt.mpr (hmax e he)

/-- Below the highest id, a read of the oldest events is an initial part of what is pending. -/
theorem eventsAfter_oldestFirst {cursor : EventId} (limit : Nat)
    (hc : cursor.toNat + 1 < UInt64.size) :
    t.eventsAfter cursor limit .oldestFirst = (t.pending cursor).take limit := by
  rw [eventsAfter_eq, due_eq_pending hc]

/-- Below the highest id, a read of the newest events is the last part of what is pending, turned
around. -/
theorem eventsAfter_newestFirst {cursor : EventId} (limit : Nat)
    (hc : cursor.toNat + 1 < UInt64.size) :
    t.eventsAfter cursor limit .newestFirst =
      ((t.pending cursor).drop ((t.pending cursor).length - limit)).reverse := by
  rw [eventsAfter_eq, due_eq_pending hc, List.take_reverse]

end Tables

namespace Store

variable {s st : Store} {now : Timestamp}

theorem serve_appendEvent {p : EventPayload} {e : Event}
    (h : s.serve now (.appendEvent p) = .ok e st) :
    ∃ t, s.live.Extends [e] t ∧ e.payload = p ∧ st = { s with live := t } := by
  obtain ⟨t, ht, rfl⟩ := ofWrite_ok h
  exact ⟨t, (Tables.append?_extends ht).1, (Tables.append?_extends ht).2, rfl⟩

theorem serve_appendEvents {ps : List EventPayload} {es : List Event}
    (h : s.serve now (.appendEvents ps) = .ok es st) :
    ∃ t, s.live.Extends es t ∧ es.map (·.payload) = ps ∧ st = { s with live := t } := by
  obtain ⟨t, ht, rfl⟩ := ofWrite_ok h
  exact ⟨t, (Tables.appendAll?_extends ht).1, (Tables.appendAll?_extends ht).2, rfl⟩

end Store

/-! ## The cursor -/

namespace Worker

variable {t : Tables} {cursor : EventId} {e : Event} {es : List Event}

theorem max_eq (a b : EventId) : max a b = if a ≤ b then b else a := rfl

theorem le_max (a b : EventId) : a ≤ max a b ∧ b ≤ max a b := by
  rw [max_eq]
  simp only [UInt64.le_iff_toNat_le]
  split <;> omega

theorem le_cursorAfter (cursor : EventId) (es : List Event) : cursor ≤ cursorAfter cursor es := by
  unfold cursorAfter
  induction es generalizing cursor with
  | nil => exact UInt64.le_refl _
  | cons e rest ih => exact UInt64.le_trans (le_max cursor e.id).1 (ih (max cursor e.id))

theorem id_le_cursorAfter (he : e ∈ es) : e.id ≤ cursorAfter cursor es := by
  unfold cursorAfter
  induction es generalizing cursor with
  | nil => simp at he
  | cons x rest ih =>
    rcases List.mem_cons.mp he with rfl | he
    · exact UInt64.le_trans (le_max cursor e.id).2 (le_cursorAfter (max cursor e.id) rest)
    · exact ih he

theorem cursorAfter_cases (cursor : EventId) (es : List Event) :
    cursorAfter cursor es = cursor ∨ ∃ e ∈ es, cursorAfter cursor es = e.id := by
  unfold cursorAfter
  induction es generalizing cursor with
  | nil => exact .inl rfl
  | cons x rest ih =>
    rcases ih (max cursor x.id) with h | ⟨e, he, h⟩
    · rw [List.foldl_cons, h, max_eq]
      by_cases hx : cursor ≤ x.id
      · exact .inr ⟨x, List.mem_cons_self, if_pos hx⟩
      · exact .inl (if_neg hx)
    · exact .inr ⟨e, List.mem_cons_of_mem x he, by rw [List.foldl_cons, h]⟩

theorem cursorAfter_le {bound : EventId} (hc : cursor ≤ bound) (hes : ∀ e ∈ es, e.id ≤ bound) :
    cursorAfter cursor es ≤ bound := by
  rcases cursorAfter_cases cursor es with h | ⟨e, he, h⟩ <;> rw [h]
  · exact hc
  · exact hes e he

/-- The order of a batch does not matter to the cursor behind it. -/
theorem cursorAfter_reverse (cursor : EventId) (es : List Event) :
    cursorAfter cursor es.reverse = cursorAfter cursor es := by
  refine UInt64.le_antisymm ?_ ?_
  · exact cursorAfter_le (le_cursorAfter _ _) fun e he => id_le_cursorAfter (List.mem_reverse.mp he)
  · exact cursorAfter_le (le_cursorAfter _ _) fun e he => id_le_cursorAfter (List.mem_reverse.mpr he)

/-- Behind the highest events that are pending the cursor is at the highest id of the log. -/
theorem cursorAfter_highest {lower : List Event} (hp : t.pending cursor = lower ++ es)
    (habove : ∀ e ∈ lower, ∀ x ∈ es, e.id < x.id) (hsome : es ≠ []) :
    (∃ e ∈ es, e.id = cursorAfter cursor es) ∧ ∀ e ∈ t.events, e.id ≤ cursorAfter cursor es := by
  obtain ⟨x, hx⟩ := List.exists_mem_of_ne_nil es hsome
  have hle : x.id ≤ cursorAfter cursor es := id_le_cursorAfter hx
  have hlt : cursor < x.id :=
    (Tables.mem_pending.mp (hp ▸ List.mem_append_right lower hx : x ∈ t.pending cursor)).2
  constructor
  · rcases cursorAfter_cases cursor es with h | ⟨e, he, h⟩
    · rw [h] at hle
      exact absurd hlt (UInt64.not_lt.mpr hle)
    · exact ⟨e, he, h.symm⟩
  · intro e he
    by_cases hc : cursor < e.id
    · have hpending : e ∈ lower ++ es := hp ▸ Tables.mem_pending.mpr ⟨he, hc⟩
      rcases List.mem_append.mp hpending with he | he
      · exact UInt64.le_trans (UInt64.le_of_lt (habove e he x hx)) hle
      · exact id_le_cursorAfter he
    · exact UInt64.le_trans (UInt64.not_lt.mp hc) (le_cursorAfter _ _)

/-- The batch that is read next holds what is pending up to the cursor behind it. -/
theorem mem_batch (ht : t.events.Pairwise (·.id < ·.id)) (limit : Nat) :
    e ∈ (t.pending cursor).take limit ↔ e ∈ t.events ∧ cursor < e.id ∧
      e.id ≤ cursorAfter cursor ((t.pending cursor).take limit) := by
  constructor
  · intro he
    obtain ⟨hmem, hlt⟩ := Tables.mem_pending.mp (List.mem_of_mem_take he)
    exact ⟨hmem, hlt, id_le_cursorAfter he⟩
  · rintro ⟨hmem, hlt, hle⟩
    have hpending : e ∈ t.pending cursor := Tables.mem_pending.mpr ⟨hmem, hlt⟩
    rw [← List.take_append_drop limit (t.pending cursor)] at hpending
    rcases List.mem_append.mp hpending with he | he
    · exact he
    · have hsorted : (t.pending cursor).Pairwise (·.id < ·.id) := ht.filter _
      rw [← List.take_append_drop limit (t.pending cursor)] at hsorted
      have hbelow := (List.pairwise_append.mp hsorted).2.2
      rcases cursorAfter_cases cursor ((t.pending cursor).take limit) with h | ⟨x, hx, h⟩
      · rw [h] at hle
        exact absurd hlt (UInt64.not_lt.mpr hle)
      · rw [h] at hle
        exact absurd (hbelow x hx e he) (UInt64.not_lt.mpr hle)

/-- Behind a batch the rest is pending. -/
theorem pending_cursorAfter (ht : t.events.Pairwise (·.id < ·.id)) (limit : Nat) :
    t.pending (cursorAfter cursor ((t.pending cursor).take limit)) =
      (t.pending cursor).drop limit := by
  have hsorted : (t.pending cursor).Pairwise (·.id < ·.id) := ht.filter _
  generalize hc : cursorAfter cursor ((t.pending cursor).take limit) = cursor'
  have hle : cursor ≤ cursor' := hc ▸ le_cursorAfter _ _
  -- What is pending behind the batch was pending before: no event of the batch, all of the rest.
  have hfilter : t.pending cursor' = (t.pending cursor).filter fun e => cursor' < e.id := by
    unfold Tables.pending
    rw [List.filter_filter]
    refine List.filter_congr fun e _ => ?_
    by_cases h : cursor' < e.id
    · simp [h, UInt64.lt_of_le_of_lt hle h]
    · simp [h]
  have htake : ((t.pending cursor).take limit).filter (fun e => cursor' < e.id) = [] := by
    rw [List.filter_eq_nil_iff]
    intro e he
    have hle : e.id ≤ cursorAfter cursor ((t.pending cursor).take limit) := id_le_cursorAfter he
    simpa [hc] using hle
  have hdrop : ((t.pending cursor).drop limit).filter (fun e => cursor' < e.id) =
      (t.pending cursor).drop limit := by
    rw [List.filter_eq_self]
    intro e he
    have hmem := Tables.mem_pending.mp (List.mem_of_mem_drop he)
    have hnot : e ∉ (t.pending cursor).take limit := by
      intro htake
      rw [← List.take_append_drop limit (t.pending cursor)] at hsorted
      exact UInt64.lt_irrefl _ ((List.pairwise_append.mp hsorted).2.2 e htake e he)
    by_cases hlt : cursor' < e.id
    · simp [hlt]
    · have hbatch := (mem_batch ht limit).mpr ⟨hmem.1, hmem.2, hc ▸ UInt64.not_lt.mp hlt⟩
      exact absurd hbatch hnot
  calc t.pending cursor'
      = ((t.pending cursor).take limit ++ (t.pending cursor).drop limit).filter
          fun e => cursor' < e.id := by rw [List.take_append_drop, hfilter]
    _ = (t.pending cursor).drop limit := by
        rw [List.filter_append, htake, hdrop, List.nil_append]

end Worker

end ConfigRegistry
