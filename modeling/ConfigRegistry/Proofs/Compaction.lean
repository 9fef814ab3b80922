import ConfigRegistry.Event
import Mathlib.Data.List.Dedup
import Mathlib.Data.List.FinRange

/-!
# Compaction of batches

Compaction keeps an event exactly if no later event of the batch has its key
(`Event.LastOfKey`), so what is kept has every key of the batch, once. A scan from the end
that remembers the keys it has seen (`Event.unseen`) keeps the same events. A batch may be
compacted in parts: what the part behind has a key of is dropped from the part in front.
-/

namespace ConfigRegistry.Event

/-- No later event of a batch has the key of the one at a position. -/
def LastOfKey (events : List Event) (i : Fin events.length) : Prop :=
  ∀ j : Fin events.length, i < j → events[j].key ≠ events[i].key

instance (events : List Event) (i : Fin events.length) : Decidable (LastOfKey events i) :=
  inferInstanceAs (Decidable (∀ j : Fin events.length, i < j → events[j].key ≠ events[i].key))

/-- The events whose key was not seen before, from the first one on. -/
def unseen (seen : List (EventTopic × ModuleId)) : List Event → List Event
  | [] => []
  | e :: rest => if e.key ∈ seen then unseen seen rest else e :: unseen (e.key :: seen) rest

variable {e : Event} {events more : List Event}

theorem compact_cons_of_mem (h : e.key ∈ events.map key) : compact (e :: events) = compact events := by
  rw [compact, if_pos]
  simpa using h

theorem compact_cons_of_notMem (h : e.key ∉ events.map key) :
    compact (e :: events) = e :: compact events := by
  rw [compact, if_neg]
  simpa using h

/-- The keys of what is kept are those of the batch, each where it stands last. -/
theorem map_key_compact (events : List Event) :
    (compact events).map key = (events.map key).dedup := by
  induction events with
  | nil => rfl
  | cons e rest ih =>
    by_cases he : e.key ∈ rest.map key
    · rw [compact_cons_of_mem he, List.map_cons, List.dedup_cons_of_mem he, ih]
    · rw [compact_cons_of_notMem he, List.map_cons, List.map_cons, List.dedup_cons_of_notMem he, ih]

theorem mem_map_key_compact {k : EventTopic × ModuleId} :
    k ∈ (compact events).map key ↔ k ∈ events.map key := by
  rw [map_key_compact, List.mem_dedup]

theorem compact_sublist (events : List Event) : (compact events).Sublist events := by
  induction events with
  | nil => exact .slnil
  | cons e rest ih =>
    by_cases he : e.key ∈ rest.map key
    · rw [compact_cons_of_mem he]
      exact ih.cons e
    · rw [compact_cons_of_notMem he]
      exact ih.cons_cons e

theorem of_mem_compact (he : e ∈ compact events) : e ∈ events := (compact_sublist events).mem he

/-- Of every key that is in a batch an event is kept. -/
theorem mem_compact (he : e ∈ events) : ∃ x ∈ compact events, x.key = e.key :=
  List.mem_map.mp (mem_map_key_compact.mpr (List.mem_map_of_mem he))

theorem compact_of_nodup (h : (events.map key).Nodup) : compact events = events := by
  induction events with
  | nil => rfl
  | cons e rest ih =>
    obtain ⟨he, hrest⟩ := List.nodup_cons.mp h
    rw [compact_cons_of_notMem he, ih hrest]

theorem compact_compact (events : List Event) : compact (compact events) = compact events := by
  refine compact_of_nodup ?_
  rw [map_key_compact]
  exact List.nodup_dedup _

/-- An event of the part in front is kept unless the part behind has its key. -/
theorem compact_append (events more : List Event) :
    compact (events ++ more) =
      ((compact events).filter fun e => e.key ∉ more.map key) ++ compact more := by
  induction events with
  | nil => rfl
  | cons e rest ih =>
    have hboth : e.key ∈ (rest ++ more).map key ↔ e.key ∈ rest.map key ∨ e.key ∈ more.map key := by
      rw [List.map_append, List.mem_append]
    rw [List.cons_append]
    by_cases hrest : e.key ∈ rest.map key
    · rw [compact_cons_of_mem hrest, compact_cons_of_mem (hboth.mpr (.inl hrest)), ih]
    · rw [compact_cons_of_notMem hrest]
      by_cases hmore : e.key ∈ more.map key
      · rw [compact_cons_of_mem (hboth.mpr (.inr hmore)),
          List.filter_cons_of_neg (by simpa using hmore), ih]
      · rw [compact_cons_of_notMem (mt hboth.mp (by simp [hrest, hmore])),
          List.filter_cons_of_pos (by simpa using hmore), ih, List.cons_append]

theorem compact_append_compact (events more : List Event) :
    compact (compact events ++ compact more) = compact (events ++ more) := by
  simp only [compact_append, compact_compact, mem_map_key_compact]

/-! ## Positions -/

theorem lastOfKey_zero :
    LastOfKey (e :: events) (0 : Fin (events.length + 1)) ↔ e.key ∉ events.map key := by
  rw [LastOfKey, List.mem_map]
  constructor
  · rintro h ⟨x, hx, hkey⟩
    obtain ⟨i, hi, rfl⟩ := List.mem_iff_getElem.mp hx
    exact h (⟨i, hi⟩ : Fin events.length).succ (Fin.succ_pos _) hkey
  · intro h j hj hkey
    obtain ⟨i, rfl⟩ := Fin.exists_succ_eq.mpr (Fin.pos_iff_ne_zero.mp hj)
    exact h ⟨events[i], List.getElem_mem i.isLt, hkey⟩

theorem lastOfKey_succ {i : Fin events.length} :
    LastOfKey (e :: events) (i.succ : Fin (events.length + 1)) ↔ LastOfKey events i := by
  constructor
  · exact fun h j hj => h j.succ (Fin.succ_lt_succ_iff.mpr hj)
  · intro h j hj
    obtain ⟨j, rfl⟩ := Fin.exists_succ_eq.mpr (Fin.ne_zero_of_lt hj)
    exact h j (Fin.succ_lt_succ_iff.mp hj)

theorem compact_eq_positions (events : List Event) :
    compact events = ((List.finRange events.length).filter (LastOfKey events ·)).map events.get := by
  induction events with
  | nil => rfl
  | cons e rest ih =>
    have hrest : ((List.finRange rest.length).map Fin.succ).filter (LastOfKey (e :: rest) ·) =
        ((List.finRange rest.length).filter (LastOfKey rest ·)).map Fin.succ := by
      rw [List.filter_map]
      simp only [Function.comp_def, lastOfKey_succ]
    have hget : (List.map Fin.succ ((List.finRange rest.length).filter (LastOfKey rest ·))).map
        (e :: rest).get = compact rest := by
      rw [ih, List.map_map]
      rfl
    have hpositions : List.finRange (e :: rest).length = 0 :: (List.finRange rest.length).map Fin.succ :=
      List.finRange_succ
    rw [hpositions]
    by_cases he : e.key ∈ rest.map key
    · rw [compact_cons_of_mem he, List.filter_cons_of_neg (by simpa [lastOfKey_zero] using he),
        hrest, hget]
    · rw [compact_cons_of_notMem he, List.filter_cons_of_pos (by simpa [lastOfKey_zero] using he), hrest,
        List.map_cons, hget]
      rfl

/-! ## The scan from the end -/

theorem unseen_concat (seen : List (EventTopic × ModuleId)) (events : List Event) (e : Event) :
    unseen seen (events ++ [e]) =
      unseen seen events ++ if e.key ∈ seen ∨ e.key ∈ events.map key then [] else [e] := by
  induction events generalizing seen with
  | nil => simp [unseen]
  | cons x rest ih =>
    simp only [List.cons_append, unseen]
    by_cases hx : x.key ∈ seen
    · have hsame : e.key ∈ seen ∨ e.key ∈ (x :: rest).map key ↔ e.key ∈ seen ∨ e.key ∈ rest.map key := by
        grind
      simp only [hx, ↓reduceIte, ih, hsame]
    · have hsame : e.key ∈ seen ∨ e.key ∈ (x :: rest).map key ↔
          e.key ∈ x.key :: seen ∨ e.key ∈ rest.map key := by
        grind
      simp only [hx, ↓reduceIte, ih, hsame, List.cons_append]

theorem unseen_reverse (events : List Event) :
    unseen [] events.reverse = (compact events).reverse := by
  induction events with
  | nil => rfl
  | cons e rest ih =>
    rw [List.reverse_cons, unseen_concat, ih]
    by_cases he : e.key ∈ rest.map key
    · rw [compact_cons_of_mem he, if_pos (by simpa using he), List.append_nil]
    · rw [compact_cons_of_notMem he, if_neg (by simpa using he), List.reverse_cons]

/-! ## What is kept -/

/-- Compaction keeps the events that are the last ones of their keys, in their order, as a scan from
the end does that remembers the keys it has seen: one event for every key of the batch and no other.
It may be done again, or in parts. -/
theorem last_of_each_key_kept (events : List Event) :
    compact events = ((List.finRange events.length).filter (LastOfKey events ·)).map events.get ∧
    compact events = (unseen [] events.reverse).reverse ∧
    (∀ k, (compact events).countP (·.key = k) = if k ∈ events.map key then 1 else 0) ∧
    compact (compact events) = compact events ∧
    ∀ more, compact (events ++ more) =
        ((compact events).filter fun e => e.key ∉ more.map key) ++ compact more ∧
      compact (events ++ more) = compact (compact events ++ compact more) := by
  refine ⟨compact_eq_positions events, ?_, ?_, compact_compact events, fun more =>
    ⟨compact_append events more, (compact_append_compact events more).symm⟩⟩
  · rw [unseen_reverse, List.reverse_reverse]
  · intro k
    have hcount : (compact events).countP (·.key = k) = ((compact events).map key).count k := by
      rw [List.count, List.countP_map]
      refine List.countP_congr fun e _ => ?_
      simp
    rw [hcount, map_key_compact, (List.nodup_dedup _).count]
    simp only [List.mem_dedup]

/-- A module is ready, its config changes, it is gone; ids need not ascend. -/
example : (compact [⟨7, ⟨.moduleReady, default⟩, default⟩, ⟨7, ⟨.configUpdated, default⟩, default⟩,
    ⟨2, ⟨.moduleDisconnected, default⟩, default⟩]).map (·.payload.kind) =
    [.configUpdated, .moduleDisconnected] := by decide

end ConfigRegistry.Event
