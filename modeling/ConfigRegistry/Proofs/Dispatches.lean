import ConfigRegistry.Proofs.Compaction
import ConfigRegistry.Proofs.Notifications
import Mathlib.Data.Finset.Card

/-!
# What a batch calls for

A batch asks for one notification after the other, whatever comes of those before it
(`Dispatch.batch_eq`); failures show in its report alone. A compacted batch asks for the same
notifications without the repeats, so every subscriber is told once.
-/

namespace ConfigRegistry

namespace Notification

/-- What events of a key call for. -/
def ofKey : EventTopic × ModuleId → Notification
  | (.config, m) => .config m
  | (.backends, m) => .backends m

theorem ofEvent_eq (e : Event) : ofEvent e = ofKey e.key := by
  simp only [ofEvent, ofKey, Event.key]
  cases e.topic <;> rfl

theorem ofKey_injective : Function.Injective ofKey := by
  rintro ⟨_ | _, m⟩ ⟨_ | _, m'⟩ h <;> cases h <;> rfl

theorem ofKey_ne_routing (k : EventTopic × ModuleId) : ofKey k ≠ .routing := by
  obtain ⟨_ | _, m⟩ := k <;> exact nofun

end Notification

/-- Whether an event says that a backend came or went. -/
def Event.OfBackends (e : Event) : Prop :=
  e.payload.kind = .moduleReady ∨ e.payload.kind = .moduleDisconnected

instance (e : Event) : Decidable e.OfBackends :=
  inferInstanceAs (Decidable (e.payload.kind = .moduleReady ∨ e.payload.kind = .moduleDisconnected))

theorem Event.topic_eq_backends (e : Event) : e.topic = .backends ↔ e.OfBackends := by
  unfold Event.topic Event.OfBackends
  cases e.payload.kind <;> simp [EventKind.topic]

namespace Dispatch

variable {m : Type → Type} [Monad m] {events : List Event}

/-! ## Calls -/

theorem changesRouting_iff : changesRouting events = true ↔ ∃ e ∈ events, e.OfBackends := by
  simp [changesRouting, Event.topic_eq_backends]

theorem changesRouting_compact (events : List Event) :
    changesRouting (Event.compact events) = changesRouting events := by
  rw [Bool.eq_iff_iff]
  simp only [changesRouting, List.any_eq_true, decide_eq_true_eq]
  constructor
  · rintro ⟨e, he, htopic⟩
    exact ⟨e, Event.of_mem_compact he, htopic⟩
  · rintro ⟨e, he, htopic⟩
    obtain ⟨x, hx, hkey⟩ := Event.mem_compact he
    exact ⟨x, hx, (congrArg Prod.fst hkey).trans htopic⟩

theorem map_ofEvent (events : List Event) :
    events.map Notification.ofEvent = (events.map Event.key).map Notification.ofKey := by
  rw [List.map_map]
  exact List.map_congr_left fun e _ => Notification.ofEvent_eq e

theorem routing_notMem (events : List Event) :
    Notification.routing ∉ events.map Notification.ofEvent := by
  rw [map_ofEvent]
  intro h
  obtain ⟨k, -, hk⟩ := List.mem_map.mp h
  exact Notification.ofKey_ne_routing k hk

theorem map_ofEvent_compact (events : List Event) :
    (Event.compact events).map Notification.ofEvent = (events.map Notification.ofEvent).dedup := by
  rw [map_ofEvent, map_ofEvent, Event.map_key_compact,
    List.dedup_map_of_injective Notification.ofKey_injective]

/-- A compacted batch calls for the same without the repeats. -/
theorem calls_compact (events : List Event) : calls (Event.compact events) = (calls events).dedup := by
  have hdisjoint : List.Disjoint (events.map Notification.ofEvent)
      (if changesRouting events then [.routing] else []) := by
    split
    · exact List.disjoint_singleton.mpr (routing_notMem events)
    · exact List.disjoint_nil_right _
  rw [calls, calls, hdisjoint.dedup_append, map_ofEvent_compact, changesRouting_compact]
  split <;> rfl

/-! ## Outcomes -/

/-- Every event is notified of in order, and failures are only counted. -/
theorem each_eq [LawfulMonad m] (notify : Notification → m Bool) (events : List Event) :
    each notify events =
      (fun sent => sent.countP (! ·)) <$> (events.map Notification.ofEvent).mapM notify := by
  induction events with
  | nil => simp [each]
  | cons e rest ih =>
    simp only [each, ih, List.map_cons, List.mapM_cons, map_bind, map_pure, bind_map_left]
    refine bind_congr fun sent => bind_congr fun more => ?_
    cases sent <;> simp

/-- A batch asks for its calls one after the other; what comes of them shows in the report alone. -/
theorem batch_eq [LawfulMonad m] (notify : Notification → m Bool) (events : List Event) :
    batch notify events =
      (fun sent => ⟨events.length, sent.countP (! ·), changesRouting events⟩) <$>
        (calls events).mapM notify := by
  rw [batch, each_eq, calls]
  cases changesRouting events with
  | false => simp
  | true =>
    simp only [List.mapM_append, List.mapM_cons, List.mapM_nil, map_bind, map_pure, bind_map_left,
      bind_assoc, pure_bind, ↓reduceIte]
    refine bind_congr fun sent => bind_congr fun last => ?_
    cases last <;> simp

/-! ## Notifiers that are watched -/

/-- A notifier that records what it is asked for. Whether it succeeds is decided by that and by what
it was asked for before. -/
def recorded (succeeds : List Notification → Notification → Bool) (k : Notification) :
    StateT (List Notification) m Bool :=
  fun made => pure (succeeds made k, made ++ [k])

/-- Which of the notifications succeed that a recorded notifier is asked for in a row. -/
def outcomes (succeeds : List Notification → Notification → Bool) :
    List Notification → List Notification → List Bool
  | _, [] => []
  | made, k :: ks => succeeds made k :: outcomes succeeds (made ++ [k]) ks

/-- What is reported of a batch, and what its notifier was asked for. -/
def observed (succeeds : List Notification → Notification → Bool) (events : List Event) :
    DispatchReport × List Notification :=
  Id.run ((batch (recorded succeeds) events).run [])

variable {succeeds : List Notification → Notification → Bool}

theorem mapM_recorded [LawfulMonad m] (made ks : List Notification) :
    (ks.mapM (recorded succeeds)).run made =
      (pure (outcomes succeeds made ks, made ++ ks) : m (List Bool × List Notification)) := by
  induction ks generalizing made with
  | nil => simp [outcomes]
  | cons k ks ih =>
    have hone : (recorded succeeds k).run made =
        (pure (succeeds made k, made ++ [k]) : m (Bool × List Notification)) := rfl
    simp [List.mapM_cons, hone, ih, outcomes]

theorem batch_recorded [LawfulMonad m] (made : List Notification) (events : List Event) :
    (batch (recorded succeeds) events).run made =
      (pure (⟨events.length, (outcomes succeeds made (calls events)).countP (! ·),
        changesRouting events⟩, made ++ calls events) : m (DispatchReport × List Notification)) := by
  rw [batch_eq, StateT.run_map, mapM_recorded, map_pure]

theorem observed_eq (succeeds : List Notification → Notification → Bool) (events : List Event) :
    observed succeeds events = (⟨events.length, (outcomes succeeds [] (calls events)).countP (! ·),
      changesRouting events⟩, calls events) := by
  rw [observed, batch_recorded, Id.run_pure, List.nil_append]

theorem outcomes_eq_map (accepts : Notification → Bool) (made ks : List Notification) :
    outcomes (fun _ => accepts) made ks = ks.map accepts := by
  induction ks generalizing made with
  | nil => rfl
  | cons k ks ih => rw [outcomes, ih, List.map_cons]

/-- What a batch asks for is the same whatever fails. Compacted, it asks for the same without the
repeats: of equal notifications the last one is left, and that of the routes comes last, just when
a backend came or went. The report counts the keys, and what was asked for in vain. -/
theorem compaction_drops_repeats (events : List Event) :
    (∀ succeeds, (observed succeeds events).2 = calls events) ∧
    ∀ accepts : Notification → Bool,
      let plain := observed (fun _ => accepts) events
      let kept := observed (fun _ => accepts) (Event.compact events)
      kept.2 = plain.2.dedup ∧
      (∃ named, .routing ∉ named ∧
        kept.2 = named ++ if ∃ e ∈ events, e.OfBackends then [.routing] else []) ∧
      kept.1.handled = (events.map Event.key).toFinset.card ∧
      kept.1.failed = kept.2.countP (! accepts ·) ∧
      (kept.1.routingNotified = true ↔ ∃ e ∈ events, e.OfBackends) := by
  refine ⟨fun succeeds => by rw [observed_eq], fun accepts => ?_⟩
  simp only [observed_eq]
  refine ⟨calls_compact events, ⟨_, routing_notMem (Event.compact events), ?_⟩, ?_, ?_, ?_⟩
  · rw [calls, changesRouting_compact]
    simp only [changesRouting_iff]
  · rw [List.card_toFinset, ← Event.map_key_compact, List.length_map]
  · rw [outcomes_eq_map, List.countP_map]
    rfl
  · rw [changesRouting_compact, changesRouting_iff]

end Dispatch

end ConfigRegistry
