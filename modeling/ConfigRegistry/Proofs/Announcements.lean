import ConfigRegistry.Proofs.Snapshots
import ConfigRegistry.Proofs.UuidText

/-!
# What a message is about

A message that carries backends names their module in its payload, so it is never taken
for one about another module (`Notification.backendsPayload_module`). A session is up to
date about a notification when the last message to it that announces the notification
carries what is shown (`LastShown`).
-/

namespace ConfigRegistry

/-! ## Payloads -/

namespace Notification

variable {m m' : ModuleId} {bs bs' : List Backend} {k k' : Notification} {t : Tables} {p : Bytes}

/-- A list of backends tells its module. -/
theorem backendsPayload_module (h : backendsPayload m bs = backendsPayload m' bs') : m = m' := by
  have hwrite : ∀ (m : ModuleId) (bs : List Backend), ∃ rest, backendsPayload m bs =
      0x7B :: (Json.writeString "moduleId" ++ 0x3A :: 0x22 :: (m.uuid.hyphenated ++ rest)) := by
    intro m bs
    refine ⟨0x22 :: Json.writeMoreMembers
      [("backends", Form.ofList Json.Format.toValue (BackendsSnapshot.ofBackends m bs).backends)], ?_⟩
    change Json.Value.write (.object [("moduleId", .string m.text), _]) = _
    rw [Json.Value.write, Json.Value.write, ModuleId.text, Uuid.writeString_text]
    simp
  obtain ⟨rest, hm⟩ := hwrite m bs
  obtain ⟨rest', hm'⟩ := hwrite m' bs'
  rw [hm, hm'] at h
  have htail := List.append_cancel_left (List.cons.inj h).2
  have htext := (List.cons.inj (List.cons.inj htail).2).2
  have hlength : m.uuid.hyphenated.length = m'.uuid.hyphenated.length := by
    rw [Uuid.length_hyphenated, Uuid.length_hyphenated]
  obtain ⟨u⟩ := m
  obtain ⟨v⟩ := m'
  exact congrArg ModuleId.mk (Uuid.hyphenated_injective (List.append_inj htext hlength).1)

/-- Whether a message announces what a notification shows. A message with a config does not name
the module: a session is sent the config of its own module only. -/
def Announces (d : Delivery) : Notification → Prop
  | .config _ => d.event = configMessage
  | .backends m => d.event = backendsMessage ∧ ∃ bs, d.payload = backendsPayload m bs
  | .routing => d.event = routingMessage

theorem announces_own {s : Session} (h : t.snapshot k = .ok p) : Announces ⟨s, k.message, p⟩ k := by
  cases k with
  | config m => rfl
  | backends m =>
    obtain rfl := Except.ok.inj h
    exact ⟨rfl, _, rfl⟩
  | routing => rfl

/-- A message with a snapshot announces no other one, unless both are configs. -/
theorem announces_eq {s : Session} (h : t.snapshot k' = .ok p) (ha : Announces ⟨s, k'.message, p⟩ k) :
    k = k' ∨ (∃ m, k = .config m) ∧ ∃ m, k' = .config m := by
  have hmessage : k'.message = k.message := by
    cases k with
    | config m => exact ha
    | backends m => exact ha.1
    | routing => exact ha
  cases k <;> cases k'
  case config.config m m' => exact .inr ⟨⟨m, rfl⟩, m', rfl⟩
  case backends.backends m m' =>
    obtain ⟨-, bs, hbs⟩ := ha
    obtain rfl := Except.ok.inj h
    rw [backendsPayload_module hbs]
    exact .inl rfl
  case routing.routing => exact .inl rfl
  all_goals
    simp only [message] at hmessage
    exact absurd hmessage (by decide)

/-- A message about an error announces nothing. -/
theorem not_announces_error {s : Session} : ¬ Announces ⟨s, Lifecycle.errorMessage, p⟩ k := by
  cases k with
  | config m =>
    have hne : Lifecycle.errorMessage ≠ configMessage := by decide
    exact hne
  | backends m =>
    have hne : Lifecycle.errorMessage ≠ backendsMessage := by decide
    exact fun h => hne h.1
  | routing =>
    have hne : Lifecycle.errorMessage ≠ routingMessage := by decide
    exact hne

end Notification

/-! ## The last message -/

/-- The last message to a session that announces a notification carries a payload. Messages are
listed with the last one first. -/
def LastShown (s : Session) (k : Notification) (ds : List Delivery) (p : Bytes) : Prop :=
  ∃ newer d older, ds = newer ++ d :: older ∧ d.recipient = s ∧ k.Announces d ∧ d.payload = p ∧
    ∀ x ∈ newer, x.recipient = s → ¬ k.Announces x

namespace LastShown

variable {s : Session} {k : Notification} {ds new : List Delivery} {p : Bytes} {d : Delivery}

/-- Of the messages that announce something one is the last. -/
theorem exists_of_mem (hd : d ∈ ds) (hs : d.recipient = s) (ha : k.Announces d) :
    ∃ d ∈ ds, d.recipient = s ∧ k.Announces d ∧ LastShown s k ds d.payload := by
  induction ds with
  | nil => cases hd
  | cons x rest ih =>
    by_cases hx : x.recipient = s ∧ k.Announces x
    · exact ⟨x, List.mem_cons_self, hx.1, hx.2, [], x, rest, rfl, hx.1, hx.2, rfl, nofun⟩
    · rcases List.mem_cons.mp hd with rfl | hd
      · exact absurd ⟨hs, ha⟩ hx
      · obtain ⟨y, hy, hys, hya, newer, z, older, rfl, hzs, hza, hzp, hnewer⟩ := ih hd
        refine ⟨y, List.mem_cons_of_mem x hy, hys, hya, x :: newer, z, older, rfl, hzs, hza, hzp, ?_⟩
        intro w hw hws
        rcases List.mem_cons.mp hw with rfl | hw
        · exact fun hwa => hx ⟨hws, hwa⟩
        · exact hnewer w hw hws

/-- Further messages that announce other things leave the last one be. -/
theorem append (h : LastShown s k ds p) (hnew : ∀ x ∈ new, x.recipient = s → ¬ k.Announces x) :
    LastShown s k (new ++ ds) p := by
  obtain ⟨newer, d, older, rfl, hs, ha, hp, hnewer⟩ := h
  refine ⟨new ++ newer, d, older, (List.append_assoc _ _ _).symm, hs, ha, hp, ?_⟩
  intro x hx
  rcases List.mem_append.mp hx with hx | hx
  · exact hnew x hx
  · exact hnewer x hx

/-- The last one of further messages is the last one of all. -/
theorem append_of_new (h : LastShown s k new p) : LastShown s k (new ++ ds) p := by
  obtain ⟨newer, d, older, rfl, hs, ha, hp, hnewer⟩ := h
  exact ⟨newer, d, older ++ ds, by simp, hs, ha, hp, hnewer⟩

/-- What was shown before further messages, or in them, is shown behind them. -/
theorem append_cases (h : LastShown s k ds p) (new : List Delivery) :
    (∃ d ∈ new, d.recipient = s ∧ k.Announces d ∧ LastShown s k (new ++ ds) d.payload) ∨
      (∀ x ∈ new, x.recipient = s → ¬ k.Announces x) ∧ LastShown s k (new ++ ds) p := by
  by_cases hnew : ∃ d ∈ new, d.recipient = s ∧ k.Announces d
  · obtain ⟨d, hd, hs, ha⟩ := hnew
    obtain ⟨x, hx, hxs, hxa, hlast⟩ := exists_of_mem hd hs ha
    exact .inl ⟨x, hx, hxs, hxa, hlast.append_of_new⟩
  · have hnone : ∀ x ∈ new, x.recipient = s → ¬ k.Announces x :=
      fun x hx hs ha => hnew ⟨x, hx, hs, ha⟩
    exact .inr ⟨hnone, h.append hnone⟩

theorem cons_iff : LastShown s k (d :: ds) p ↔
    d.recipient = s ∧ k.Announces d ∧ d.payload = p ∨
      ¬ (d.recipient = s ∧ k.Announces d) ∧ LastShown s k ds p := by
  constructor
  · rintro ⟨_ | ⟨x, newer⟩, y, older, heq, hs, ha, hp, hnewer⟩
    · obtain ⟨rfl, -⟩ := List.cons.inj heq
      exact .inl ⟨hs, ha, hp⟩
    · obtain ⟨rfl, rfl⟩ := List.cons.inj heq
      refine .inr ⟨fun hd => hnewer d List.mem_cons_self hd.1 hd.2, newer, y, older, rfl, hs, ha, hp, ?_⟩
      exact fun z hz => hnewer z (List.mem_cons_of_mem d hz)
  · rintro (⟨hs, ha, hp⟩ | ⟨hd, hlast⟩)
    · exact ⟨[], d, ds, rfl, hs, ha, hp, nofun⟩
    · have hother : ∀ x ∈ [d], x.recipient = s → ¬ k.Announces x := by
        intro x hx hs ha
        obtain rfl := List.mem_singleton.mp hx
        exact hd ⟨hs, ha⟩
      exact hlast.append hother

/-- Only one payload was shown last. -/
theorem unique {q : Bytes} (hp : LastShown s k ds p) (hq : LastShown s k ds q) : p = q := by
  induction ds with
  | nil =>
    obtain ⟨newer, d, older, hnil, -⟩ := hp
    simp at hnil
  | cons d rest ih =>
    rcases cons_iff.mp hp with ⟨hs, ha, hp⟩ | ⟨hd, hp⟩ <;>
      rcases cons_iff.mp hq with ⟨hs', ha', hq⟩ | ⟨hd', hq⟩
    · exact hp.symm.trans hq
    · exact absurd ⟨hs, ha⟩ hd'
    · exact absurd ⟨hs', ha'⟩ hd
    · exact ih hp hq

end LastShown

end ConfigRegistry
