import ConfigRegistry.Proofs.FetchOrders

/-!
# Draining the log

A worker that reads the oldest events first and polls until nothing is fetched
(`Worker.Drains`) reads all of the log, cut into rounds by its limit. Where the cuts fall
decides how often it calls for a key, not what it calls for: every round calls for its own
compacted batch, and together they call for what the log calls for (`Worker.Covers`).
-/

namespace ConfigRegistry

/-! ## Calls of a batch -/

namespace Dispatch

variable {events : List Event} {k : Notification} {key : EventTopic × ModuleId}

theorem mem_calls_iff :
    k ∈ calls events ↔ ∃ e ∈ events, k = .ofKey e.key ∨ e.OfBackends ∧ k = .routing := by
  have hrouting : k ∈ (if changesRouting events then [Notification.routing] else []) ↔
      ∃ e ∈ events, e.OfBackends ∧ k = .routing := by
    split
    · rename_i h
      obtain ⟨e, he, hb⟩ := changesRouting_iff.mp h
      exact ⟨fun hk => ⟨e, he, hb, List.mem_singleton.mp hk⟩,
        fun ⟨_, _, _, hk⟩ => List.mem_singleton.mpr hk⟩
    · rename_i h
      exact ⟨fun hk => absurd hk List.not_mem_nil,
        fun ⟨e, he, hb, _⟩ => absurd (changesRouting_iff.mpr ⟨e, he, hb⟩) h⟩
  rw [calls, List.mem_append, hrouting, List.mem_map]
  constructor
  · rintro (⟨e, he, rfl⟩ | ⟨e, he, hb⟩)
    · exact ⟨e, he, .inl (Notification.ofEvent_eq e)⟩
    · exact ⟨e, he, .inr hb⟩
  · rintro ⟨e, he, rfl | hb⟩
    · exact .inl ⟨e, he, Notification.ofEvent_eq e⟩
    · exact .inr ⟨e, he, hb⟩

theorem ofKey_mem_calls : .ofKey key ∈ calls events ↔ ∃ e ∈ events, e.key = key := by
  rw [mem_calls_iff]
  refine exists_congr fun e => and_congr_right fun _ => ⟨?_, fun h => .inl (h ▸ rfl)⟩
  rintro (h | ⟨-, h⟩)
  · exact (Notification.ofKey_injective h).symm
  · exact absurd h (Notification.ofKey_ne_routing key)

theorem mem_calls_compact : k ∈ calls (Event.compact events) ↔ k ∈ calls events := by
  rw [calls_compact, List.mem_dedup]

/-- A batch calls for a key as often as it has events of the key. -/
theorem count_calls (events : List Event) (key : EventTopic × ModuleId) :
    (calls events).count (.ofKey key) = events.countP (·.key = key) := by
  have hrouting : (if changesRouting events then [Notification.routing] else []).count
      (.ofKey key) = 0 := by
    refine List.count_eq_zero.mpr fun h => ?_
    split at h
    · exact Notification.ofKey_ne_routing key (List.mem_singleton.mp h)
    · exact List.not_mem_nil h
  rw [calls, List.count_append, hrouting, Nat.add_zero, map_ofEvent,
    List.count_map_of_injective _ _ Notification.ofKey_injective, List.count, List.countP_map]
  refine List.countP_congr fun e _ => ?_
  simp

theorem count_calls_compact_le (events : List Event) (key : EventTopic × ModuleId) :
    (calls (Event.compact events)).count (.ofKey key) ≤ events.countP (·.key = key) := by
  rw [calls_compact, ← count_calls]
  exact (List.dedup_sublist _).count_le _

/-- A batch calls for the routes last, once, if a backend came or went. -/
theorem calls_compact_eq (events : List Event) : ∃ named, .routing ∉ named ∧
    calls (Event.compact events) =
      named ++ if ∃ e ∈ events, e.OfBackends then [.routing] else [] := by
  refine ⟨_, routing_notMem (Event.compact events), ?_⟩
  rw [calls, changesRouting_compact]
  simp only [changesRouting_iff]

end Dispatch

namespace Worker

/-! ## Rounds -/

/-- What a poll read, and what it asked its notifier for. -/
structure Round where
  events : List Event
  calls : List Notification

/-- Rounds that together read a log and call for what it calls for. A key is called for as often as
it has events at most, and last by the round that read the last of them; the routes are called for by
the rounds that read of a backend, once and last. -/
structure Covers (log : List Event) (rounds : List Round) : Prop where
  read : rounds.flatMap Round.events = log
  called : ∀ k, k ∈ rounds.flatMap Round.calls ↔ k ∈ Dispatch.calls log
  often : ∀ e ∈ log, 1 ≤ (rounds.flatMap Round.calls).count (.ofKey e.key) ∧
    (rounds.flatMap Round.calls).count (.ofKey e.key) ≤ log.countP (·.key = e.key)
  last : ∀ e ∈ log, (∀ x ∈ log, x.key = e.key → x.id ≤ e.id) →
    ∃ before round after, rounds = before ++ round :: after ∧ e ∈ round.events ∧
      .ofKey e.key ∈ round.calls ∧ ∀ r ∈ after, .ofKey e.key ∉ r.calls
  routing : ∀ r ∈ rounds, ∃ named, .routing ∉ named ∧
    r.calls = named ++ if ∃ e ∈ r.events, e.OfBackends then [.routing] else []

/-- Every round calls for its own batch, compacted. -/
def Compacted (rounds : List Round) : Prop :=
  ∀ r ∈ rounds, r.calls = Dispatch.calls (Event.compact r.events)

variable {rounds : List Round}

theorem Compacted.mem_calls (hr : Compacted rounds) {r : Round} (hmem : r ∈ rounds)
    {k : Notification} : k ∈ r.calls ↔ k ∈ Dispatch.calls r.events := by
  rw [hr r hmem, Dispatch.mem_calls_compact]

theorem Compacted.called (hr : Compacted rounds) (k : Notification) :
    k ∈ rounds.flatMap Round.calls ↔ k ∈ Dispatch.calls (rounds.flatMap Round.events) := by
  rw [List.mem_flatMap, Dispatch.mem_calls_iff]
  constructor
  · rintro ⟨r, hmem, hk⟩
    obtain ⟨e, he, hke⟩ := Dispatch.mem_calls_iff.mp ((hr.mem_calls hmem).mp hk)
    exact ⟨e, List.mem_flatMap.mpr ⟨r, hmem, he⟩, hke⟩
  · rintro ⟨e, he, hke⟩
    obtain ⟨r, hmem, he⟩ := List.mem_flatMap.mp he
    exact ⟨r, hmem, (hr.mem_calls hmem).mpr (Dispatch.mem_calls_iff.mpr ⟨e, he, hke⟩)⟩

/-- Round by round, a key is called for no more often than it has events. -/
theorem Compacted.count_le (hr : Compacted rounds) (key : EventTopic × ModuleId) :
    (rounds.flatMap Round.calls).count (.ofKey key) ≤
      (rounds.flatMap Round.events).countP (·.key = key) := by
  induction rounds with
  | nil => exact Nat.zero_le _
  | cons r rest ih =>
    have hhead : r.calls.count (.ofKey key) ≤ r.events.countP (·.key = key) := by
      rw [hr r List.mem_cons_self]
      exact Dispatch.count_calls_compact_le r.events key
    have htail := ih fun x hx => hr x (List.mem_cons_of_mem r hx)
    rw [List.flatMap_cons, List.flatMap_cons, List.count_append, List.countP_append]
    exact Nat.add_le_add hhead htail

/-- No round behind the one that read the last event of a key calls for the key. -/
theorem Compacted.last (hr : Compacted rounds)
    (hs : (rounds.flatMap Round.events).Pairwise (·.id < ·.id)) {e : Event}
    (he : e ∈ rounds.flatMap Round.events)
    (hlast : ∀ x ∈ rounds.flatMap Round.events, x.key = e.key → x.id ≤ e.id) :
    ∃ before round after, rounds = before ++ round :: after ∧ e ∈ round.events ∧
      .ofKey e.key ∈ round.calls ∧ ∀ r ∈ after, .ofKey e.key ∉ r.calls := by
  obtain ⟨r, hmem, her⟩ := List.mem_flatMap.mp he
  obtain ⟨before, after, rfl⟩ := List.append_of_mem hmem
  refine ⟨before, r, after, rfl, her,
    (hr.mem_calls hmem).mpr (Dispatch.ofKey_mem_calls.mpr ⟨e, her, rfl⟩), fun r' hr' hcall => ?_⟩
  have hmem' : r' ∈ before ++ r :: after :=
    List.mem_append_right before (List.mem_cons_of_mem r hr')
  obtain ⟨x, hx, hkey⟩ := Dispatch.ofKey_mem_calls.mp ((hr.mem_calls hmem').mp hcall)
  rw [List.flatMap_append, List.flatMap_cons] at hs
  have hlt : e.id < x.id :=
    (List.pairwise_append.mp (List.pairwise_append.mp hs).2.1).2.2 e her x
      (List.mem_flatMap.mpr ⟨r', hr', hx⟩)
  exact absurd hlt (UInt64.not_lt.mpr (hlast x (List.mem_flatMap.mpr ⟨r', hmem', hx⟩) hkey))

theorem Compacted.covers (hr : Compacted rounds)
    (hs : (rounds.flatMap Round.events).Pairwise (·.id < ·.id)) :
    Covers (rounds.flatMap Round.events) rounds where
  read := rfl
  called := hr.called
  often := by
    intro e he
    have hcall := (hr.called (.ofKey e.key)).mpr (Dispatch.ofKey_mem_calls.mpr ⟨e, he, rfl⟩)
    exact ⟨List.one_le_count_iff.mpr hcall, hr.count_le e.key⟩
  last := fun e he hlast => hr.last hs he hlast
  routing := fun r hmem => hr r hmem ▸ Dispatch.calls_compact_eq r.events

/-! ## Polls of a drain -/

/-- A poll of the oldest events, by a notifier that was already asked for some notifications. -/
def pollAfter (succeeds : List Notification → Notification → Bool) (made : List Notification)
    (limit timeout : Nat) : Prog (Except NotifyError PollOutcome × List Notification) :=
  watchedPoll (fun since => succeeds (made ++ since)) ⟨limit, .oldestFirst⟩ timeout

/-- A worker polls until nothing is fetched. It reads the oldest events first and has one notifier
throughout. -/
inductive Drains (succeeds : List Notification → Notification → Bool) (n limit timeout : Nat) :
    List Notification → World → List Round → World → Prop
  | ends {made calls : List Notification} {w v : World} {outcome : PollOutcome}
      (hv : w.run n (pollAfter succeeds made limit timeout) = .finished v (.ok outcome, calls))
      (hnone : outcome.fetched = 0) :
      Drains succeeds n limit timeout made w
        [⟨w.reads n (pollAfter succeeds made limit timeout), calls⟩] v
  | goesOn {made calls : List Notification} {w v v' : World} {outcome : PollOutcome}
      {rounds : List Round}
      (hv : w.run n (pollAfter succeeds made limit timeout) = .finished v (.ok outcome, calls))
      (hsome : outcome.fetched ≠ 0)
      (h : Drains succeeds n limit timeout (made ++ calls) v rounds v') :
      Drains succeeds n limit timeout made w
        (⟨w.reads n (pollAfter succeeds made limit timeout), calls⟩ :: rounds) v'

/-- A node that can read the log, and sees it in the order of its ids. -/
structure Attends (n : Nat) (w : World) : Prop where
  known : n < w.nodes.length
  available : w.store.available = true
  through : w.LetsThrough "events_after"
  sorted : (w.store.view .stale).events.Pairwise (·.id < ·.id)

/-- What a poll of the oldest events does: it reads a batch, calls for it compacted, and moves the
cursor behind it. -/
structure Takes (n limit : Nat) (w v : World) (round : Round) : Prop where
  batch : round.events = ((w.store.view .stale).due (w.node n).cursor).take limit
  calls : round.calls = Dispatch.calls (Event.compact round.events)
  moved : (v.node n).cursor = cursorAfter (w.node n).cursor round.events
  log : v.store.view .stale = w.store.view .stale
  attends : Attends n v

variable {succeeds : List Notification → Notification → Bool} {n limit timeout : Nat}
  {made calls : List Notification} {w v : World} {outcome : PollOutcome}

theorem Attends.polls (hw : Attends n w) (succeeds : List Notification → Notification → Bool)
    (made : List Notification) (limit timeout : Nat) : ∃ v outcome calls,
    w.run n (pollAfter succeeds made limit timeout) = .finished v (.ok outcome, calls) ∧
    outcome.fetched = (w.reads n (pollAfter succeeds made limit timeout)).length ∧
    Takes n limit w v ⟨w.reads n (pollAfter succeeds made limit timeout), calls⟩ := by
  set ws : WorkerSettings := ⟨limit, .oldestFirst⟩
  have hreads : w.reads n (pollAfter succeeds made limit timeout) = fetched n ws w := by
    rw [pollAfter, reads_watchedPoll _ _ _ hw.through, if_pos hw.available]
  have hnode : (w.served.modifyNode n fun st =>
      { st with cursor := cursorAfter (w.node n).cursor (fetched n ws w) }).node n =
      { w.node n with cursor := cursorAfter (w.node n).cursor (fetched n ws w) } :=
    World.node_modifyNode w.served n _ hw.known
  refine ⟨_, _, _, run_watchedPoll _ ws timeout hw.through hw.available, ?_, ?_⟩
  · rw [hreads]
  · rw [hreads]
    refine ⟨rfl, congrArg Prod.snd (Dispatch.observed_eq _ _), congrArg NodeState.cursor hnode,
      rfl, ?_⟩
    exact ⟨by simpa [World.served] using hw.known, hw.available, hw.through, hw.sorted⟩

theorem Attends.of_poll (hw : Attends n w)
    (hv : w.run n (pollAfter succeeds made limit timeout) = .finished v (.ok outcome, calls)) :
    outcome.fetched = (w.reads n (pollAfter succeeds made limit timeout)).length ∧
    Takes n limit w v ⟨w.reads n (pollAfter succeeds made limit timeout), calls⟩ := by
  obtain ⟨v', outcome', calls', hrun, hfetched, htakes⟩ := hw.polls succeeds made limit timeout
  rw [hrun] at hv
  cases hv
  exact ⟨hfetched, htakes⟩

/-! ## Drains -/

variable {v' : World}

/-- An event of the last id there is would be read by every poll. -/
theorem Drains.ids_below (h : Drains succeeds n limit timeout made w rounds v) (hw : Attends n w)
    (hl : 1 ≤ limit) : ∀ e ∈ (w.store.view .stale).events, e.id.toNat + 1 < UInt64.size := by
  induction h with
  | ends hv hnone =>
    obtain ⟨hfetched, htakes⟩ := hw.of_poll hv
    have hbatch := List.eq_nil_of_length_eq_zero (hfetched.symm.trans hnone)
    have hdue := (List.take_eq_nil_iff.mp (htakes.batch.symm.trans hbatch)).resolve_left (by omega)
    intro e he
    have hid : e.id.toNat < UInt64.size := e.id.toNat_lt
    refine Nat.lt_of_le_of_ne hid fun hlast => ?_
    exact List.not_mem_nil (hdue ▸ Tables.mem_due_of_last he hlast)
  | goesOn hv _ _ ih =>
    obtain ⟨-, htakes⟩ := hw.of_poll hv
    exact htakes.log ▸ ih htakes.attends

/-- A drain reads what is pending, in rounds, and its cursor ends behind that. -/
theorem Drains.reads (h : Drains succeeds n limit timeout made w rounds v) (hw : Attends n w)
    (hl : 1 ≤ limit) (hbelow : ∀ e ∈ (w.store.view .stale).events, e.id.toNat + 1 < UInt64.size) :
    rounds.flatMap Round.events = (w.store.view .stale).pending (w.node n).cursor ∧
    Compacted rounds ∧ (v.node n).cursor =
      cursorAfter (w.node n).cursor ((w.store.view .stale).pending (w.node n).cursor) := by
  induction h with
  | @ends made calls w v outcome hv hnone =>
    obtain ⟨hfetched, htakes⟩ := hw.of_poll hv
    have hbatch := List.eq_nil_of_length_eq_zero (hfetched.symm.trans hnone)
    have hpending : (w.store.view .stale).pending (w.node n).cursor = [] := by
      rw [← Tables.due_eq_pending_of_below hbelow]
      exact (List.take_eq_nil_iff.mp (htakes.batch.symm.trans hbatch)).resolve_left (by omega)
    refine ⟨?_, ?_, ?_⟩
    · rw [List.flatMap_singleton, hbatch, hpending]
    · exact fun r hr => List.mem_singleton.mp hr ▸ htakes.calls
    · rw [htakes.moved, hbatch, hpending]
  | @goesOn made calls w v v' outcome rounds hv hsome h ih =>
    obtain ⟨-, htakes⟩ := hw.of_poll hv
    obtain ⟨hevents, hcalls, hcursor⟩ := ih htakes.attends (htakes.log ▸ hbelow)
    have hbatch := htakes.batch
    rw [Tables.due_eq_pending_of_below hbelow] at hbatch
    -- What the first poll leaves is what the others find.
    have hrest : (v.store.view .stale).pending (v.node n).cursor =
        ((w.store.view .stale).pending (w.node n).cursor).drop limit := by
      rw [htakes.log, htakes.moved, hbatch, pending_cursorAfter hw.sorted]
    refine ⟨?_, ?_, ?_⟩
    · rw [List.flatMap_cons, hevents, hrest, hbatch, List.take_append_drop]
    · exact List.forall_mem_cons.mpr ⟨htakes.calls, hcalls⟩
    · rw [hcursor, hrest, htakes.moved, hbatch, cursorAfter, cursorAfter, ← List.foldl_append,
        List.take_append_drop, cursorAfter]

/-- With every poll that fetches something less is pending, so a drain ends. -/
theorem Attends.drains (hw : Attends n w) (hl : 1 ≤ limit)
    (succeeds : List Notification → Notification → Bool) (made : List Notification) (timeout : Nat)
    (hbelow : ∀ e ∈ (w.store.view .stale).events, e.id.toNat + 1 < UInt64.size) :
    ∃ rounds v, Drains succeeds n limit timeout made w rounds v := by
  induction hlength : ((w.store.view .stale).pending (w.node n).cursor).length using
    Nat.strong_induction_on generalizing w made with
  | _ length ih =>
    obtain ⟨v, outcome, calls, hv, hfetched, htakes⟩ := hw.polls succeeds made limit timeout
    by_cases hnone : outcome.fetched = 0
    · exact ⟨_, v, .ends hv hnone⟩
    · have hbatch := htakes.batch
      rw [Tables.due_eq_pending_of_below hbelow] at hbatch
      have hcount : outcome.fetched =
          min limit ((w.store.view .stale).pending (w.node n).cursor).length :=
        (hfetched.trans (congrArg List.length hbatch)).trans List.length_take
      have hrest : ((v.store.view .stale).pending (v.node n).cursor).length < length := by
        rw [htakes.log, htakes.moved, hbatch, pending_cursorAfter hw.sorted, List.length_drop]
        omega
      obtain ⟨rounds, v', hrounds⟩ :=
        ih _ hrest htakes.attends (made ++ calls) (htakes.log ▸ hbelow) rfl
      exact ⟨_, v', .goesOn hv hnone hrounds⟩

/-- A drain from the beginning covers the log. -/
theorem Drains.covers (h : Drains succeeds n limit timeout made w rounds v) (hw : Attends n w)
    (hl : 1 ≤ limit) (hc : (w.node n).cursor = 0)
    (hpositive : ∀ e ∈ (w.store.view .stale).events, 0 < e.id) :
    Covers (w.store.view .stale).events rounds ∧
      (v.node n).cursor = cursorAfter 0 (w.store.view .stale).events := by
  obtain ⟨hread, hcompacted, hcursor⟩ := h.reads hw hl (h.ids_below hw hl)
  have hall : (w.store.view .stale).pending 0 = (w.store.view .stale).events :=
    List.filter_eq_self.mpr fun e he => decide_eq_true (hpositive e he)
  rw [hc, hall] at hread hcursor
  exact ⟨hread ▸ hcompacted.covers (hread.symm ▸ hw.sorted), hcursor⟩

/-- Draining a log from its beginning, whatever the limit and whatever fails: the drain ends unless
the log has an event of the last id there is, and covers the log. So any two drains end with the same
cursor and call for the same. -/
theorem notified_whatever_limit (n timeout : Nat) (w : World) (hw : Attends n w)
    (hc : (w.node n).cursor = 0) (hpositive : ∀ e ∈ (w.store.view .stale).events, 0 < e.id) :
    let log := (w.store.view .stale).events
    (∀ succeeds limit, 1 ≤ limit →
      ((∃ rounds v, Drains succeeds n limit timeout [] w rounds v) ↔
        ∀ e ∈ log, e.id.toNat + 1 < UInt64.size)) ∧
    ∀ succeeds limit rounds v, 1 ≤ limit → Drains succeeds n limit timeout [] w rounds v →
      Covers log rounds ∧
      ∀ succeeds' limit' rounds' v', 1 ≤ limit' → Drains succeeds' n limit' timeout [] w rounds' v' →
        (v'.node n).cursor = (v.node n).cursor ∧
        (rounds'.flatMap Round.calls).toFinset = (rounds.flatMap Round.calls).toFinset := by
  refine ⟨fun succeeds limit hl => ⟨?_, hw.drains hl succeeds [] timeout⟩, ?_⟩
  · rintro ⟨rounds, v, h⟩
    exact h.ids_below hw hl
  · intro succeeds limit rounds v hl h
    obtain ⟨hcovers, hcursor⟩ := h.covers hw hl hc hpositive
    refine ⟨hcovers, fun succeeds' limit' rounds' v' hl' h' => ?_⟩
    obtain ⟨hcovers', hcursor'⟩ := h'.covers hw hl' hc hpositive
    refine ⟨hcursor'.trans hcursor.symm, Finset.ext fun k => ?_⟩
    rw [List.mem_toFinset, List.mem_toFinset, hcovers'.called, hcovers.called]

end Worker

/-- A config changes, a backend of the module becomes ready, the config changes again. -/
def backlog : World :=
  { World.initial default with
    nodes := [⟨⟨⟨"n1"⟩, ⟨2000, 2000⟩, ⟨2, .oldestFirst⟩⟩, .empty, 0, true⟩]
    store := { (World.initial default).store with
      live := { Tables.empty with
        lastEventId := 3
        events := [⟨1, ⟨.configUpdated, default⟩, default⟩, ⟨2, ⟨.moduleReady, default⟩, default⟩,
          ⟨3, ⟨.configUpdated, default⟩, default⟩] } } }

/-- Read one by one by a notifier that always fails, or two at a time by one that never does, the backlog
ends up called for in full, behind the same cursor. -/
theorem backlog_notified :
    let failing : List Notification → Notification → Bool := fun _ _ => false
    let reliable : List Notification → Notification → Bool := fun _ _ => true
    ∃ rounds v rounds' v',
      Worker.Drains failing 0 1 2000 [] backlog rounds v ∧
      Worker.Drains reliable 0 2 2000 [] backlog rounds' v' ∧
      Worker.Covers (backlog.store.view .stale).events rounds ∧
      Worker.Covers (backlog.store.view .stale).events rounds' ∧
      (v'.node 0).cursor = (v.node 0).cursor ∧
      (rounds'.flatMap Worker.Round.calls).toFinset =
        (rounds.flatMap Worker.Round.calls).toFinset := by
  intro failing reliable
  have hattends : Worker.Attends 0 backlog := ⟨Nat.one_pos, rfl, rfl, by decide⟩
  obtain ⟨hends, hsame⟩ := Worker.notified_whatever_limit 0 2000 backlog hattends rfl (by decide)
  have hbelow : ∀ e ∈ (backlog.store.view .stale).events, e.id.toNat + 1 < UInt64.size := by decide
  obtain ⟨rounds, v, h⟩ := (hends failing 1 (by decide)).mpr hbelow
  obtain ⟨rounds', v', h'⟩ := (hends reliable 2 (by decide)).mpr hbelow
  obtain ⟨hcovers, heq⟩ := hsame failing 1 rounds v (by decide) h
  obtain ⟨hcovers', -⟩ := hsame reliable 2 rounds' v' (by decide) h'
  exact ⟨rounds, v, rounds', v', h, h', hcovers, hcovers', heq reliable 2 rounds' v' (by decide) h'⟩

end ConfigRegistry
