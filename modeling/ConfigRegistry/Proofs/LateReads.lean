import ConfigRegistry.Proofs.LocalCopy

/-!
# What a lagging replica answers

A store whose local replica lags serves stale reads from the tables as they were when it fell
behind. In everything else it is a store that never lagged: the calls that follow, whatever they
are, keep the two in step, so that they differ in the frozen tables and in nothing else.
-/

namespace ConfigRegistry

namespace Store

/-! ## Reads and writes -/

/-- The consistency a read asks for; a write asks for none. -/
def Call.consistency? : Call → Option Consistency
  | .eventsAfter _ _ _ c | .moduleById _ c | .modules c | .backendsByModule _ c
  | .backendsByNode _ c | .allBackends c | .activeConfig _ c | .config _ c | .schema _ c
  | .missingVariables _ c | .linkedVariables _ c => some c
  | _ => none

/-- The store with other frozen tables, or with none. -/
def freeze (frozen : Option Tables) (s : Store) : Store := { s with frozen := frozen }

@[simp] theorem freeze_live (f : Option Tables) (s : Store) : (s.freeze f).live = s.live := rfl

@[simp] theorem freeze_freeze (f g : Option Tables) (s : Store) :
    (s.freeze g).freeze f = s.freeze f := rfl

theorem catchUp_eq (s : Store) : s.catchUp = s.freeze none := rfl

variable {call : Call} {c : Consistency}

/-- A read looks at one view of the tables, and it is counted. -/
theorem serve_read (h : call.consistency? = some c) :
    ∃ read : Tables → call.Result, ∀ (now : Timestamp) (s : Store),
      s.serve now call = .ok (read (s.view c)) { s with reads := s.reads + 1 } := by
  cases call with
  | eventsAfter cursor limit order _ =>
    obtain rfl := Option.some.inj h
    exact ⟨Tables.eventsAfter cursor limit order, fun _ _ => rfl⟩
  | moduleById id _ =>
    obtain rfl := Option.some.inj h
    exact ⟨fun t => Table.find? Module.id id t.modules, fun _ _ => rfl⟩
  | modules _ =>
    obtain rfl := Option.some.inj h
    exact ⟨Tables.modulesByName, fun _ _ => rfl⟩
  | backendsByModule id _ =>
    obtain rfl := Option.some.inj h
    exact ⟨Tables.backendsByModule id, fun _ _ => rfl⟩
  | backendsByNode node _ =>
    obtain rfl := Option.some.inj h
    exact ⟨Tables.backendsByNode node, fun _ _ => rfl⟩
  | allBackends _ =>
    obtain rfl := Option.some.inj h
    exact ⟨Tables.allBackends, fun _ _ => rfl⟩
  | activeConfig id _ =>
    obtain rfl := Option.some.inj h
    exact ⟨Tables.activeConfig id, fun _ _ => rfl⟩
  | config id _ =>
    obtain rfl := Option.some.inj h
    exact ⟨Tables.config id, fun _ _ => rfl⟩
  | schema id _ =>
    obtain rfl := Option.some.inj h
    exact ⟨Tables.schema id, fun _ _ => rfl⟩
  | missingVariables names _ =>
    obtain rfl := Option.some.inj h
    exact ⟨Tables.missingVariables names, fun _ _ => rfl⟩
  | linkedVariables id _ =>
    obtain rfl := Option.some.inj h
    exact ⟨Tables.linkedVariables id, fun _ _ => rfl⟩
  | _ => cases h

/-- A read on a store that can be reached is answered from one view of the tables. -/
theorem answer_read (h : call.consistency? = some c) :
    ∃ read : Tables → call.Result, ∀ (now : Timestamp) (s : Store), s.available = true →
      s.answer now call = .ok (read (s.view c)) { s with reads := s.reads + 1 } := by
  obtain ⟨read, hread⟩ := serve_read h
  refine ⟨read, fun now s hs => ?_⟩
  rw [answer, if_pos hs, hread]

namespace Outcome

variable {α : Type}

/-- What the caller is given: the answer or the error; `none` on an exhausted counter. -/
def given? : Outcome α → Option (Except StoreError α)
  | .ok x _ => some (.ok x)
  | .error e => some (.error e)
  | .overflow => none

/-- The store after a call on `s`; `none` on an exhausted counter. -/
def left? (s : Store) : Outcome α → Option Store
  | .ok _ t => some t
  | .error _ => some s
  | .overflow => none

/-- The second outcome, of the same call on the store with other frozen tables, gives the same and
leaves the same but for those tables. Being reachable is up to no call. -/
structure Apart (f : Option Tables) (s : Store) (o o' : Outcome α) : Prop where
  given : o'.given? = o.given?
  left : o'.left? (s.freeze f) = (o.left? s).map (freeze f)
  available : ∀ t ∈ o.left? s, t.available = s.available

theorem error_apart (f : Option Tables) (s : Store) (e : StoreError) :
    Apart f s (.error e : Outcome α) (.error e) where
  given := rfl
  left := rfl
  available := by rintro _ ⟨⟩; rfl

theorem ofWrite_apart (f : Option Tables) (s : Store) (x : Option (α × Tables)) :
    Apart f s (ofWrite s x) (ofWrite (s.freeze f) x) := by
  cases x with
  | none => exact ⟨rfl, rfl, by rintro _ ⟨⟩⟩
  | some x => exact ⟨rfl, rfl, by rintro _ ⟨⟩; rfl⟩

end Outcome

/-- A write neither looks at the frozen tables nor lands in them. -/
theorem serve_write (h : call.consistency? = none) (f : Option Tables) (now : Timestamp) (s : Store) :
    Outcome.Apart f s (s.serve now call) ((s.freeze f).serve now call) := by
  cases call with
  | updateConfigData id data | activateConfig id =>
    simp only [serve, freeze_live]
    cases hrow : s.live.config id with
    | none => exact Outcome.error_apart f s _
    | some row => exact Outcome.ofWrite_apart f s _
  | eventsAfter | moduleById | modules | backendsByModule | backendsByNode | allBackends
    | activeConfig | config | schema | missingVariables | linkedVariables => cases h
  | _ =>
    simp only [serve]
    exact Outcome.ofWrite_apart f s _

/-- Whatever tables are frozen, only what a stale read gives depends on them. -/
theorem answer_apart (h : call.consistency? ≠ some .stale) (f : Option Tables) (now : Timestamp)
    (s : Store) : Outcome.Apart f s (s.answer now call) ((s.freeze f).answer now call) := by
  by_cases ha : s.available
  · rw [answer, if_pos ha, answer, if_pos (show (s.freeze f).available = true from ha)]
    cases hc : call.consistency? with
    | none => exact serve_write hc f now s
    | some c =>
      obtain ⟨read, hread⟩ := serve_read hc
      have hlive : ∀ t : Store, t.view c = t.live :=
        view_authoritative fun hstale => h (hstale ▸ hc)
      rw [hread, hread, hlive, hlive]
      exact ⟨rfl, rfl, by rintro _ ⟨⟩; rfl⟩
  · rw [answer, if_neg ha, answer, if_neg (show ¬(s.freeze f).available = true from ha)]
    exact Outcome.error_apart f s _

/-- Even a stale read leaves the same, but for the frozen tables. -/
theorem left_freeze (call : Call) (f : Option Tables) (now : Timestamp) (s : Store) :
    ((s.freeze f).answer now call).left? (s.freeze f) =
      ((s.answer now call).left? s).map (freeze f) := by
  by_cases hstale : call.consistency? = some .stale
  · obtain ⟨read, hread⟩ := serve_read hstale
    by_cases ha : s.available
    · rw [answer, if_pos (show (s.freeze f).available = true from ha), answer, if_pos ha, hread, hread]
      rfl
    · rw [answer, if_neg (show ¬(s.freeze f).available = true from ha), answer, if_neg ha]
      rfl
  · exact (answer_apart hstale f now s).left

theorem left_available {now : Timestamp} {s t : Store}
    (h : (s.answer now call).left? s = some t) : t.available = s.available := by
  by_cases hstale : call.consistency? = some .stale
  · obtain ⟨read, hread⟩ := serve_read hstale
    by_cases ha : s.available
    · rw [answer, if_pos ha, hread] at h
      obtain rfl := Option.some.inj h
      rfl
    · rw [answer, if_neg ha] at h
      obtain rfl := Option.some.inj h
      rfl
  · exact (answer_apart hstale none now s).available t h

/-! ## Runs -/

/-- A call, and the reading of the clock it is answered at. -/
structure Timed where
  now : Timestamp
  call : Call

/-- The store after calls made one after the other; `none` on an exhausted counter. -/
def after? : List Timed → Store → Option Store
  | [], s => some s
  | o :: rest, s => ((s.answer o.now o.call).left? s).bind (after? rest)

/-- Stores that differ in their frozen tables stay in step, and keep those tables. -/
theorem after_freeze (f : Option Tables) (ops : List Timed) (s : Store) :
    after? ops (s.freeze f) = (after? ops s).map (freeze f) := by
  induction ops generalizing s with
  | nil => rfl
  | cons o rest ih =>
    simp only [after?, left_freeze]
    cases (s.answer o.now o.call).left? s with
    | none => rfl
    | some t => exact ih t

theorem after_available {ops : List Timed} {s t : Store} (h : after? ops s = some t) :
    t.available = s.available := by
  induction ops generalizing s with
  | nil =>
    obtain rfl := Option.some.inj h
    rfl
  | cons o rest ih =>
    obtain ⟨u, hu, hrest⟩ := Option.bind_eq_some_iff.mp h
    exact (ih hrest).trans (left_available hu)

/-- Two stores that can be reached answer a stale read alike when they show it the same tables. -/
theorem given_stale (h : call.consistency? = some .stale) {s t : Store} (hs : s.available = true)
    (ht : t.available = true) (hview : s.view .stale = t.view .stale) (now now' : Timestamp) :
    (s.answer now call).given? = (t.answer now' call).given? := by
  obtain ⟨read, hread⟩ := serve_read h
  rw [answer, if_pos hs, answer, if_pos ht, hread, hread, hview]
  rfl

/-! ## Against a store that never lagged -/

/-- How a store that began to lag at `s` stands to the one that never did, after the same calls on
both. The calls that come next are answered alike, unless they are stale reads: those are answered as
they were when the store began to lag. -/
structure Trails (s l p : Store) : Prop where
  live : l.live = p.live
  reads : l.reads = p.reads
  stale : ∀ call, call.consistency? = some .stale → ∀ now now',
    (l.answer now call).given? = (s.lag.answer now' call).given? ∧
      (l.answer now call).given? = (s.catchUp.answer now' call).given?
  other : ∀ call, call.consistency? ≠ some .stale → ∀ now,
    (l.answer now call).given? = (p.answer now call).given?
  caughtUp : l.catchUp = p

theorem trails_of_after {s p : Store} {ops : List Timed} (hs : s.available = true)
    (hp : after? ops s.catchUp = some p) : s.Trails (p.freeze (some s.live)) p := by
  have havailable : (p.freeze (some s.live)).available = true := (after_available hp).trans hs
  have hlagging : (p.freeze (some s.live)).view .stale = s.lag.view .stale := rfl
  have hplain : (p.freeze (some s.live)).view .stale = s.catchUp.view .stale := rfl
  refine ⟨rfl, rfl, fun call hc now now' => ⟨?_, ?_⟩, fun call hc now => ?_, ?_⟩
  · exact given_stale hc havailable (show s.lag.available = true from hs) hlagging now now'
  · exact given_stale hc havailable (show s.catchUp.available = true from hs) hplain now now'
  · exact (answer_apart hc _ now p).given
  · have hsame := after_freeze none ops s.catchUp
    rw [catchUp_eq, freeze_freeze, ← catchUp_eq, hp] at hsame
    exact (Option.some.inj hsame).symm

/-- A store that lags refines one that never did. From any store that can be reached, the same calls
at the same readings of the clock exhaust a counter on both or on neither, and then the store that
lags trails the other. No read changes anything but the number of reads, which grows by one. -/
theorem lag_refines (s : Store) (hs : s.available = true) (ops : List Timed) :
    ((after? ops s.lag = none ∧ after? ops s.catchUp = none) ∨
      ∃ l p, after? ops s.lag = some l ∧ after? ops s.catchUp = some p ∧ s.Trails l p) ∧
    ∀ t : Store, t.available = true → ∀ call c, call.consistency? = some c → ∀ now, ∃ x,
      t.answer now call = .ok x { t with reads := t.reads + 1 } := by
  have hlag : after? ops s.lag = (after? ops s.catchUp).map (freeze (some s.live)) :=
    after_freeze (some s.live) ops s.catchUp
  refine ⟨?_, fun t ht call c hc now => ?_⟩
  · rw [hlag]
    cases hp : after? ops s.catchUp with
    | none => exact .inl ⟨rfl, rfl⟩
    | some p => exact .inr ⟨_, p, rfl, rfl, trails_of_after hs hp⟩
  · obtain ⟨read, hread⟩ := answer_read hc
    exact ⟨_, hread now t ht⟩

/-- A config that is stored while the replica lags is missed by stale reads only. -/
theorem lag_misses_config :
    let config : Config := ⟨default, ModuleId.ofName "a", "a", [], 1, true, default, default⟩
    let ops : List Timed := [⟨default, .insertConfig config⟩]
    let read : Consistency → Call := .activeConfig (ModuleId.ofName "a")
    Store.empty.available = true ∧ ∃ l p, after? ops Store.empty.lag = some l ∧
      after? ops Store.empty.catchUp = some p ∧
      (l.answer default (read .stale)).given? = some (.ok none) ∧
      (l.answer default (read .weak)).given? = some (.ok (some config)) ∧
      (l.catchUp.answer default (read .stale)).given? = some (.ok (some config)) := by
  intro config ops read
  have hp : after? ops Store.empty.catchUp =
      some { Store.empty with live := Tables.empty.insertConfig config } := rfl
  have hfound : (Tables.empty.insertConfig config).activeConfig (ModuleId.ofName "a") =
      some config := by
    simp [Tables.activeConfig, Tables.insertConfig, Tables.empty, Table.put, Table.erase, config]
  obtain ⟨⟨-, hnone⟩ | ⟨l, p, hl, hp', htrails⟩, -⟩ := lag_refines Store.empty rfl ops
  · rw [hp] at hnone
    cases hnone
  · obtain rfl := Option.some.inj (hp.symm.trans hp')
    refine ⟨rfl, l, _, hl, hp', ?_, ?_, ?_⟩
    · exact (htrails.stale (read .stale) rfl default default).1
    · rw [htrails.other (read .weak) (by decide)]
      exact congrArg (fun found => some (Except.ok found)) hfound
    · rw [htrails.caughtUp]
      exact congrArg (fun found => some (Except.ok found)) hfound

end Store

end ConfigRegistry
