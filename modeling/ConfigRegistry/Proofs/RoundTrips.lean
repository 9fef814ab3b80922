import ConfigRegistry.Format
import ConfigRegistry.Proofs.JsonShapes

/-!
# JSON forms are faithful

What is written for an element is read as this element, so different elements have
different texts (`FaithfulOn`). For every type it is enough that the value that stands for
an element is in the normal form of the shape, and that the element is taken back from it
(`decode_encode`).
-/

namespace ConfigRegistry

open Json

variable {α : Type} [Format α] {x : α} {v : Value} {bs rest : Bytes} {d : Nat}

namespace Json

theorem decode_encode (hshape : (Format.shape α).Holds depthMax (Format.toValue x))
    (hback : Format.ofValue (Format.toValue x) = some x) : decode α (encode x) = .ok x := by
  have hread := hshape.read endsNumber_nil
  rw [List.append_nil] at hread
  simp [decode, encode, Shape.parse, hread, skipBlanks, hback]

theorem parse_ok {s : Shape} (h : s.parse bs = .ok v) : ∃ rest, s.read depthMax bs = .ok (v, rest) := by
  unfold Shape.parse at h
  split at h
  case h_1 => nomatch h
  case h_2 w rest hread =>
    split at h
    case isTrue =>
      cases h
      exact ⟨rest, hread⟩
    case isFalse => nomatch h

theorem decode_ok (h : decode α bs = .ok x) :
    ∃ v rest, (Format.shape α).read depthMax bs = .ok (v, rest) ∧ Format.ofValue v = some x := by
  unfold decode at h
  split at h
  case h_1 => nomatch h
  case h_2 v hparse =>
    split at h
    case h_1 => nomatch h
    case h_2 y hy =>
      cases h
      obtain ⟨rest, hread⟩ := parse_ok hparse
      exact ⟨v, rest, hread, hy⟩

theorem Value.Plain.mono {d e : Nat} (h : v.Plain d) (hd : d ≤ e) : v.Plain e := by
  induction h generalizing e with
  | null => exact .null
  | bool b => exact .bool b
  | natural n => exact .natural n
  | negative n => exact .negative n
  | string s => exact .string s
  | array h ih =>
    obtain ⟨e, rfl⟩ := Nat.exists_eq_add_of_le' (Nat.le_trans (Nat.succ_pos _) hd)
    exact .array fun v hv => ih v hv (Nat.le_of_succ_le_succ hd)
  | object h ih =>
    obtain ⟨e, rfl⟩ := Nat.exists_eq_add_of_le' (Nat.le_trans (Nat.succ_pos _) hd)
    exact .object fun m hm => ih m hm (Nat.le_of_succ_le_succ hd)

/-- A field that takes any value has a value with its members in order. -/
theorem sorted_of_gives {key : String} {presence : Presence} {m : Member}
    (h : Gives ⟨key, presence, Shape.read .any⟩ m)
    (hmissing : ∀ v, presence.missing? = some v → v.Sorted) : m.2.Sorted := by
  rcases h.2 with ⟨d, bs, rest, hread⟩ | hdefault
  · exact readAny_sorted hread
  · exact hmissing m.2 hdefault

end Json

/-! ## Parts -/

namespace Form

variable {β : Type} {inner : β → Value} {outer : Value → Option β} {s : Shape}

theorem bind_some {γ : Type} {o : Option β} {f : β → Option γ} {y : β} {z : γ} (ho : o = some y)
    (hf : f y = some z) : (o >>= f) = some z := by rw [ho]; exact hf

theorem uuid?_text (u : Uuid) : uuid? (.string u.text) = some u := Uuid.parse?_text u

theorem text?_string (s : String) : text? (.string s) = some s := rfl

theorem word64?_natural (n : UInt64) : word64? (.natural n) = some n := rfl

theorem word32?_natural (n : UInt32) : word32? (.natural (UInt64.ofNat n.toNat)) = some n := by
  have hn : n.toNat < UInt64.size := Nat.lt_trans n.toNat_lt_size (by decide)
  simp [word32?, Value.natural?, Value.natural]

theorem flag?_bool (b : Bool) : flag? (.bool b) = some b := rfl

theorem nullable?_ofNullable {y : Option β} (h : ∀ z ∈ y, inner z ≠ .null ∧ outer (inner z) = some z) :
    nullable? outer (ofNullable inner y) = some y := by
  cases y with
  | none => rfl
  | some z =>
    obtain ⟨hnull, hback⟩ := h z rfl
    unfold ofNullable nullable?
    split
    case h_1 he => exact absurd he hnull
    case h_2 => rw [hback]; rfl

theorem list?_ofList {ys : List β} (h : ∀ y ∈ ys, outer (inner y) = some y) :
    list? outer (ofList inner ys) = some ys := by
  have hmap : (ys.map inner).mapM outer = some ys := by
    induction ys with
    | nil => rfl
    | cons y ys ih =>
      simp [List.mapM_cons, h y List.mem_cons_self, ih fun z hz => h z (List.mem_cons_of_mem _ hz)]
  exact hmap

theorem blob?_ofBlob (bytes : Bytes) : blob? (ofBlob bytes) = some bytes := by
  have hbyte : ∀ b : UInt8, byte? (.natural (UInt64.ofNat b.toNat)) = some b := by
    intro b
    simp [byte?, Value.natural?, Value.natural]
  exact list?_ofList fun b _ => hbyte b

theorem holds_ofNullable {y : Option β} (h : ∀ z ∈ y, inner z ≠ .null ∧ s.Holds d (inner z)) :
    (Shape.nullable s).Holds d (ofNullable inner y) := by
  cases y with
  | none => exact .null
  | some z => exact .given (h z rfl).1 (h z rfl).2

theorem holds_ofList {ys : List β} (h : ∀ y ∈ ys, s.Holds d (inner y)) :
    (Shape.list s).Holds (d + 1) (ofList inner ys) := by
  refine .list fun v hv => ?_
  obtain ⟨y, hy, rfl⟩ := List.mem_map.mp hv
  exact h y hy

theorem holds_ofBlob (bytes : Bytes) : Shape.blob.Holds (d + 1) (ofBlob bytes) := by
  refine .blob fun v hv => ?_
  obtain ⟨b, -, rfl⟩ := List.mem_map.mp hv
  exact ⟨b, rfl⟩

end Form

open Form

/-! ## Faithful forms -/

/-- What is written for a well-formed element with a property is read as this element, other elements
have other texts, and what a text holds is written so that it is read again. -/
structure FaithfulOn (α : Type) [Format α] (Formed P : α → Prop) : Prop where
  returns : ∀ x, Formed x → P x → decode α (encode x) = .ok x
  injective : ∀ x y, Formed x → P x → Formed y → P y → encode x = encode y → x = y
  stable : ∀ bs x, decode α bs = .ok x → P x → decode α (encode x) = .ok x

/-- The form is faithful on all elements. -/
abbrev Faithful (α : Type) [Format α] : Prop := FaithfulOn α (fun _ => True) fun _ => True

theorem FaithfulOn.of_shape {Formed P : α → Prop}
    (hshape : ∀ x, Formed x → P x → (Format.shape α).Holds depthMax (Format.toValue x))
    (hback : ∀ x, P x → Format.ofValue (Format.toValue x) = some x)
    (hformed : ∀ bs x, decode α bs = .ok x → Formed x) : FaithfulOn α Formed P := by
  have hreturns : ∀ x, Formed x → P x → decode α (encode x) = .ok x :=
    fun x hx hp => decode_encode (hshape x hx hp) (hback x hp)
  refine ⟨hreturns, ?_, fun bs x h => hreturns x (hformed bs x h)⟩
  intro x y hx hpx hy hpy h
  have hread := hreturns x hx hpx
  rw [h, hreturns y hy hpy] at hread
  exact (Except.ok.inj hread).symm

theorem Faithful.of_shape (hshape : ∀ x : α, (Format.shape α).Holds depthMax (Format.toValue x))
    (hback : ∀ x : α, Format.ofValue (Format.toValue x) = some x) : Faithful α :=
  FaithfulOn.of_shape (fun x _ _ => hshape x) (fun x _ => hback x) fun _ _ _ => trivial

/-! ## Times and events -/

theorem holds_time (t : Timestamp) (d : Nat) : timeShape.Holds (d + 1) (ofTime t) := by
  have hsecs : t.secs.toNat < 1 <<< 64 := t.secs.toNat_lt_size
  have hnanos : (UInt64.ofNat t.nanos.toNat).toNat < 1 <<< 32 := by
    have hn : t.nanos.toNat < 1 <<< 32 := t.nanos.toNat_lt_size
    rwa [UInt64.toNat_ofNat_of_lt' (Nat.lt_trans t.nanos.toNat_lt_size (by decide))]
  exact .record (by decide) (.cons (.word hsecs) (.cons (.word hnanos) .nil))

theorem time?_ofTime (t : Timestamp) : time? (ofTime t) = some t :=
  bind_some (word64?_natural _) <| bind_some (word32?_natural _) rfl

theorem ofTime_ne_null (t : Timestamp) : ofTime t ≠ .null := nofun

theorem holds_payload (p : EventPayload) (d : Nat) :
    (Format.shape EventPayload).Holds (d + 1) (Format.toValue p) := by
  have htag : p.kind.tag ∈ EventKind.all.map EventKind.tag := by cases p.kind <;> decide
  exact .tagged p.moduleId.uuid htag (by decide)

theorem payload_back (p : EventPayload) : Format.ofValue (Format.toValue p) = some p := by
  have hkind : byName? EventKind.all EventKind.tag (.string p.kind.tag) = some p.kind := by
    cases p.kind <;> decide
  simp [Format.ofValue, Format.toValue, hkind, ModuleId.text, uuid?_text]

theorem holds_event (e : Event) (d : Nat) : (Format.shape Event).Holds (d + 2) (Format.toValue e) := by
  have hid : e.id.toNat < 1 <<< 64 := e.id.toNat_lt_size
  exact .record (by decide)
    (.cons (.word hid) (.cons (holds_payload _ _) (.cons (holds_time _ _) .nil)))

theorem event_back (e : Event) : Format.ofValue (Format.toValue e) = some e :=
  bind_some (word64?_natural _) <| bind_some (payload_back _) <| bind_some (time?_ofTime _) rfl

/-! ## Rows -/

theorem holds_nullableTime (t : Option Timestamp) (d : Nat) :
    (Shape.nullable timeShape).Holds (d + 1) (ofNullable ofTime t) :=
  holds_ofNullable fun t _ => ⟨ofTime_ne_null t, holds_time t d⟩

theorem nullableTime_back (t : Option Timestamp) : nullable? time? (ofNullable ofTime t) = some t :=
  nullable?_ofNullable fun t _ => ⟨ofTime_ne_null t, time?_ofTime t⟩

theorem holds_module (m : Module) (d : Nat) :
    (Format.shape Module).Holds (d + 2) (Format.toValue m) :=
  .record (by decide) (.cons (.uuid m.id.uuid) (.cons (.text _) (.cons (holds_nullableTime _ _)
    (.cons (holds_nullableTime _ _) (.cons (holds_time _ _) .nil)))))

theorem module_back (m : Module) : Format.ofValue (Format.toValue m) = some m :=
  bind_some (uuid?_text m.id.uuid) <| bind_some (text?_string _) <|
    bind_some (nullableTime_back _) <| bind_some (nullableTime_back _) <|
    bind_some (time?_ofTime _) rfl

theorem holds_endpoint (e : Endpoint) (d : Nat) :
    (Format.shape Endpoint).Holds (d + 1) (Format.toValue e) :=
  .record (by decide) (.cons (.text _) (.cons (.flag _) .nil))

theorem endpoint_back (e : Endpoint) : Format.ofValue (Format.toValue e) = some e :=
  bind_some (text?_string _) <| bind_some (flag?_bool _) rfl

theorem holds_endpoints (es : List Endpoint) (d : Nat) : endpointsShape.Holds (d + 2) (ofEndpoints es) :=
  holds_ofList fun e _ => holds_endpoint e d

theorem endpoints?_ofEndpoints (es : List Endpoint) : endpoints? (ofEndpoints es) = some es :=
  list?_ofList fun e _ => endpoint_back e

theorem holds_names (names : List String) (d : Nat) : (Shape.list .text).Holds (d + 1) (ofList .string names) :=
  holds_ofList fun name _ => .text name

theorem names_back (names : List String) : list? text? (ofList .string names) = some names :=
  list?_ofList fun name _ => text?_string name

theorem holds_config (c : Config) (d : Nat) : (Format.shape Config).Holds (d + 2) (Format.toValue c) := by
  have hversion : c.version.toNat < 1 <<< 64 := c.version.toNat_lt_size
  exact .record (by decide) (.cons (.uuid c.id.uuid) (.cons (.uuid c.moduleId.uuid) (.cons (.text _)
    (.cons (holds_ofBlob _) (.cons (.word hversion) (.cons (.flag _) (.cons (holds_time _ _)
      (.cons (holds_time _ _) .nil))))))))

theorem config_back (c : Config) : Format.ofValue (Format.toValue c) = some c :=
  bind_some (uuid?_text c.id.uuid) <| bind_some (uuid?_text c.moduleId.uuid) <|
    bind_some (text?_string _) <| bind_some (blob?_ofBlob _) <| bind_some (word64?_natural _) <|
    bind_some (flag?_bool _) <| bind_some (time?_ofTime _) <| bind_some (time?_ofTime _) rfl

theorem holds_schema (s : ConfigSchema) (d : Nat) :
    (Format.shape ConfigSchema).Holds (d + 2) (Format.toValue s) :=
  .record (by decide) (.cons (.uuid s.moduleId.uuid) (.cons (.text _) (.cons (holds_ofBlob _)
    (.cons (holds_time _ _) .nil))))

theorem schema_back (s : ConfigSchema) : Format.ofValue (Format.toValue s) = some s :=
  bind_some (uuid?_text s.moduleId.uuid) <| bind_some (text?_string _) <|
    bind_some (blob?_ofBlob _) <| bind_some (time?_ofTime _) rfl

/-! ## Snapshots -/

theorem holds_address (b : BackendAddress) (d : Nat) :
    (Format.shape BackendAddress).Holds (d + 3) (Format.toValue b) :=
  .record (by decide) (.cons (.text _) (.cons (.text _) (.cons (.text _)
    (.cons (holds_endpoints _ _) .nil))))

theorem address_back (b : BackendAddress) : Format.ofValue (Format.toValue b) = some b :=
  bind_some (text?_string _) <| bind_some (text?_string _) <| bind_some (text?_string _) <|
    bind_some (endpoints?_ofEndpoints _) rfl

theorem holds_snapshot (s : BackendsSnapshot) (d : Nat) :
    (Format.shape BackendsSnapshot).Holds (d + 5) (Format.toValue s) :=
  .record (by decide) (.cons (.uuid s.moduleId.uuid)
    (.cons (holds_ofList fun b _ => holds_address b d) .nil))

theorem snapshot_back (s : BackendsSnapshot) : Format.ofValue (Format.toValue s) = some s :=
  bind_some (uuid?_text s.moduleId.uuid) <|
    bind_some (list?_ofList fun b _ => address_back b) rfl

theorem snapshot_faithful : Faithful BackendsSnapshot := .of_shape (holds_snapshot · 122) snapshot_back

theorem holds_route (r : RouteEntry) (d : Nat) :
    (Format.shape RouteEntry).Holds (d + 3) (Format.toValue r) :=
  .record (by decide) (.cons (.uuid r.moduleId.uuid) (.cons (.text _) (.cons (.text _) (.cons (.text _)
    (.cons (holds_endpoints _ _) .nil)))))

theorem route_back (r : RouteEntry) : Format.ofValue (Format.toValue r) = some r :=
  bind_some (uuid?_text r.moduleId.uuid) <| bind_some (text?_string _) <| bind_some (text?_string _) <|
    bind_some (text?_string _) <| bind_some (endpoints?_ofEndpoints _) rfl

theorem routes_faithful : Faithful (List RouteEntry) :=
  Faithful.of_shape (fun _ => holds_ofList fun r _ => holds_route r 123)
    fun _ => list?_ofList fun r _ => route_back r

/-! ## Declarations -/

theorem holds_requirements (r : ModuleRequirements) (d : Nat) :
    (Format.shape ModuleRequirements).Holds (d + 2) (Format.toValue r) :=
  .record (by decide) (.cons (holds_names _ _) (.cons (.flag _) .nil))

theorem requirements_back (r : ModuleRequirements) : Format.ofValue (Format.toValue r) = some r :=
  bind_some (names_back _) <| bind_some (flag?_bool _) rfl

/-! ## Free-form parts -/

/-- Metrics keep their members in order, as whatever is read does. -/
def MetricsFormed (metrics : Option Value) : Prop := ∀ v ∈ metrics, v.Sorted

/-- Metrics are left out, or hold no double, nest at most 100 deep and are not null. -/
def MetricsPlain (metrics : Option Value) : Prop := ∀ v ∈ metrics, v.Plain 100 ∧ v ≠ .null

variable {metrics : Option Value}

theorem holds_metrics (hformed : MetricsFormed metrics) (hplain : MetricsPlain metrics) :
    Shape.any.Holds 126 (ofNullable id metrics) := by
  cases metrics with
  | none => exact .any .null .null
  | some v => exact .any ((hplain v rfl).1.mono (by decide)) (hformed v rfl)

theorem metrics_back (hplain : MetricsPlain metrics) :
    nullable? some (ofNullable id metrics) = some metrics :=
  nullable?_ofNullable fun v hv => ⟨(hplain v hv).2, rfl⟩

theorem metrics_formed {v : Value} (hv : v.Sorted) (h : nullable? some v = some metrics) :
    MetricsFormed metrics := by
  unfold nullable? at h
  split at h
  case h_1 =>
    cases h
    nofun
  case h_2 =>
    cases h
    rintro w ⟨⟩
    exact hv

theorem holds_backend (b : Backend) (hformed : MetricsFormed b.metrics) (hplain : MetricsPlain b.metrics) :
    (Format.shape Backend).Holds depthMax (Format.toValue b) :=
  .record (by decide) (.cons (.text _) (.cons (.uuid b.moduleId.uuid) (.cons (.text _) (.cons (.text _)
    (.cons (.text _) (.cons (.text _) (.cons (.text _) (.cons (.text _) (.cons (holds_endpoints _ 124)
      (.cons (holds_names _ 125) (.cons (holds_metrics hformed hplain)
        (.cons (holds_time _ 125) .nil))))))))))))

theorem backend_back (b : Backend) (hplain : MetricsPlain b.metrics) :
    Format.ofValue (Format.toValue b) = some b :=
  bind_some (text?_string _) <| bind_some (uuid?_text b.moduleId.uuid) <| bind_some (text?_string _) <|
    bind_some (text?_string _) <| bind_some (text?_string _) <| bind_some (text?_string _) <|
    bind_some (text?_string _) <| bind_some (text?_string _) <| bind_some (endpoints?_ofEndpoints _) <|
    bind_some (names_back _) <| bind_some (metrics_back hplain) <| bind_some (time?_ofTime _) rfl

theorem read_record {fields : List (String × Presence × Shape)} {d : Nat}
    (hkeys : (fields.map (·.1)).Nodup) (h : (Shape.record fields).read d bs = .ok (v, rest)) :
    ∃ ms, v = .object ms ∧ List.Forall₂ Gives (slotsOf fields) ms := by
  rw [Shape.read] at h
  exact readRecord_given (by rw [Shape.keys_slotsOf]; exact hkeys) h

theorem backend_formed {b : Backend} (h : decode Backend bs = .ok b) : MetricsFormed b.metrics := by
  obtain ⟨v, rest, hread, hb⟩ := decode_ok h
  obtain ⟨ms, rfl, hms⟩ := read_record (by decide) hread
  -- the metrics are the eleventh of twelve fields
  iterate 10 obtain ⟨_, _, -, hms, _⟩ := List.forall₂_cons_left_iff.mp hms
  obtain ⟨m, _, hm, hms, _⟩ := List.forall₂_cons_left_iff.mp hms
  obtain ⟨_, _, -, hms, _⟩ := List.forall₂_cons_left_iff.mp hms
  obtain rfl := List.forall₂_nil_left_iff.mp hms
  subst_vars
  iterate 10 obtain ⟨_, -, hb⟩ := Option.bind_eq_some_iff.mp hb
  obtain ⟨metrics, hmetrics, hb⟩ := Option.bind_eq_some_iff.mp hb
  obtain ⟨_, -, hb⟩ := Option.bind_eq_some_iff.mp hb
  cases hb
  refine metrics_formed (sorted_of_gives hm ?_) hmetrics
  rintro w ⟨⟩
  exact .null

theorem holds_declaration (b : BackendDeclaration) (hformed : MetricsFormed b.metrics)
    (hplain : MetricsPlain b.metrics) :
    (Format.shape BackendDeclaration).Holds depthMax (Format.toValue b) :=
  .record (by decide) (.cons (.text _) (.cons (.text _) (.cons (.text _) (.cons (.text _)
    (.cons (holds_endpoints _ 124) (.cons (holds_names _ 125)
      (.cons (holds_metrics hformed hplain) .nil)))))))

theorem declaration_back (b : BackendDeclaration) (hplain : MetricsPlain b.metrics) :
    Format.ofValue (Format.toValue b) = some b :=
  bind_some (text?_string _) <| bind_some (text?_string _) <| bind_some (text?_string _) <|
    bind_some (text?_string _) <| bind_some (endpoints?_ofEndpoints _) <| bind_some (names_back _) <|
    bind_some (metrics_back hplain) rfl

theorem declaration_formed {b : BackendDeclaration} (h : decode BackendDeclaration bs = .ok b) :
    MetricsFormed b.metrics := by
  obtain ⟨v, rest, hread, hb⟩ := decode_ok h
  obtain ⟨ms, rfl, hms⟩ := read_record (by decide) hread
  -- the metrics are the last of seven fields
  iterate 6 obtain ⟨_, _, -, hms, _⟩ := List.forall₂_cons_left_iff.mp hms
  obtain ⟨m, _, hm, hms, _⟩ := List.forall₂_cons_left_iff.mp hms
  obtain rfl := List.forall₂_nil_left_iff.mp hms
  subst_vars
  iterate 6 obtain ⟨_, -, hb⟩ := Option.bind_eq_some_iff.mp hb
  obtain ⟨metrics, hmetrics, hb⟩ := Option.bind_eq_some_iff.mp hb
  cases hb
  refine metrics_formed (sorted_of_gives hm ?_) hmetrics
  rintro w ⟨⟩
  exact .null

/-- Both documents keep their members in order. -/
def ConfigSchemaDeclaration.Formed (s : ConfigSchemaDeclaration) : Prop :=
  s.schema.Sorted ∧ s.defaultConfig.Sorted

/-- Both documents hold no double and nest at most 100 deep. -/
def ConfigSchemaDeclaration.Plain (s : ConfigSchemaDeclaration) : Prop :=
  s.schema.Plain 100 ∧ s.defaultConfig.Plain 100

theorem holds_schemaDeclaration (s : ConfigSchemaDeclaration) (hformed : s.Formed) (hplain : s.Plain) :
    (Format.shape ConfigSchemaDeclaration).Holds depthMax (Format.toValue s) :=
  .record (by decide) (.cons (.text _) (.cons (.any (hplain.1.mono (by decide)) hformed.1)
    (.cons (.any (hplain.2.mono (by decide)) hformed.2) .nil)))

theorem schemaDeclaration_back (s : ConfigSchemaDeclaration) :
    Format.ofValue (Format.toValue s) = some s :=
  bind_some (text?_string _) rfl

theorem schemaDeclaration_formed {s : ConfigSchemaDeclaration}
    (h : decode ConfigSchemaDeclaration bs = .ok s) : s.Formed := by
  obtain ⟨v, rest, hread, hs⟩ := decode_ok h
  obtain ⟨ms, rfl, hms⟩ := read_record (by decide) hread
  obtain ⟨_, _, -, hms, _⟩ := List.forall₂_cons_left_iff.mp hms
  obtain ⟨schema, _, hschema, hms, _⟩ := List.forall₂_cons_left_iff.mp hms
  obtain ⟨config, _, hconfig, hms, _⟩ := List.forall₂_cons_left_iff.mp hms
  obtain rfl := List.forall₂_nil_left_iff.mp hms
  subst_vars
  obtain ⟨_, -, hs⟩ := Option.bind_eq_some_iff.mp hs
  cases hs
  exact ⟨sorted_of_gives hschema nofun, sorted_of_gives hconfig nofun⟩

/-- All stored and sent forms are faithful; free-form documents must not hold doubles, must not nest
too deep, and metrics must not be null. -/
theorem formats_faithful :
    Faithful Timestamp ∧ Faithful EventPayload ∧ Faithful Event ∧ Faithful Module ∧
    Faithful Endpoint ∧ Faithful Config ∧ Faithful ConfigSchema ∧ Faithful BackendsSnapshot ∧
    Faithful RouteEntry ∧ Faithful ModuleRequirements ∧
    FaithfulOn Backend (fun b => MetricsFormed b.metrics) (fun b => MetricsPlain b.metrics) ∧
    FaithfulOn BackendDeclaration (fun b => MetricsFormed b.metrics) (fun b => MetricsPlain b.metrics) ∧
    FaithfulOn ConfigSchemaDeclaration ConfigSchemaDeclaration.Formed ConfigSchemaDeclaration.Plain := by
  refine ⟨?_, ?_, ?_, ?_, ?_, ?_, ?_, ?_, ?_, ?_, ?_, ?_, ?_⟩
  · exact .of_shape (holds_time · 126) time?_ofTime
  · exact .of_shape (holds_payload · 126) payload_back
  · exact .of_shape (holds_event · 125) event_back
  · exact .of_shape (holds_module · 125) module_back
  · exact .of_shape (holds_endpoint · 126) endpoint_back
  · exact .of_shape (holds_config · 125) config_back
  · exact .of_shape (holds_schema · 125) schema_back
  · exact snapshot_faithful
  · exact .of_shape (holds_route · 124) route_back
  · exact .of_shape (holds_requirements · 125) requirements_back
  · exact .of_shape holds_backend backend_back fun _ _ => backend_formed
  · exact .of_shape holds_declaration declaration_back fun _ _ => declaration_formed
  · exact .of_shape holds_schemaDeclaration (fun s _ => schemaDeclaration_back s)
      fun _ _ => schemaDeclaration_formed

/-- A declaration with texts that need escapes, a number at the bound and nested metrics. -/
def awkwardDeclaration : BackendDeclaration where
  address := "\"\\\n\x00é😀"
  version := ""
  libVersion := "\t/\r"
  transport := "http"
  endpoints := [⟨"/\"", true⟩]
  requiredModules := ["é", "\\"]
  metrics := some (.object
    [("\n", .array [.natural 0xFFFFFFFFFFFFFFFF, .number (.negative 0), .null]), ("a", .object [])])

theorem awkward_declaration_returns :
    MetricsFormed awkwardDeclaration.metrics ∧ MetricsPlain awkwardDeclaration.metrics ∧
      decode BackendDeclaration (encode awkwardDeclaration) = .ok awkwardDeclaration := by
  have hformed : MetricsFormed awkwardDeclaration.metrics := by
    rintro v ⟨⟩
    refine .object (by decide) (List.forall_mem_cons.mpr ⟨.array ?_, ?_⟩)
    · exact List.forall_mem_cons.mpr ⟨.number _, List.forall_mem_cons.mpr ⟨.number _,
        List.forall_mem_singleton.mpr .null⟩⟩
    · exact List.forall_mem_singleton.mpr (.object .nil nofun)
  have hplain : MetricsPlain awkwardDeclaration.metrics := by
    rintro v ⟨⟩
    refine ⟨.object (List.forall_mem_cons.mpr ⟨.array ?_, ?_⟩), nofun⟩
    · exact List.forall_mem_cons.mpr ⟨.natural _, List.forall_mem_cons.mpr ⟨.negative _,
        List.forall_mem_singleton.mpr .null⟩⟩
    · exact List.forall_mem_singleton.mpr (.object nofun)
  obtain ⟨-, -, -, -, -, -, -, -, -, -, -, hfaithful, -⟩ := formats_faithful
  exact ⟨hformed, hplain, hfaithful.returns _ hformed hplain⟩

end ConfigRegistry
