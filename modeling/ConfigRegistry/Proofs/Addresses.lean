import ConfigRegistry.Proofs.Failures
import ConfigRegistry.Proofs.Outcomes

/-!
# Which addresses are accepted

A backend has to be declared at a host and a port. What is accepted is decided on every
text (`Address.isValid_iff`): the port may also have a plus sign, which no address has.
A module that declares anything else is told so, and nothing is stored.
-/

namespace ConfigRegistry

/-! ## Numbers -/

namespace Decimal

theorem value_char {c : Char} (hc : c.isDigit = true) :
    value (UInt8.ofNat c.toNat) = c.toNat - '0'.toNat := by
  have hle : c.toNat ≤ '9'.toNat := by
    simp only [Char.isDigit, Bool.and_eq_true, decide_eq_true_eq] at hc
    exact hc.2
  have hbyte : (UInt8.ofNat c.toNat).toNat = c.toNat :=
    UInt8.toNat_ofNat_of_lt' (Nat.lt_of_le_of_lt hle (by decide))
  unfold value
  rw [hbyte]
  rfl

/-- The digits of a text are read as a number. -/
theorem ofDigits_chars {digits : List Char} (h : ∀ c ∈ digits, c.isDigit = true) :
    ofDigits (digits.map fun c => UInt8.ofNat c.toNat) = Nat.ofDigitChars 10 digits 0 := by
  have hfrom : ∀ n, (digits.map fun c => UInt8.ofNat c.toNat).foldl (fun n b => 10 * n + value b) n =
      Nat.ofDigitChars 10 digits n := by
    induction digits with
    | nil => exact fun _ => rfl
    | cons c rest ih =>
      intro n
      have hrest := ih (fun c' hc' => h c' (List.mem_cons_of_mem c hc')) (10 * n + (c.toNat - '0'.toNat))
      rw [List.map_cons, List.foldl_cons, value_char (h c List.mem_cons_self), hrest]
      rfl
  exact hfrom 0

/-- A text without a plus sign in front. -/
def unsigned : List Char → List Char
  | '+' :: rest => rest
  | cs => cs

theorem unsigned_eq {cs digits : List Char} (h : ∀ c ∈ digits, c.isDigit = true) :
    unsigned cs = digits ↔ cs = digits ∨ cs = '+' :: digits := by
  constructor
  · rintro rfl
    unfold unsigned
    split
    · exact .inr rfl
    · exact .inl rfl
  · rintro (rfl | rfl)
    · unfold unsigned
      split
      · exact absurd (h '+' List.mem_cons_self) (by decide)
      · rfl
    · rfl

theorem spelled?_eq (bound : Nat) (cs : List Char) : spelled? bound cs =
    if !(unsigned cs).isEmpty && (unsigned cs).all (·.isDigit) then
      if ofDigits ((unsigned cs).map fun c => UInt8.ofNat c.toNat) < bound then
        some (ofDigits ((unsigned cs).map fun c => UInt8.ofNat c.toNat))
      else none
    else none := by
  unfold spelled?
  split
  · rfl
  · rename_i hsign
    have hsame : unsigned cs = cs := by
      unfold unsigned
      split
      · exact (hsign _ rfl).elim
      · rfl
    rw [hsame]
    rfl

/-- What is read as a number: digits, or digits behind a plus sign. -/
theorem spelled?_eq_some {bound n : Nat} {cs : List Char} : spelled? bound cs = some n ↔
    ∃ digits, (cs = digits ∨ cs = '+' :: digits) ∧ digits ≠ [] ∧
      (∀ c ∈ digits, c.isDigit = true) ∧ Nat.ofDigitChars 10 digits 0 = n ∧ n < bound := by
  rw [spelled?_eq]
  constructor
  · intro h
    split at h
    · rename_i hdigits
      obtain ⟨hne, hall⟩ := Bool.and_eq_true_iff.mp hdigits
      have hchars : ∀ c ∈ unsigned cs, c.isDigit = true := List.all_eq_true.mp hall
      rw [ofDigits_chars hchars] at h
      split at h
      · rename_i hlt
        obtain rfl := Option.some.inj h
        exact ⟨_, (unsigned_eq hchars).mp rfl, by simpa using hne, hchars, rfl, hlt⟩
      · cases h
    · cases h
  · rintro ⟨digits, hsign, hne, hchars, rfl, hlt⟩
    have hdigits : (!digits.isEmpty && digits.all (·.isDigit)) = true :=
      Bool.and_eq_true_iff.mpr ⟨by simpa using hne, List.all_eq_true.mpr hchars⟩
    rw [(unsigned_eq hchars).mpr hsign, if_pos hdigits, ofDigits_chars hchars, if_pos hlt]

end Decimal

namespace Address

variable {c : Char} {cs before after : List Char}

/-! ## Hosts and ports -/

theorem splitLast?_of_not_mem (h : c ∉ cs) : splitLast? c cs = none := by
  induction cs with
  | nil => rfl
  | cons x rest ih =>
    obtain ⟨hx, hrest⟩ := not_or.mp (mt List.mem_cons.mpr h)
    rw [splitLast?, ih hrest, if_neg (Ne.symm hx)]

theorem splitLast?_append (h : c ∉ after) : splitLast? c (before ++ c :: after) = some (before, after) := by
  induction before with
  | nil => rw [List.nil_append, splitLast?, splitLast?_of_not_mem h, if_pos rfl]
  | cons x rest ih => rw [List.cons_append, splitLast?, ih]

/-- A text is cut behind what comes before the last occurrence. -/
theorem splitLast?_eq_some :
    splitLast? c cs = some (before, after) ↔ cs = before ++ c :: after ∧ c ∉ after := by
  constructor
  · intro h
    by_cases hc : c ∈ cs
    · obtain ⟨late, early, hcs, hlate⟩ := List.eq_append_cons_of_mem (List.mem_reverse.mpr hc)
      have hcut : cs = early.reverse ++ c :: late.reverse := by
        rw [← List.reverse_reverse cs, hcs]
        simp
      have hnew : c ∉ late.reverse := mt List.mem_reverse.mp hlate
      rw [hcut, splitLast?_append hnew] at h
      obtain ⟨rfl, rfl⟩ := Prod.mk.inj (Option.some.inj h)
      exact ⟨hcut, hnew⟩
    · rw [splitLast?_of_not_mem hc] at h
      cases h
  · rintro ⟨rfl, h⟩
    exact splitLast?_append h

/-- A text is a host, a colon, perhaps a sign, and the digits of a port. An address has no sign. -/
def Spells (sign : List Char) (address : String) : Prop :=
  ∃ host port, address.toList = host ++ ':' :: (sign ++ port) ∧ host ≠ [] ∧ port ≠ [] ∧
    (∀ c ∈ port, c.isDigit = true) ∧ 1 ≤ Nat.ofDigitChars 10 port 0 ∧
    Nat.ofDigitChars 10 port 0 ≤ 65535

/-- A text is accepted when it is an address, perhaps with a plus sign before its port. -/
theorem isValid_iff {address : String} :
    isValid address = true ↔ Spells [] address ∨ Spells ['+'] address := by
  constructor
  · intro h
    unfold isValid at h
    split at h
    · cases h
    · rename_i host port hcut
      obtain ⟨htext, -⟩ := splitLast?_eq_some.mp hcut
      obtain ⟨hhost, hport⟩ := Bool.and_eq_true_iff.mp h
      cases hp : port? port with
      | none => simp [hp] at hport
      | some n =>
        obtain ⟨digits, hsign, hne, hall, hn, hlt⟩ := Decimal.spelled?_eq_some.mp hp
        have hzero : n ≠ 0 := by simpa [hp] using hport
        have hhost' : host ≠ [] := by simpa using hhost
        rcases hsign with rfl | rfl
        · exact .inl ⟨host, port, htext, hhost', hne, hall, by omega, by omega⟩
        · exact .inr ⟨host, digits, htext, hhost', hne, hall, by omega, by omega⟩
  · have haccepted : ∀ {host port digits : List Char}, address.toList = host ++ ':' :: port →
        (port = digits ∨ port = '+' :: digits) → host ≠ [] → digits ≠ [] →
        (∀ c ∈ digits, c.isDigit = true) → 1 ≤ Nat.ofDigitChars 10 digits 0 →
        Nat.ofDigitChars 10 digits 0 ≤ 65535 → isValid address = true := by
      intro host port digits htext hsign hhost hne hall hpos hle
      have hcolon : ':' ∉ port := by
        have hdigits : ':' ∉ digits := fun hmem => absurd (hall ':' hmem) (by decide)
        rcases hsign with rfl | rfl
        · exact hdigits
        · simpa using hdigits
      have hport : port? port = some (Nat.ofDigitChars 10 digits 0) :=
        Decimal.spelled?_eq_some.mpr ⟨digits, hsign, hne, hall, rfl, by omega⟩
      unfold isValid
      rw [splitLast?_eq_some.mpr ⟨htext, hcolon⟩]
      simp only [hport, Option.map_some, Option.getD_some, Bool.and_eq_true, Bool.not_eq_true',
        List.isEmpty_eq_false_iff, bne_iff_ne]
      exact ⟨hhost, by omega⟩
    rintro (⟨host, port, htext, hhost, hne, hall, hpos, hle⟩ | ⟨host, port, htext, hhost, hne, hall, hpos, hle⟩)
    · exact haccepted htext (.inl rfl) hhost hne hall hpos hle
    · exact haccepted htext (.inr rfl) hhost hne hall hpos hle

/-- A text is cut at one place, so what has a sign before its port is no address. -/
theorem Spells.not_signed {address : String} (h : Spells [] address) : ¬ Spells ['+'] address := by
  obtain ⟨host, port, htext, -, -, hall, -, -⟩ := h
  rintro ⟨host', port', htext', -, -, hdigits, -, -⟩
  have hcolon : ':' ∉ port := fun hmem => absurd (hall ':' hmem) (by decide)
  have hcolon' : ':' ∉ '+' :: port' := by
    simpa using fun hmem => absurd (hdigits ':' hmem) (by decide)
  have hcut := splitLast?_eq_some.mpr ⟨htext, hcolon⟩
  rw [splitLast?_eq_some.mpr ⟨htext', hcolon'⟩] at hcut
  obtain rfl : '+' :: port' = port := (Prod.mk.inj (Option.some.inj hcut)).2
  exact absurd (hall '+' List.mem_cons_self) (by decide)

end Address

/-! ## Becoming ready -/

namespace Lifecycle

open World (Aside)

variable {n : Nat} {p : Place} {s : Session} {d : BackendDeclaration} {m : ModuleId} {w : World}

/-- The backend that a session declares. -/
def declaredBackend (p : Place) (s : Session) (m : ModuleId) (d : BackendDeclaration) (w : World) :
    Backend where
  connectionId := s.conn
  moduleId := m
  address := d.address
  version := d.version
  libVersion := d.libVersion
  moduleName := (w.peer s).context.moduleName.getD ""
  transport := d.transport
  nodeId := p.nodeId
  endpoints := d.endpoints
  requiredModules := d.requiredModules
  metrics := d.metrics
  createdAt := w.reading

/-- With an address that is accepted a session becomes ready, unless event ids have run out. -/
theorem run_onReady (hw : w.Responsive) (hm : (w.peer s).context.moduleId = some m)
    (hd : Address.isValid d.address = true) (hids : w.store.live.lastEventId.toNat + 1 < UInt64.size) :
    ∃ v, w.run n (onReady p s d).outcome = .finished v (.ok (declaredBackend p s m d w)) ∧
      Readied p s w (declaredBackend p s m d w) v := by
  let b := declaredBackend p s m d w
  obtain ⟨⟨e, t⟩, happend⟩ := Tables.append?_isSome (t := w.store.live.insertBackend b)
    ⟨.moduleReady, m⟩ w.ticked.reading hids
  have hname : w.run n (moduleName s).outcome =
      .finished w (.ok ((w.peer s).context.moduleName.getD "")) := rfl
  have hinsert : w.ticked.run n (Transition.call p.limits (.insertBackend b)).outcome =
      .finished (w.ticked.write (w.store.live.insertBackend b)) (.ok ()) :=
    Action.run_write hw.ticked rfl rfl
  have happended : (w.ticked.write (w.store.live.insertBackend b)).run n
      (Transition.call p.limits (.appendEvent ⟨.moduleReady, m⟩)).outcome =
      .finished (w.ticked.ticked.write t) (.ok e) :=
    Action.run_write (hw.ticked.write _) rfl happend
  refine ⟨_, run_report_ok ?_, hw.available, rfl, rfl, hm, e, t, happend, rfl⟩
  unfold readySteps
  rw [Action.run_bind_ok (run_identified hm)]
  simp only [hd, Bool.not_true, Bool.false_eq_true, ↓reduceIte]
  rw [Action.run_bind_ok hname, Action.run_bind_ok Action.run_clock]
  refine (Action.run_bind_ok hinsert).trans ?_
  refine (Action.run_bind_ok happended).trans ?_
  rfl

/-- What becomes of a declaration whose address is refused. -/
structure Declined (n : Nat) (p : Place) (s : Session) (d : BackendDeclaration) (w : World) : Prop where
  /-- Unless its peer is silent the session is told so, whatever happens while it waits. -/
  returns : (w.peer s).behaviour ≠ .hang → (onReady p s d).Returns n s (w.peer s).behaviour
    (fun o _ => o = .error (.invalidAddress d.address)) w
  /-- Whoever the peer is, all tables stay as they are. -/
  leaves : ∀ underway, (onReady p s d).Ensures n underway (fun o v => Aside underway s w v ∧
    (o = some (.error (.invalidAddress d.address)) ∨ o = none)) w

theorem declined (hw : w.Still) (hm : (w.peer s).context.moduleId = some m)
    (hd : Address.isValid d.address = false) : Declined n p s d w where
  returns := by
    intro hb
    have hrun : w.run n (readySteps p s d).outcome =
        .finished w (.error (.invalidAddress d.address)) := by
      unfold readySteps
      rw [Action.run_bind_ok (run_identified hm), hd]
      rfl
    refine report_returns ?_
    unfold Action.Returns
    rw [hrun]
    exact ⟨⟨rfl, w.store.live.lastEventId.toNat_lt⟩, rfl, fun h => absurd h hb⟩
  leaves := by
    intro underway
    refine ensures_report ?_
    unfold readySteps
    simp only [Action.ensures_bind, ensures_identified, hm, World.Progress.afterOk, hd, Bool.not_false,
      ↓reduceIte, Action.ensures_throw]
    exact ⟨hw.outbox, fun o v hv ho => ⟨hv, ho⟩⟩

/-- Whatever text a session that connected declares as its address: a host, a colon and the digits of
a port, perhaps behind a plus sign, and it becomes ready; anything else, and the text is refused and
nothing is stored. -/
theorem ready_where_spelled (n : Nat) (p : Place) (s : Session) (d : BackendDeclaration) (m : ModuleId)
    (w : World) (hw : w.Still) (ha : w.store.available = true)
    (hm : (w.peer s).context.moduleId = some m) :
    (Address.Spells [] d.address ∨ Address.Spells ['+'] d.address →
      w.store.live.lastEventId.toNat + 1 < UInt64.size →
      ∃ b v, w.run n (onReady p s d).outcome = .finished v (.ok b) ∧ Readied p s w b v ∧
        b.address = d.address) ∧
    (¬ (Address.Spells [] d.address ∨ Address.Spells ['+'] d.address) → Declined n p s d w) := by
  constructor
  · intro hd hids
    obtain ⟨v, hrun, hready⟩ := run_onReady (n := n) (p := p) ⟨hw.faults, ha⟩ hm
      (Address.isValid_iff.mpr hd) hids
    exact ⟨_, v, hrun, hready, rfl⟩
  · intro hd
    exact declined hw hm (Bool.eq_false_iff.mpr (mt Address.isValid_iff.mp hd))

/-- A node and its one session, which connected. -/
def attached : World :=
  { World.initial default with
    nodes := [.fresh ⟨⟨"n1"⟩, ⟨2000, 2000⟩, ⟨100, .oldestFirst⟩⟩ true]
    peers := [⟨⟨"c1"⟩, .record, ⟨some default, some "auth", none⟩, 0⟩] }

/-- The largest port may have leading zeros and follow other colons. The next number is refused. -/
theorem ready_at_largest_port :
    let p : Place := ⟨⟨"n1"⟩, ⟨2000, 2000⟩⟩
    let s : Session := ⟨0, ⟨"c1"⟩⟩
    let d : String → BackendDeclaration := fun address => ⟨address, "1", "1", "http", [], [], none⟩
    Address.Spells [] "[::1]:0065535" ∧ ¬ Address.Spells [] "[::1]:0065536" ∧
      (∃ b v, attached.run 0 (onReady p s (d "[::1]:0065535")).outcome = .finished v (.ok b) ∧
        b.address = "[::1]:0065535") ∧
      Declined 0 p s (d "[::1]:0065536") attached := by
  intro p s d
  have hlargest : Address.Spells [] "[::1]:0065535" :=
    ⟨"[::1]".toList, "0065535".toList, rfl, by decide, by decide, List.all_eq_true.mp rfl, by decide⟩
  have hnext : ¬ (Address.Spells [] "[::1]:0065536" ∨ Address.Spells ['+'] "[::1]:0065536") :=
    mt Address.isValid_iff.mpr (by decide)
  have hready := fun address => ready_where_spelled 0 p s (d address) default attached ⟨rfl, rfl⟩ rfl rfl
  obtain ⟨b, v, hrun, -, hb⟩ := (hready "[::1]:0065535").1 (.inl hlargest) (by decide)
  exact ⟨hlargest, fun h => hnext (.inl h), ⟨b, v, hrun, hb⟩, (hready _).2 hnext⟩

/-- The plus sign is accepted: what becomes ready need not have an address. -/
theorem plus_sign_becomes_ready :
    ¬ ∀ (n : Nat) (p : Place) (s : Session) (d : BackendDeclaration) (m : ModuleId) (w : World),
      w.Still → w.store.available = true → (w.peer s).context.moduleId = some m →
      w.store.live.lastEventId.toNat + 1 < UInt64.size →
      ((∃ b v, w.run n (onReady p s d).outcome = .finished v (.ok b)) ↔
        Address.Spells [] d.address) := by
  intro hclaim
  have hsigned : Address.Spells ['+'] "10.0.0.1:+80" :=
    ⟨"10.0.0.1".toList, "80".toList, rfl, by decide, by decide, List.all_eq_true.mp rfl, by decide⟩
  let d : BackendDeclaration := ⟨"10.0.0.1:+80", "1", "1", "http", [], [], none⟩
  obtain ⟨v, hrun, -⟩ := run_onReady (n := 0) (p := ⟨⟨"n1"⟩, ⟨2000, 2000⟩⟩) (s := ⟨0, ⟨"c1"⟩⟩) (d := d)
    (m := default) (w := attached) ⟨rfl, rfl⟩ rfl (Address.isValid_iff.mpr (.inr hsigned)) (by decide)
  have haddress := (hclaim _ _ _ _ _ _ ⟨rfl, rfl⟩ rfl rfl (by decide)).mp ⟨_, v, hrun⟩
  exact haddress.not_signed hsigned

end Lifecycle

end ConfigRegistry
