import ConfigRegistry.Proofs.JsonLiterals
import ConfigRegistry.Proofs.TomlStrings
import ConfigRegistry.Toml.Document

/-!
# Documents are read back

Members with bare keys whose values are strings, numbers or truth values are written one a line,
and read back as they were (`Toml.read_write`).
-/

namespace ConfigRegistry.Toml

variable {c : Char} {cs ds rest text : List Char} {n count low high depth fuel : Nat} {key : String}
  {v : Value} {ms : Members}

/-! ## Digits -/

def decimalDigits : List Char := ['0', '1', '2', '3', '4', '5', '6', '7', '8', '9']

theorem char_digit : ∀ m : Fin 10, Char.ofNat (Decimal.digit m.val).toNat ∈ decimalDigits ∧
    hexValue? (Char.ofNat (Decimal.digit m.val).toNat) = some m.val := by
  decide

theorem digit_value {b : UInt8} (hb : Decimal.isDigit b = true) :
    ∃ m : Fin 10, b = Decimal.digit m.val ∧ Decimal.value b = m.val := by
  simp only [Decimal.isDigit, Bool.and_eq_true, decide_eq_true_eq, UInt8.le_iff_toNat_le] at hb
  have hlow : 48 ≤ b.toNat := hb.1
  have hhigh : b.toNat ≤ 57 := hb.2
  refine ⟨⟨b.toNat - 48, by omega⟩, ?_, rfl⟩
  rw [Decimal.digit, Nat.add_sub_cancel' hlow, UInt8.ofNat_toNat]

theorem toList_text (n : Nat) :
    (Decimal.text n).toList = (Decimal.digits n).map fun b => Char.ofNat b.toNat :=
  String.toList_ofList

theorem mem_text (hc : c ∈ (Decimal.text n).toList) : c ∈ decimalDigits := by
  rw [toList_text] at hc
  obtain ⟨b, hb, rfl⟩ := List.mem_map.mp hc
  obtain ⟨m, rfl, -⟩ := digit_value (Decimal.isDigit_of_mem_digits n b hb)
  exact (char_digit m).1

/-- Only zero starts with a zero. -/
theorem text_cons (n : Nat) : ∃ c cs, (Decimal.text n).toList = c :: cs ∧ (c = '0' → cs = []) := by
  obtain ⟨b, ds, hdigits, hb, hzero⟩ := Decimal.digits_cons n
  rw [toList_text, hdigits]
  refine ⟨_, _, rfl, fun h => ?_⟩
  obtain ⟨m, rfl, -⟩ := digit_value hb
  have hm : ∀ m : Fin 10, Char.ofNat (Decimal.digit m.val).toNat = '0' → Decimal.digit m.val = 0x30 := by
    decide
  rw [hzero (hm m h)]
  rfl

theorem ofDigits_append {base d : Nat} (h : hexValue? c = some d) (cs : List Char) :
    ofDigits base (cs ++ [c]) = base * ofDigits base cs + d := by
  simp [ofDigits, h]

theorem ofDigits_text (n : Nat) : ofDigits 10 (Decimal.text n).toList = n := by
  rw [toList_text]
  induction n using Nat.strongRecOn with
  | ind n ih =>
    unfold Decimal.digits
    split
    case isTrue h =>
      have hdigit : ofDigits 10 ([] ++ [_]) = 10 * ofDigits 10 [] + n :=
        ofDigits_append (char_digit ⟨n, h⟩).2 []
      exact hdigit.trans (by simp [ofDigits])
    case isFalse h =>
      have hlast : n % 10 < 10 := Nat.mod_lt n (by decide)
      rw [List.map_append, List.map_singleton, ofDigits_append (char_digit ⟨n % 10, hlast⟩).2,
        ih (n / 10) (by omega)]
      exact Nat.div_add_mod n 10

/-! ## Numbers are no dates -/

/-- Digits are followed by the end of the line, so a field takes some of them or there is none. -/
theorem readField_digits : readField count low high (ds ++ '\n' :: rest) = none ∨
    ∃ k, readField count low high (ds ++ '\n' :: rest) = some (k, ds.drop count ++ '\n' :: rest) := by
  unfold readField
  by_cases hcount : count ≤ ds.length
  · rw [List.drop_append_of_le_length hcount]
    dsimp only
    split
    · split
      · exact .inr ⟨_, rfl⟩
      · exact .inl rfl
    · exact .inl rfl
  · refine .inl (if_neg fun hfield => ?_)
    have hend : '\n' ∈ (ds ++ '\n' :: rest).take count := by
      obtain ⟨k, hk⟩ := Nat.exists_eq_add_one.mpr (Nat.sub_pos_of_lt (Nat.lt_of_not_le hcount))
      rw [List.take_append, hk]
      exact List.mem_append_right _ List.mem_cons_self
    exact absurd (List.all_eq_true.mp hfield.2 _ hend) (by decide)

theorem readMoment_eq_none (hdate : skipDate cs = none) (hclock : skipClock cs = none) :
    readMoment cs = none := by
  rw [readMoment, skipMoment, hdate]
  simp [hclock]

section Moments

variable (hds : ∀ c ∈ ds, c ∈ decimalDigits)
include hds

theorem readMark_digits (hc : c ≠ '\n') (hdigit : c ∉ decimalDigits) :
    readMark c (ds ++ '\n' :: rest) = none := by
  cases ds with
  | nil => exact if_neg hc.symm
  | cons d ds =>
    refine if_neg ?_
    rintro rfl
    exact hdigit (hds d List.mem_cons_self)

theorem readMoment_digits (rest : List Char) : readMoment (ds ++ '\n' :: rest) = none := by
  have hmark : ∀ (count : Nat) (c : Char), c ≠ '\n' → c ∉ decimalDigits →
      readMark c (ds.drop count ++ '\n' :: rest) = none := fun count c hc hdigit =>
    readMark_digits (fun d hd => hds d (List.mem_of_mem_drop hd)) hc hdigit
  refine readMoment_eq_none ?date ?clock
  case date =>
    unfold skipDate
    rcases readField_digits with h | ⟨k, h⟩
    · rw [h]
      rfl
    · rw [h]
      simp [hmark 4 '-' (by decide) (by decide)]
  case clock =>
    unfold skipClock
    rcases readField_digits with h | ⟨k, h⟩
    · rw [h]
      rfl
    · rw [h]
      simp [hmark 2 ':' (by decide) (by decide)]

end Moments

theorem readMoment_minus : readMoment ('-' :: cs) = none := by
  have hfield : ∀ count low high, readField (count + 1) low high ('-' :: cs) = none :=
    fun count low high => if_neg fun h => absurd (List.all_eq_true.mp h.2 '-' List.mem_cons_self) (by decide)
  refine readMoment_eq_none ?date ?clock
  case date =>
    rw [skipDate, hfield]
    rfl
  case clock =>
    rw [skipClock, hfield]
    rfl

/-! ## Numbers -/

theorem isSpaced_digits (hne : ds ≠ []) (hds : ∀ c ∈ ds, c ∈ decimalDigits) : isSpaced ds = true := by
  have hno : ∀ c ∈ decimalDigits, c ≠ '_' := forall_of_all (by decide)
  induction ds with
  | nil => exact absurd rfl hne
  | cons c cs ih =>
    have hc := hno c (hds c List.mem_cons_self)
    cases cs with
    | nil => simp [isSpaced, hc]
    | cons d ds =>
      have hd := hno d (hds d (by simp))
      have hrest := ih (List.cons_ne_nil d ds) fun c' hc' => hds c' (List.mem_cons_of_mem c hc')
      simp [isSpaced, hc, hd, hrest]

theorem readDigits_text (n : Nat) :
    readDigits 10 ((Decimal.text n).toList ++ '\n' :: rest) =
      some ((Decimal.text n).toList, '\n' :: rest) := by
  have hbelongs : ∀ c ∈ decimalDigits, (isDigitOf 10 c || decide (c = '_')) = true :=
    forall_of_all (by decide)
  have hall : ∀ c ∈ (Decimal.text n).toList, (isDigitOf 10 c || decide (c = '_')) = true :=
    fun c hc => hbelongs c (mem_text hc)
  have htake : ('\n' :: rest).takeWhile (fun c => isDigitOf 10 c || decide (c = '_')) = [] := rfl
  have hdrop : ('\n' :: rest).dropWhile (fun c => isDigitOf 10 c || decide (c = '_')) = '\n' :: rest := rfl
  have hne : (Decimal.text n).toList ≠ [] := by
    obtain ⟨c, cs, hcons, -⟩ := text_cons n
    rw [hcons]
    exact List.cons_ne_nil c cs
  unfold readDigits
  simp only [List.takeWhile_append_of_pos hall, List.dropWhile_append_of_pos hall, htake, hdrop,
    List.append_nil, isSpaced_digits hne fun c hc => mem_text hc, ↓reduceIte]

/-- The digits of a number are read as the number. -/
theorem readDecimal_text (negative : Bool) (spelling : List Char) (n : Nat) (rest : List Char) :
    readDecimal negative spelling ((Decimal.text n).toList ++ '\n' :: rest) =
      (integer? (if negative then -(n : Int) else n)).map (·, '\n' :: rest) := by
  have hcanonical : isCanonical (Decimal.text n).toList = true := by
    obtain ⟨c, cs, hcons, hzero⟩ := text_cons n
    rw [hcons, isCanonical]
    by_cases hc : c = '0'
    · simp [hzero hc]
    · simp [hc]
  have hfraction : readFraction ('\n' :: rest) = some ([], '\n' :: rest) := rfl
  have hexponent : readExponent ('\n' :: rest) = some ((false, []), '\n' :: rest) := rfl
  unfold readDecimal
  rw [readDigits_text]
  simp [hcanonical, hfraction, hexponent, ofDigits_text]

theorem readSpecial_text (spelling : List Char) (n : Nat) (rest : List Char) :
    readSpecial spelling ((Decimal.text n).toList ++ rest) = none := by
  obtain ⟨c, cs, hcons, -⟩ := text_cons n
  have hletters : ∀ c ∈ decimalDigits, c ≠ 'i' ∧ c ≠ 'n' := forall_of_all (by decide)
  obtain ⟨hi, hn⟩ := hletters c (mem_text (hcons ▸ List.mem_cons_self))
  rw [hcons]
  refine if_neg ?_
  rintro (h | h)
  · exact hi (List.cons.inj h).1
  · exact hn (List.cons.inj h).1

theorem readNumber_text (n : Nat) (rest : List Char) :
    readNumber ((Decimal.text n).toList ++ '\n' :: rest) = (integer? n).map (·, '\n' :: rest) := by
  have hdecimal := readDecimal_text false ((Decimal.text n).toList ++ '\n' :: rest) n rest
  have hspecial := readSpecial_text ((Decimal.text n).toList ++ '\n' :: rest) n ('\n' :: rest)
  obtain ⟨c, cs, hcons, hzero⟩ := text_cons n
  have hdigit : c ∈ decimalDigits := mem_text (hcons ▸ List.mem_cons_self)
  rw [hcons] at hdecimal hspecial ⊢
  refine Eq.trans ?_ hdecimal
  by_cases hc : c = '0'
  · subst hc
    rw [hzero rfl]
    rfl
  · have hsigns : ∀ c ∈ decimalDigits, c ≠ '+' ∧ c ≠ '-' := forall_of_all (by decide)
    obtain ⟨hplus, hminus⟩ := hsigns c hdigit
    have hsign : readSign (c :: cs ++ '\n' :: rest) = (false, c :: cs ++ '\n' :: rest) := by
      simp [readSign, hplus, hminus]
    unfold readNumber
    split
    · rename_i h
      exact absurd (List.cons.inj h).1 hc
    · rw [hsign]
      dsimp only
      rw [hspecial]

theorem readNumber_minus_text (n : Nat) :
    readNumber ('-' :: ((Decimal.text n).toList ++ '\n' :: rest)) =
      (integer? (-n)).map (·, '\n' :: rest) := by
  have hdecimal := readDecimal_text true ('-' :: ((Decimal.text n).toList ++ '\n' :: rest)) n rest
  have hspecial := readSpecial_text ('-' :: ((Decimal.text n).toList ++ '\n' :: rest)) n ('\n' :: rest)
  refine Eq.trans ?_ hdecimal
  have hsign : readSign ('-' :: ((Decimal.text n).toList ++ '\n' :: rest)) =
      (true, (Decimal.text n).toList ++ '\n' :: rest) := rfl
  unfold readNumber
  split
  · rename_i h
    exact absurd (List.cons.inj h).1 (by decide)
  · rw [hsign]
    dsimp only
    rw [hspecial]

/-! ## Values -/

theorem writeString_cons (s : List Char) :
    ∃ q cs, writeString s = q :: cs ∧ (q = '"' ∨ q = '\'') := by
  unfold writeString
  cases style s with
  | basic => exact ⟨_, _, rfl, .inl rfl⟩
  | literal => exact ⟨_, _, rfl, .inr rfl⟩
  | basicOverLines => exact ⟨_, _, rfl, .inl rfl⟩
  | literalOverLines => exact ⟨_, _, rfl, .inr rfl⟩

/-- Where the text of a value starts, no blank, comment, array or table does. -/
def Opens (c : Char) : Prop := c ∉ [' ', '\t', '#', '[', '{']

instance (c : Char) : Decidable (Opens c) := inferInstanceAs (Decidable (_ ∉ _))

/-- What has a text: strings, truth values, and integers of 64 bits. -/
theorem writeScalar?_eq_some (h : writeScalar? v = some text) :
    (∃ s, v = .string s ∧ text = writeString s.toList) ∨
    (v = .boolean true ∧ text = ['t', 'r', 'u', 'e']) ∨
    (v = .boolean false ∧ text = ['f', 'a', 'l', 's', 'e']) ∨
    (∃ n : Nat, v = .integer n ∧ integer? n = some (.integer n) ∧ text = (Decimal.text n).toList) ∨
    ∃ n : Nat, v = .integer (-n) ∧ integer? (-n) = some (.integer (-n)) ∧
      text = '-' :: (Decimal.text n).toList := by
  unfold writeScalar? at h
  split at h
  case h_1 s => exact .inl ⟨s, rfl, (Option.some.inj h).symm⟩
  case h_2 n =>
    split at h
    · cases h
    · rename_i hrange
      have hword : integer? n = some (.integer n) := if_pos (by omega)
      have htext := (Option.some.inj h).symm
      by_cases hsign : n < 0
      · obtain ⟨m, rfl⟩ : ∃ m : Nat, n = -m := ⟨n.natAbs, by omega⟩
        simp only [hsign, ↓reduceIte, Int.natAbs_neg, Int.natAbs_natCast] at htext
        exact .inr (.inr (.inr (.inr ⟨m, rfl, hword, htext⟩)))
      · obtain ⟨m, rfl⟩ : ∃ m : Nat, n = m := ⟨n.natAbs, by omega⟩
        simp only [hsign, ↓reduceIte, Int.natAbs_natCast] at htext
        exact .inr (.inr (.inr (.inl ⟨m, rfl, hword, htext⟩)))
  case h_3 b =>
    obtain rfl := Option.some.inj h
    cases b
    · exact .inr (.inr (.inl ⟨rfl, rfl⟩))
    · exact .inr (.inl ⟨rfl, rfl⟩)
  case h_4 => cases h

theorem writeScalar?_cons (h : writeScalar? v = some text) : ∃ c cs, text = c :: cs ∧ Opens c := by
  rcases writeScalar?_eq_some h with ⟨s, -, rfl⟩ | ⟨-, rfl⟩ | ⟨-, rfl⟩ | ⟨n, -, -, rfl⟩ | ⟨n, -, -, rfl⟩
  · obtain ⟨q, cs, hcons, hq⟩ := writeString_cons s.toList
    exact ⟨q, cs, hcons, by rcases hq with rfl | rfl <;> decide⟩
  · exact ⟨_, _, rfl, by decide⟩
  · exact ⟨_, _, rfl, by decide⟩
  · obtain ⟨c, cs, hcons, -⟩ := text_cons n
    have hdigits : ∀ c ∈ decimalDigits, Opens c := forall_of_all (by decide)
    exact ⟨c, cs, hcons, hdigits c (mem_text (hcons ▸ List.mem_cons_self))⟩
  · exact ⟨_, _, rfl, by decide⟩

theorem readScalar_string (s : String) :
    readScalar (writeString s.toList ++ '\n' :: rest) = some (.string s, '\n' :: rest) := by
  have hread : readString (writeString s.toList ++ '\n' :: rest) = some (s.toList, '\n' :: rest) :=
    readString_writeString s.toList (by simp) (by simp)
  obtain ⟨q, cs, hcons, hq⟩ := writeString_cons s.toList
  have hquote : (decide (q = '"') || decide (q = '\'')) = true := by simpa using hq
  rw [hcons] at hread ⊢
  rw [List.cons_append, readScalar, if_pos hquote]
  rw [List.cons_append] at hread
  simp [hread]

theorem readScalar_natural (n : Nat) (h : integer? n = some (.integer n)) :
    readScalar ((Decimal.text n).toList ++ '\n' :: rest) = some (.integer n, '\n' :: rest) := by
  have hmoment := readMoment_digits (fun c hc => mem_text (n := n) hc) rest
  have hread := readNumber_text n rest
  obtain ⟨c, cs, hcons, -⟩ := text_cons n
  have hdigit : c ∈ decimalDigits := mem_text (hcons ▸ List.mem_cons_self)
  have hkinds : ∀ c ∈ decimalDigits, ¬ (decide (c = '"') || decide (c = '\'')) = true ∧
      (decide (c = '+') || decide (c = '-') || isDigitOf 10 c) = true := forall_of_all (by decide)
  obtain ⟨hquote, hnumber⟩ := hkinds c hdigit
  rw [hcons] at hmoment hread ⊢
  rw [List.cons_append, readScalar, if_neg hquote, if_pos hnumber, ← List.cons_append, hmoment, hread, h]
  rfl

theorem readScalar_minus (n : Nat) (h : integer? (-n) = some (.integer (-n))) :
    readScalar ('-' :: (Decimal.text n).toList ++ '\n' :: rest) = some (.integer (-n), '\n' :: rest) := by
  rw [List.cons_append, readScalar, if_neg (by decide), if_pos (by decide), readMoment_minus,
    readNumber_minus_text, h]
  rfl

/-- A value is read back at the end of its line. -/
theorem readScalar_writeScalar? (h : writeScalar? v = some text) (rest : List Char) :
    readScalar (text ++ '\n' :: rest) = some (v, '\n' :: rest) := by
  rcases writeScalar?_eq_some h with ⟨s, rfl, rfl⟩ | ⟨rfl, rfl⟩ | ⟨rfl, rfl⟩ | ⟨n, rfl, hn, rfl⟩ |
    ⟨n, rfl, hn, rfl⟩
  · exact readScalar_string s
  · rfl
  · rfl
  · exact readScalar_natural n hn
  · exact readScalar_minus n hn

theorem readValue_writeScalar? (depth : Nat) (h : writeScalar? v = some text) (rest : List Char) :
    readValue depth (text ++ '\n' :: rest) = some (v, '\n' :: rest) := by
  have hscalar := readScalar_writeScalar? h rest
  obtain ⟨c, cs, rfl, hopens⟩ := writeScalar?_cons h
  cases depth with
  | zero => exact hscalar
  | succ depth =>
    rw [← hscalar]
    unfold readValue
    split
    · rename_i hhead
      rw [(List.cons.inj hhead).1] at hopens
      exact absurd hopens (by decide)
    · rename_i hhead
      rw [(List.cons.inj hhead).1] at hopens
      exact absurd hopens (by decide)
    · rfl

/-! ## Lines -/

/-- A key that needs no quotes. -/
def IsBare (key : String) : Prop := key.toList ≠ [] ∧ key.toList.all isBare = true

instance (key : String) : Decidable (IsBare key) := inferInstanceAs (Decidable (_ ∧ _))

theorem IsBare.cons (h : IsBare key) : ∃ c cs, key.toList = c :: cs ∧ isBare c = true := by
  obtain ⟨c, cs, hcons⟩ := List.exists_cons_of_ne_nil h.1
  exact ⟨c, cs, hcons, List.all_eq_true.mp h.2 c (hcons ▸ List.mem_cons_self)⟩

theorem isBare_ne (h : isBare c = true) {d : Char} (hd : isBare d = false) : c ≠ d := by
  rintro rfl
  exact absurd (h.symm.trans hd) (by decide)

theorem Opens.ne (h : Opens c) {d : Char} (hd : ¬ Opens d) : c ≠ d := by
  rintro rfl
  exact hd h

theorem isBlank_eq_false (hspace : c ≠ ' ') (htab : c ≠ '\t') : isBlank c = false := by
  simp [isBlank, hspace, htab]

theorem isBlank_of_isBare (h : isBare c = true) : isBlank c = false :=
  isBlank_eq_false (isBare_ne h (by decide)) (isBare_ne h (by decide))

theorem skipBlanks_cons (h : isBlank c = false) : skipBlanks (c :: cs) = c :: cs := by
  simp [skipBlanks, h]

theorem IsBare.skipBlanks (h : IsBare key) : skipBlanks (key.toList ++ rest) = key.toList ++ rest := by
  obtain ⟨c, cs, hcons, hc⟩ := h.cons
  rw [hcons]
  exact skipBlanks_cons (isBlank_of_isBare hc)

theorem readPart_bare (h : IsBare key) :
    readPart (key.toList ++ ' ' :: rest) = some (key, ' ' :: rest) := by
  have hall : ∀ c ∈ key.toList, isBare c = true := List.all_eq_true.mp h.2
  have htake : (' ' :: rest).takeWhile isBare = [] := rfl
  have hdrop : (' ' :: rest).dropWhile isBare = ' ' :: rest := rfl
  obtain ⟨c, cs, hcons, hc⟩ := h.cons
  have hquote : ¬ (decide (c = '"') || decide (c = '\'')) = true := by
    simp [isBare_ne hc (d := '"') (by decide), isBare_ne hc (d := '\'') (by decide)]
  have hread : readPart (key.toList ++ ' ' :: rest) =
      some (String.ofList ((key.toList ++ ' ' :: rest).takeWhile isBare),
        (key.toList ++ ' ' :: rest).dropWhile isBare) := by
    rw [hcons, List.cons_append, readPart, if_neg hquote, if_pos hc]
  rw [hread, List.takeWhile_append_of_pos hall, List.dropWhile_append_of_pos hall, htake, hdrop,
    List.append_nil, String.ofList_toList]

/-- A key of one part is read up to the sign behind it. -/
theorem readKey_bare (h : IsBare key) (parts : Nat) :
    readKey (parts + 1) (key.toList ++ ' ' :: '=' :: rest) = some (⟨[], key⟩, '=' :: rest) := by
  have hequals : skipBlanks (' ' :: '=' :: rest) = '=' :: rest := rfl
  rw [readKey, h.skipBlanks, readPart_bare h, Option.bind_some]
  simp [hequals]

theorem readMember_bare {value : Reader Value} (hkey : IsBare key) (hv : writeScalar? v = some text)
    (hvalue : value (text ++ '\n' :: rest) = some (v, '\n' :: rest)) :
    readMember value (key.toList ++ ' ' :: '=' :: ' ' :: (text ++ '\n' :: rest)) =
      some ((⟨[], key⟩, v), '\n' :: rest) := by
  obtain ⟨c, cs, rfl, hopens⟩ := writeScalar?_cons hv
  have hskip : skipBlanks (' ' :: (c :: cs ++ '\n' :: rest)) = c :: cs ++ '\n' :: rest :=
    skipBlanks_cons (isBlank_eq_false (hopens.ne (by decide)) (hopens.ne (by decide)))
  rw [readMember, show depthMax = 78 + 1 from rfl, readKey_bare hkey, Option.bind_some]
  change Option.map _ (value (skipBlanks (' ' :: (c :: cs ++ '\n' :: rest)))) = _
  rw [hskip, hvalue]
  rfl

/-- A member stands on its line. -/
theorem readLine_bare (hkey : IsBare key) (hv : writeScalar? v = some text) (rest : List Char) :
    readLine (key.toList ++ ' ' :: '=' :: ' ' :: (text ++ '\n' :: rest)) =
      some (.member ⟨[], key⟩ v, '\n' :: rest) := by
  have hread := readMember_bare hkey hv (readValue_writeScalar? depthMax hv rest)
  obtain ⟨c, cs, hcons, hc⟩ := hkey.cons
  have hbracket : c ≠ '[' := isBare_ne hc (by decide)
  rw [hcons] at hread ⊢
  rw [List.cons_append] at hread ⊢
  unfold readLine
  split
  · rename_i h
    exact absurd (List.cons.inj h).1 hbracket
  · rename_i h
    exact absurd (List.cons.inj h).1 hbracket
  · rw [hread, Option.map_some]

theorem endLine_bare (hkey : IsBare key) (rest : List Char) : endLine (key.toList ++ rest) = none := by
  unfold endLine
  rw [hkey.skipBlanks]
  obtain ⟨c, cs, hcons, hc⟩ := hkey.cons
  have hmark : c ≠ '#' := isBare_ne hc (by decide)
  have hline : c ≠ '\n' := isBare_ne hc (by decide)
  have hreturn : c ≠ '\r' := isBare_ne hc (by decide)
  rw [hcons]
  simp [hmark, hline, hreturn]

theorem readLines_member (fuel : Nat) (hkey : IsBare key) (hv : writeScalar? v = some text)
    (rest : List Char) :
    readLines (fuel + 1) (key.toList ++ ' ' :: '=' :: ' ' :: (text ++ '\n' :: rest)) =
      (readLines fuel rest).map (.member ⟨[], key⟩ v :: ·) := by
  have hline := readLine_bare hkey hv rest
  have hend := endLine_bare hkey (' ' :: '=' :: ' ' :: (text ++ '\n' :: rest))
  have hbreak : endLine ('\n' :: rest) = some rest := rfl
  rw [readLines, hkey.skipBlanks]
  obtain ⟨c, cs, hcons, -⟩ := hkey.cons
  rw [hcons, List.cons_append] at hline hend ⊢
  simp only [hend, hline, Option.bind_some, hbreak]

/-- The text of a first member and of those behind it. -/
theorem writeMembers?_cons (h : writeMembers? ((key, v) :: ms) = some text) :
    ∃ value more, writeScalar? v = some value ∧ writeMembers? ms = some more ∧
      text = key.toList ++ ' ' :: '=' :: ' ' :: (value ++ '\n' :: more) := by
  obtain ⟨value, hvalue, more, hmore, rfl⟩ : ∃ value, writeScalar? v = some value ∧
      ∃ more, writeMembers? ms = some more ∧
        key.toList ++ [' ', '=', ' '] ++ value ++ ['\n'] ++ more = text := by
    simpa [writeMembers?, Option.bind_eq_some_iff] using h
  exact ⟨value, more, hvalue, hmore, by simp⟩

/-- The lines of members are read one by one, and nothing more is in the line behind them. -/
theorem readLines_writeMembers? (hkeys : ∀ m ∈ ms, IsBare m.1) (h : writeMembers? ms = some text)
    (hfuel : text.length + 1 < fuel) :
    readLines fuel (text ++ ['\n']) = some (ms.map fun m => .member ⟨[], m.1⟩ m.2) := by
  induction ms generalizing text fuel with
  | nil =>
    obtain rfl := Option.some.inj h
    obtain ⟨fuel, rfl⟩ : ∃ k, fuel = k + 2 := ⟨fuel - 2, by simp at hfuel; omega⟩
    rfl
  | cons m ms ih =>
    obtain ⟨value, more, hvalue, hmore, rfl⟩ := writeMembers?_cons h
    obtain ⟨fuel, rfl⟩ := Nat.exists_eq_add_one.mpr (Nat.zero_lt_of_lt hfuel)
    have hline := readLines_member fuel (hkeys m List.mem_cons_self) hvalue (more ++ ['\n'])
    have hshort : more.length + 1 < fuel := by
      simp at hfuel
      omega
    have hrest := ih (fun m' hm => hkeys m' (List.mem_cons_of_mem m hm)) hmore hshort
    rw [hrest] at hline
    simpa using hline

/-! ## Tables -/

theorem lookup_append_of_ne {k : String} (hk : k ≠ key) :
    lookup k (ms ++ [(key, v)]) = lookup k ms := by
  induction ms with
  | nil => simp [lookup, hk.symm]
  | cons m ms ih => simp only [List.cons_append, lookup, ih]

theorem addMembers_distinct (old : Members) (hnew : ∀ m ∈ ms, lookup m.1 old = none)
    (hdistinct : (ms.map Prod.fst).Nodup) :
    addMembers old (ms.map fun m => (⟨[], m.1⟩, m.2)) = some (old ++ ms) := by
  -- a member that is added must be new to the next ones, too
  induction ms generalizing old with
  | nil => rw [List.append_nil]; rfl
  | cons m ms ih =>
    obtain ⟨key, v⟩ := m
    obtain ⟨hhead, hrest⟩ := List.nodup_cons.mp hdistinct
    have hadd : addMember old ⟨[], key⟩ v = some (old ++ [(key, v)]) := by
      simp [addMember, alter, hnew (key, v) List.mem_cons_self]
    have hothers := ih (old ++ [(key, v)]) (fun m hm => by
      have hne : m.1 ≠ key := fun h => hhead (List.mem_map.mpr ⟨m, hm, h⟩)
      rw [lookup_append_of_ne hne]
      exact hnew m (List.mem_cons_of_mem _ hm)) hrest
    rw [List.map_cons, addMembers, hadd, Option.bind_some, hothers, List.append_assoc]
    rfl

theorem sections_members (ms : Members) :
    sections (ms.map fun m => .member ⟨[], m.1⟩ m.2) = (ms.map fun m => (⟨[], m.1⟩, m.2), []) := by
  induction ms with
  | nil => rfl
  | cons m ms ih => rw [List.map_cons, sections, ih]; rfl

/-- The document of members with different bare keys is read back, also behind a further line end. -/
theorem read_write (hkeys : ∀ m ∈ ms, IsBare m.1) (hdistinct : (ms.map Prod.fst).Nodup)
    (h : write ms = .ok text) : read (text ++ ['\n']) = some ms := by
  have hwritten : writeMembers? ms = some text := by
    unfold write at h
    split at h
    · cases h
    · split at h
      · cases h
      · exact congrArg some (Except.ok.inj h) ▸ ‹_›
  -- a bare key is no byte order mark
  have hmark : skipMark (text ++ ['\n']) = text ++ ['\n'] := by
    cases ms with
    | nil =>
      obtain rfl := Option.some.inj hwritten
      rfl
    | cons m ms =>
      obtain ⟨value, more, -, -, rfl⟩ := writeMembers?_cons hwritten
      obtain ⟨c, cs, hcons, hc⟩ := (hkeys m List.mem_cons_self).cons
      have hne : c ≠ '\uFEFF' := isBare_ne hc (by decide)
      rw [hcons]
      simp [skipMark, hne]
  have hfuel : text.length + 1 < (text ++ ['\n']).length + 1 := by simp
  have hlines := readLines_writeMembers? hkeys hwritten hfuel
  have hadd := addMembers_distinct [] (fun _ _ => rfl) hdistinct
  rw [read, hmark, hlines, Option.bind_some, ofLines, sections_members]
  change Option.bind (addMembers [] _) _ = _
  rw [hadd]
  rfl

/-! ## What is not written -/

theorem writeMembers?_eq_none :
    writeMembers? ms = none ↔ ∃ v ∈ ms.map Prod.snd, writeScalar? v = none := by
  induction ms with
  | nil => simp [writeMembers?]
  | cons m ms ih =>
    obtain ⟨key, v⟩ := m
    simp only [List.map_cons, List.mem_cons, or_and_right, exists_or, exists_eq_left, ← ih]
    rw [writeMembers?]
    cases writeScalar? v with
    | none => simp
    | some text => cases writeMembers? ms <;> simp

theorem write_unwritable (h : ∃ v ∈ ms.map Prod.snd, writeScalar? v = none) :
    write ms = .error .unwritable := by
  rw [write, writeMembers?_eq_none.mpr h]

theorem write_writable (h : ∀ v ∈ ms.map Prod.snd, writeScalar? v ≠ none) : ∃ text, write ms =
    if ms.any fun m => m.2.hasLongRun then .error .longRun else .ok text := by
  have hsome : writeMembers? ms ≠ none := fun hnone =>
    have ⟨v, hv, hv'⟩ := writeMembers?_eq_none.mp hnone
    h v hv hv'
  obtain ⟨text, htext⟩ := Option.ne_none_iff_exists'.mp hsome
  exact ⟨text, by rw [write, htext]⟩

theorem write_longRun (h : ∀ v ∈ ms.map Prod.snd, writeScalar? v ≠ none)
    (hrun : ∃ v ∈ ms.map Prod.snd, v.hasLongRun = true) : write ms = .error .longRun := by
  obtain ⟨v, hv, hlong⟩ := hrun
  obtain ⟨m, hm, rfl⟩ := List.mem_map.mp hv
  obtain ⟨text, hwrite⟩ := write_writable h
  rw [hwrite, if_pos (List.any_eq_true.mpr ⟨m, hm, hlong⟩)]

theorem write_ok (h : ∀ v ∈ ms.map Prod.snd, writeScalar? v ≠ none)
    (hrun : ∀ v ∈ ms.map Prod.snd, v.hasLongRun = false) : ∃ text, write ms = .ok text := by
  obtain ⟨text, hwrite⟩ := write_writable h
  have hnone : ¬ ms.any (fun m => m.2.hasLongRun) = true := fun hany =>
    have ⟨m, hm, hlong⟩ := List.any_eq_true.mp hany
    Bool.noConfusion (hlong.symm.trans (hrun m.2 (List.mem_map_of_mem hm)))
  exact ⟨text, by rw [hwrite, if_neg hnone]⟩

end ConfigRegistry.Toml
