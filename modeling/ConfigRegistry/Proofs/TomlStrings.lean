import ConfigRegistry.Toml.Quoted

/-!
# Quoted strings are read back

Whatever a string holds, it is written so that it is read back, in each of the four styles
(`Toml.readString_writeString`). Only tripled quotes need care: their string may hold quotes
itself, but not three in a row, and may end in one or two (`Toml.Spells`).
-/

namespace ConfigRegistry.Toml

variable {c q : Char} {e s t rest : List Char} {escapes : Bool} {fuel run : Nat}

/-- What holds of the members of a list one by one. -/
theorem forall_of_all {α : Type} {P : α → Prop} [DecidablePred P] {as : List α}
    (h : as.all (fun a => decide (P a)) = true) : ∀ a ∈ as, P a :=
  fun a ha => of_decide_eq_true (List.all_eq_true.mp h a ha)

/-! ## Escapes -/

theorem hexNumber?_low : ∀ n : Fin 0x80,
    hexNumber? ['0', '0', upperHexDigit (n.val / 16), upperHexDigit (n.val % 16)] = some n.val := by
  decide

/-- A character is escaped by a letter, by its number, or stands for itself. -/
theorem escape_cases (c : Char) :
    (∃ l, escape c = ['\\', l] ∧ l ∈ ['b', 't', 'n', 'f', 'r', '"', '\\'] ∧
      letterEscape? l = some c) ∨
    (c.toNat < 0x80 ∧ escape c =
      ['\\', 'u', '0', '0', upperHexDigit (c.toNat / 16), upperHexDigit (c.toNat % 16)]) ∨
    (escape c = [c] ∧ c ≠ '"' ∧ c ≠ '\\' ∧ isPlain c = true) := by
  by_cases hletter : c ∈ ['\x08', '\t', '\n', '\x0C', '\r', '"', '\\']
  · simp only [List.mem_cons, List.not_mem_nil, or_false] at hletter
    rcases hletter with rfl | rfl | rfl | rfl | rfl | rfl | rfl <;>
      exact .inl ⟨_, rfl, by decide, rfl⟩
  · simp only [List.mem_cons, List.not_mem_nil, or_false, not_or] at hletter
    obtain ⟨h8, h9, ha, hc, hd, hquote, hslash⟩ := hletter
    by_cases hcontrol : isControl c = true
    · have hlow : c.toNat < 0x80 := by
        simp only [isControl, Bool.or_eq_true, decide_eq_true_eq] at hcontrol
        omega
      exact .inr (.inl ⟨hlow, by simp [escape, *]⟩)
    · exact .inr (.inr ⟨by simp [escape, *], hquote, hslash, by simp [isPlain, hcontrol]⟩)

/-- An escape is read back behind its backslash, and does not begin with a blank or a line end. -/
theorem readEscape_escape (h : escape c = '\\' :: e) (rest : List Char) :
    readEscape (e ++ rest) = some (c, rest) ∧ continuation? (e ++ rest) = none := by
  rcases escape_cases c with ⟨l, hescape, hl, hletter⟩ | ⟨hlow, hescape⟩ | ⟨hescape, -, hslash, -⟩
  · obtain rfl := (List.cons.inj (hescape.symm.trans h)).2
    have hforms : ∀ l ∈ ['b', 't', 'n', 'f', 'r', '"', '\\'],
        l ≠ 'u' ∧ l ≠ 'U' ∧ isBlank l = false ∧ l ≠ '\n' ∧ l ≠ '\r' := forall_of_all (by decide)
    obtain ⟨hu, hU, hblank, hn, hr⟩ := hforms l hl
    refine ⟨by simp [readEscape, hu, hU, hletter], ?_⟩
    simp [continuation?, skipBlanks, hblank, hn, hr]
  · obtain rfl := (List.cons.inj (hescape.symm.trans h)).2
    have hvalid : c.toNat.isValidChar := .inl (Nat.lt_trans hlow (by decide))
    have hhex : hexNumber? ['0', '0', upperHexDigit (c.toNat / 16), upperHexDigit (c.toNat % 16)] =
        some c.toNat := hexNumber?_low ⟨c.toNat, hlow⟩
    have hpoint : readPoint 4 ('0' :: '0' :: upperHexDigit (c.toNat / 16) ::
        upperHexDigit (c.toNat % 16) :: rest) = some (c, rest) := by
      simp [readPoint, hhex, hvalid]
    exact ⟨hpoint, rfl⟩
  · exact absurd (List.cons.inj (hescape.symm.trans h)).1 hslash

/-- A character between double quotes: itself, or an escape. -/
theorem escape_split (c : Char) :
    (escape c = [c] ∧ c ≠ '"' ∧ c ≠ '\\' ∧ isPlain c = true) ∨ ∃ e, escape c = '\\' :: e := by
  rcases escape_cases c with ⟨l, hescape, -⟩ | ⟨-, hescape⟩ | hplain
  · exact .inr ⟨_, hescape⟩
  · exact .inr ⟨_, hescape⟩
  · exact .inl hplain

/-! ## One line -/

theorem readBasic_escape (hfuel : (s.flatMap escape).length < fuel) :
    readBasic fuel (s.flatMap escape ++ '"' :: rest) = some (s, rest) := by
  induction s generalizing fuel with
  | nil =>
    obtain ⟨fuel, rfl⟩ := Nat.exists_eq_add_one.mpr hfuel
    rfl
  | cons c s ih =>
    obtain ⟨fuel, rfl⟩ := Nat.exists_eq_add_one.mpr (Nat.zero_lt_of_lt hfuel)
    rw [List.flatMap_cons, List.length_append] at hfuel
    rw [List.flatMap_cons, List.append_assoc]
    rcases escape_split c with ⟨hescape, hquote, hslash, hplain⟩ | ⟨e, hescape⟩
    · rw [hescape, List.length_singleton] at hfuel
      have hrest : readBasic fuel (s.flatMap escape ++ '"' :: rest) = some (s, rest) := ih (by omega)
      rw [hescape]
      simp [readBasic, hquote, hslash, hplain, hrest, push]
    · rw [hescape, List.length_cons] at hfuel
      have hrest : readBasic fuel (s.flatMap escape ++ '"' :: rest) = some (s, rest) := ih (by omega)
      rw [hescape]
      simp [readBasic, (readEscape_escape hescape _).1, hrest, push]

theorem readLiteral_self (h : ∀ c ∈ s, c ≠ '\'' ∧ isPlain c = true) :
    readLiteral (s ++ '\'' :: rest) = some (s, rest) := by
  induction s with
  | nil => rfl
  | cons c s ih =>
    obtain ⟨hquote, hplain⟩ := h c List.mem_cons_self
    have hrest := ih fun c' hc' => h c' (List.mem_cons_of_mem c hc')
    simp [readLiteral, hquote, hplain, hrest, push]

/-! ## Tripled quotes -/

/-- A text that stands for a string between tripled quotes, behind some quotes of it: there are
no three in a row. -/
inductive Spells (q : Char) (escapes : Bool) : Nat → List Char → List Char → Prop
  | nil {run : Nat} : Spells q escapes run [] []
  | quote {run : Nat} {t s : List Char} (hrun : run < 2) (h : Spells q escapes (run + 1) t s) :
    Spells q escapes run (q :: t) (q :: s)
  | plain {run : Nat} {c : Char} {t s : List Char} (hquote : c ≠ q)
    (hplain : c = '\n' ∨ isPlain c = true) (hslash : escapes = true → c ≠ '\\')
    (h : Spells q escapes 0 t s) : Spells q escapes run (c :: t) (c :: s)
  | escaped {run : Nat} {c : Char} {e t s : List Char} (hescapes : escapes = true)
    (hc : escape c = '\\' :: e) (h : Spells q escapes 0 t s) :
    Spells q escapes run ('\\' :: (e ++ t)) (c :: s)

theorem Spells.mono {run' : Nat} (h : Spells q escapes run t s) (hle : run' ≤ run) :
    Spells q escapes run' t s := by
  induction h generalizing run' with
  | nil => exact .nil
  | quote hrun _ ih => exact .quote (Nat.lt_of_le_of_lt hle hrun) (ih (Nat.succ_le_succ hle))
  | plain hquote hplain hslash h => exact .plain hquote hplain hslash h
  | escaped hescapes hc h => exact .escaped hescapes hc h

/-- Up to two quotes and the three that close belong together. -/
theorem closing?_quotes (hrun : run ≤ 2) (hrest : rest.head? ≠ some q) :
    closing? q (List.replicate run q ++ q :: q :: q :: rest) = some (List.replicate run q, rest) := by
  have hnone : rest.takeWhile (· = q) = [] := by
    cases rest with
    | nil => rfl
    | cons d rest => exact List.takeWhile_cons_of_neg (by simpa using hrest)
  rcases (by omega : run = 0 ∨ run = 1 ∨ run = 2) with rfl | rfl | rfl <;>
    simp [closing?, hnone, List.replicate]

/-- Two quotes close nothing. -/
theorem closing?_interrupted (hrun : run ≤ 2) (hc : c ≠ q) :
    closing? q (List.replicate run q ++ c :: rest) = none := by
  rcases (by omega : run = 0 ∨ run = 1 ∨ run = 2) with rfl | rfl | rfl <;>
    simp [closing?, hc, List.replicate]

theorem closing?_of_ne (hc : c ≠ q) : closing? q (c :: rest) = none :=
  closing?_interrupted (Nat.zero_le 2) hc

/-- The closing quotes are seen when only quotes of the string are left, with these. -/
theorem closing?_spells (h : Spells q escapes run t s) (hrun : run ≤ 2) (hslash : q ≠ '\\')
    (hrest : rest.head? ≠ some q) :
    let found := closing? q (List.replicate run q ++ (t ++ q :: q :: q :: rest))
    found = some (List.replicate run q ++ s, rest) ∨ s ≠ [] ∧ found = none := by
  -- a quote of the text joins the run in front of it; anything else ends the search
  induction h with
  | nil => exact .inl (by simpa using closing?_quotes hrun hrest)
  | quote hrun' h ih =>
    rename_i run t s
    have hmove : ∀ cs : List Char, List.replicate run q ++ q :: cs = List.replicate (run + 1) q ++ cs :=
      fun cs => by rw [List.replicate_succ', List.append_assoc, List.singleton_append]
    rw [List.cons_append, hmove, hmove]
    exact (ih hrun').imp_right fun hnone => ⟨List.cons_ne_nil _ _, hnone.2⟩
  | plain hquote => exact .inr ⟨List.cons_ne_nil _ _, closing?_interrupted hrun hquote⟩
  | escaped => exact .inr ⟨List.cons_ne_nil _ _, closing?_interrupted hrun hslash.symm⟩

theorem readOverLines_closed {done : List Char × List Char} (h : closing? q t = some done) :
    readOverLines q escapes (fuel + 1) t = some done := by
  rw [readOverLines.eq_def]
  simp only [h]

theorem readOverLines_plain (hopen : closing? q (c :: t) = none)
    (hplain : c = '\n' ∨ isPlain c = true) (hslash : escapes = true → c ≠ '\\') :
    readOverLines q escapes (fuel + 1) (c :: t) = push c (readOverLines q escapes fuel t) := by
  have hescape : (decide (c = '\\') && escapes) = false := by
    cases escapes with
    | false => simp
    | true => simpa using hslash rfl
  have hreturn : c ≠ '\r' := by
    rintro rfl
    exact absurd hplain (by decide)
  rw [readOverLines.eq_def]
  simp only [hopen]
  simp [hescape, hreturn, hplain]

theorem readOverLines_escape (hopen : closing? q ('\\' :: (e ++ t)) = none)
    (hc : escape c = '\\' :: e) :
    readOverLines q true (fuel + 1) ('\\' :: (e ++ t)) = push c (readOverLines q true fuel t) := by
  obtain ⟨hread, hcontinue⟩ := readEscape_escape hc t
  rw [readOverLines.eq_def]
  simp only [hopen]
  simp [hread, hcontinue]

/-- What stands for a string is read as the string. -/
theorem readOverLines_spells (hq : q = '"' ∨ q = '\'') (h : Spells q escapes run t s)
    (hrest : rest.head? ≠ some q) (hfuel : t.length < fuel) :
    readOverLines q escapes fuel (t ++ q :: q :: q :: rest) = some (s, rest) := by
  have hslash : q ≠ '\\' := by rcases hq with rfl | rfl <;> decide
  have hplain : isPlain q = true := by rcases hq with rfl | rfl <;> decide
  induction h generalizing fuel with
  | nil =>
    obtain ⟨fuel, rfl⟩ := Nat.exists_eq_add_one.mpr hfuel
    exact readOverLines_closed (closing?_quotes (Nat.zero_le 2) hrest)
  | quote hrun h ih =>
    obtain ⟨fuel, rfl⟩ := Nat.exists_eq_add_one.mpr (Nat.zero_lt_of_lt hfuel)
    -- at a quote the end may be seen early, with the last quotes of the string
    have hseen := closing?_spells ((Spells.quote hrun h).mono (Nat.zero_le _)) (Nat.zero_le 2) hslash hrest
    rcases hseen with hclosed | ⟨-, hopen⟩
    · exact readOverLines_closed hclosed
    · exact (readOverLines_plain hopen (.inr hplain) fun _ => hslash).trans
        (congrArg (push _) (ih (Nat.lt_of_succ_lt_succ hfuel)))
  | plain hquote hplain' hslash' h ih =>
    obtain ⟨fuel, rfl⟩ := Nat.exists_eq_add_one.mpr (Nat.zero_lt_of_lt hfuel)
    exact (readOverLines_plain (closing?_of_ne hquote) hplain' hslash').trans
      (congrArg (push _) (ih (Nat.lt_of_succ_lt_succ hfuel)))
  | escaped hescapes hc h ih =>
    obtain ⟨fuel, rfl⟩ := Nat.exists_eq_add_one.mpr (Nat.zero_lt_of_lt hfuel)
    subst hescapes
    have hshort := hfuel
    rw [List.length_cons, List.length_append] at hshort
    rw [List.cons_append, List.append_assoc]
    exact (readOverLines_escape (closing?_of_ne hslash.symm) hc).trans
      (congrArg (push _) (ih (by omega)))

/-- A line feed at the front of a string needs one in front of it. -/
theorem skipLineEnd_leadingLine (hq : q = '"' ∨ q = '\'') (h : Spells q escapes run t s) :
    skipLineEnd (leadingLine s ++ (t ++ q :: rest)) = t ++ q :: rest := by
  unfold leadingLine
  by_cases hline : s.contains '\n' = true
  · rw [if_pos hline]
    rfl
  · rw [if_neg hline, List.nil_append]
    have hfront : ∀ (c : Char) (cs : List Char), c ≠ '\n' → c ≠ '\r' →
        skipLineEnd (c :: cs) = c :: cs := fun c cs hn hr => by simp [skipLineEnd, hn, hr]
    have hquote : q ≠ '\n' ∧ q ≠ '\r' := by rcases hq with rfl | rfl <;> decide
    cases h with
    | nil => exact hfront q _ hquote.1 hquote.2
    | quote => exact hfront q _ hquote.1 hquote.2
    | escaped => exact hfront '\\' _ (by decide) (by decide)
    | @plain _ c t s hne hplain =>
      have hn : c ≠ '\n' := by
        rintro rfl
        exact hline (by simp)
      refine hfront c _ hn ?_
      rintro rfl
      exact absurd hplain (by decide)

theorem readTripled_spells (hq : q = '"' ∨ q = '\'') (h : Spells q escapes run t s)
    (hrest : rest.head? ≠ some q) :
    readTripled q escapes (leadingLine s ++ (t ++ q :: q :: q :: rest)) = some (s, rest) := by
  rw [readTripled, skipLineEnd_leadingLine hq h]
  refine readOverLines_spells hq h hrest ?_
  simp only [List.length_append]
  omega

theorem spells_escapeOverLines (hrun : run ≤ 2) (s : List Char) :
    Spells '"' true run (escapeOverLines run s) s := by
  induction s generalizing run with
  | nil => exact .nil
  | cons c s ih =>
    have hescape : Spells '"' true run (escape c ++ escapeOverLines 0 s) (c :: s) := by
      rcases escape_split c with ⟨hescape, hquote, hslash, hplain⟩ | ⟨e, hescape⟩
      · rw [hescape]
        exact .plain hquote (.inr hplain) (fun _ => hslash) (ih (Nat.zero_le 2))
      · rw [hescape]
        exact .escaped rfl hescape (ih (Nat.zero_le 2))
    by_cases hquote : c = '"'
    · subst hquote
      rw [escapeOverLines, if_pos rfl]
      by_cases hfew : run < 2
      · rw [if_pos hfew]
        exact .quote hfew (ih hfew)
      · rw [if_neg hfew]
        exact hescape
    · rw [escapeOverLines, if_neg hquote]
      by_cases hline : c = '\n'
      · rw [if_pos hline]
        exact .plain hquote (.inl hline) (fun _ => hline ▸ by decide) (ih (Nat.zero_le 2))
      · rw [if_neg hline]
        exact hescape

theorem le_longestRun (q : Char) (run : Nat) (s : List Char) : run ≤ longestRun q run s := by
  induction s generalizing run with
  | nil => exact Nat.le_refl run
  | cons c s ih =>
    rw [longestRun]
    split
    · exact Nat.le_of_succ_le (ih (run + 1))
    · exact Nat.le_max_left _ _

theorem spells_self (hrun : longestRun q run s ≤ 2) (hplain : ∀ c ∈ s, c = '\n' ∨ isPlain c = true) :
    Spells q false run s s := by
  induction s generalizing run with
  | nil => exact .nil
  | cons c s ih =>
    have hrest : ∀ c ∈ s, c = '\n' ∨ isPlain c = true := fun c' hc' =>
      hplain c' (List.mem_cons_of_mem c hc')
    rw [longestRun] at hrun
    by_cases hquote : c = q
    · subst hquote
      rw [if_pos rfl] at hrun
      exact .quote (Nat.le_trans (le_longestRun c (run + 1) s) hrun) (ih hrun hrest)
    · rw [if_neg hquote] at hrun
      exact .plain hquote (hplain c List.mem_cons_self) nofun
        (ih (Nat.le_trans (Nat.le_max_right _ _) hrun) hrest)

/-! ## All styles -/

theorem plain_of_needsEscape (h : needsEscape s = false) : ∀ c ∈ s, c = '\n' ∨ isPlain c = true := by
  intro c hc
  have hnot := List.any_eq_false.mp h c hc
  simp only [isPlain, Bool.or_eq_true, Bool.not_eq_true', decide_eq_true_eq, Bool.and_eq_true] at hnot ⊢
  grind

theorem style_literal (h : style s = .literal) :
    s ≠ [] ∧ ∀ c ∈ s, c ≠ '\'' ∧ isPlain c = true := by
  have hconditions : needsEscape s = false ∧ s.contains '\'' = false ∧ s.contains '\n' = false := by
    grind [style]
  obtain ⟨hescape, hquote, hline⟩ := hconditions
  refine ⟨?_, fun c hc => ⟨?_, ?_⟩⟩
  · rintro rfl
    exact absurd h (by decide)
  · rintro rfl
    simp [hc] at hquote
  · refine (plain_of_needsEscape hescape c hc).resolve_left ?_
    rintro rfl
    simp [hc] at hline

theorem style_literalOverLines (h : style s = .literalOverLines) :
    longestRun '\'' 0 s ≤ 2 ∧ ∀ c ∈ s, c = '\n' ∨ isPlain c = true := by
  have hconditions : needsEscape s = false ∧ longestRun '\'' 0 s ≤ 2 := by grind [style]
  exact ⟨hconditions.2, plain_of_needsEscape hconditions.1⟩

/-- No string begins with quotes that could triple the opening one. -/
theorem take_three_ne (hne : c ≠ q) : (q :: c :: t).take 3 ≠ [q, q, q] := by
  intro h
  exact hne (List.cons.inj (List.cons.inj h).2).1

theorem readString_basic (s : List Char) (hrest : rest.head? ≠ some '"') :
    readString ('"' :: (s.flatMap escape ++ '"' :: rest)) = some (s, rest) := by
  have hsingle : ('"' :: (s.flatMap escape ++ '"' :: rest)).take 3 ≠ ['"', '"', '"'] := by
    cases s with
    | nil =>
      cases rest with
      | nil => decide
      | cons d rest => simpa using hrest
    | cons c s =>
      rcases escape_split c with ⟨hescape, hquote, -, -⟩ | ⟨e, hescape⟩
      · rw [List.flatMap_cons, hescape]
        exact take_three_ne hquote
      · rw [List.flatMap_cons, hescape]
        exact take_three_ne (by decide)
  rw [readString, if_neg hsingle, if_neg (by simp)]
  refine readBasic_escape ?_
  rw [List.length_append]
  omega

theorem readString_literal (hne : s ≠ []) (hs : ∀ c ∈ s, c ≠ '\'' ∧ isPlain c = true) :
    readString ('\'' :: (s ++ '\'' :: rest)) = some (s, rest) := by
  obtain ⟨c, s, rfl⟩ := List.exists_cons_of_ne_nil hne
  have hsingle : ('\'' :: (c :: s ++ '\'' :: rest)).take 3 ≠ ['\'', '\'', '\''] :=
    take_three_ne (hs c List.mem_cons_self).1
  rw [readString, if_neg (by simp), if_neg hsingle]
  exact readLiteral_self hs

/-- A string is read back, unless more quotes follow it. -/
theorem readString_writeString (s : List Char) (hbasic : rest.head? ≠ some '"')
    (hliteral : rest.head? ≠ some '\'') : readString (writeString s ++ rest) = some (s, rest) := by
  unfold writeString
  cases hstyle : style s with
  | basic => simpa using readString_basic s hbasic
  | literal =>
    obtain ⟨hne, hs⟩ := style_literal hstyle
    simpa using readString_literal hne hs
  | basicOverLines =>
    simpa [readString] using readTripled_spells (.inl rfl) (spells_escapeOverLines (Nat.zero_le 2) s) hbasic
  | literalOverLines =>
    obtain ⟨hrun, hs⟩ := style_literalOverLines hstyle
    simpa [readString] using readTripled_spells (.inr rfl) (spells_self hrun hs) hliteral

/-! ## Quotes in a row -/

theorem replicate_isPrefix_iff (hc : c ≠ q) (k run : Nat) (s : List Char) :
    List.replicate k q <+: List.replicate run q ++ c :: s ↔ k ≤ run := by
  induction run generalizing k with
  | zero => cases k <;> simp [List.replicate_succ, hc.symm]
  | succ run ih => cases k <;> simp [List.replicate_succ, ih]

theorem replicate_isInfix_iff (hc : c ≠ q) (k run : Nat) (s : List Char) :
    List.replicate k q <:+: List.replicate run q ++ c :: s ↔ k ≤ run ∨ List.replicate k q <:+: s := by
  induction run with
  | zero => exact List.infix_cons_iff.trans (or_congr_left (replicate_isPrefix_iff hc k 0 s))
  | succ run ih =>
    rw [List.replicate_succ, List.cons_append, List.infix_cons_iff, ih, ← List.cons_append,
      ← List.replicate_succ, replicate_isPrefix_iff hc, ← or_assoc]
    exact or_congr_left (by omega)

/-- A run is as long as the quotes that stand in a row. -/
theorem le_longestRun_iff {k : Nat} : k ≤ longestRun q run s ↔
    List.replicate k q <:+: List.replicate run q ++ s := by
  -- the run stands for the quotes that were read before
  induction s generalizing run with
  | nil =>
    rw [longestRun, List.append_nil, List.infix_replicate_iff]
    simp
  | cons c s ih =>
    rw [longestRun]
    by_cases hquote : c = q
    · subst hquote
      rw [if_pos rfl, ih, List.replicate_succ', List.append_assoc, List.singleton_append]
    · rw [if_neg hquote, replicate_isInfix_iff hquote, Std.le_max, ih]
      rfl

theorem hasLongRun_iff : hasLongRun s = true ↔
    List.replicate 256 '"' <:+: s ∨ List.replicate 256 '\'' <:+: s := by
  rw [hasLongRun, Bool.or_eq_true, decide_eq_true_iff, decide_eq_true_iff]
  exact or_congr le_longestRun_iff le_longestRun_iff

end ConfigRegistry.Toml
