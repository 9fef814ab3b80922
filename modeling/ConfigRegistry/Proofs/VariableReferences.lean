import ConfigRegistry.Proofs.ByteOrder
import ConfigRegistry.Template
import Mathlib.Data.List.TakeWhile
import Mathlib.Data.Nat.Find

/-!
# The grammar of variable references

What a scan for references finds is stated for texts over any alphabet (`Scanned`) and
found once, whatever the text (`exists_scanned`, `Scanned.unique`). The scan of a document
is the one of its bytes: a byte of a brace is never part of another character, so an
occurrence of a pair of braces in the bytes is one in the characters (`stands_byte`).
-/

namespace ConfigRegistry.Template

open Bytes

/-! ## Scans -/

section Scans

variable {α : Type} {opening closing text before after : List α}

/-- A text is parted at the leftmost occurrence of a delimiter. -/
structure Parted (delimiter text before after : List α) : Prop where
  whole : text = before ++ delimiter ++ after
  leftmost : ∀ u v, text = u ++ delimiter ++ v → before.length ≤ u.length

/-- What a scan from left to right finds in a text: its references, each as the text before its
opening and the text inside, and the tail in which no opening is closed. -/
inductive Scanned (opening closing : List α) : List α → List (List α × List α) → List α → Prop where
  | stops {text : List α}
      (none_closes : ∀ before body, Parted opening text before body → ¬ closing <:+: body) :
      Scanned opening closing text [] text
  | closes {text before body inner rest tail : List α} {refs : List (List α × List α)}
      (opened : Parted opening text before body) (closed : Parted closing body inner rest)
      (goes_on : Scanned opening closing rest refs tail) :
      Scanned opening closing text ((before, inner) :: refs) tail

/-- The text that references take up. -/
def consumed (opening closing : List α) (refs : List (List α × List α)) : List α :=
  refs.flatMap fun (before, inner) => before ++ opening ++ inner ++ closing

theorem Parted.occurs {delimiter : List α} (h : Parted delimiter text before after) :
    delimiter <:+: text := ⟨before, after, h.whole.symm⟩

theorem Parted.unique {delimiter before' after' : List α} (h : Parted delimiter text before after)
    (h' : Parted delimiter text before' after') : before = before' ∧ after = after' := by
  have hlength : before.length = before'.length :=
    Nat.le_antisymm (h.leftmost _ _ h'.whole) (h'.leftmost _ _ h.whole)
  have hwhole : before ++ (delimiter ++ after) = before' ++ (delimiter ++ after') := by
    simpa using h.whole.symm.trans h'.whole
  obtain ⟨hbefore, hrest⟩ := List.append_inj hwhole hlength
  exact ⟨hbefore, List.append_cancel_left hrest⟩

theorem Parted.length_lt {delimiter : List α} (h : Parted delimiter text before after)
    (hne : delimiter ≠ []) : after.length < text.length := by
  have hpos : 0 < delimiter.length := List.length_pos_iff.mpr hne
  rw [h.whole]
  simp only [List.length_append]
  omega

theorem exists_parted {delimiter : List α} (h : delimiter <:+: text) :
    ∃ before after, Parted delimiter text before after := by
  classical
  have hex : ∃ n u v, text = u ++ delimiter ++ v ∧ u.length = n := by
    obtain ⟨u, v, huv⟩ := h
    exact ⟨_, u, v, huv.symm, rfl⟩
  obtain ⟨u, v, huv, hlength⟩ := Nat.find_spec hex
  exact ⟨u, v, huv, fun u' v' h' => hlength ▸ Nat.find_min' hex ⟨u', v', h', rfl⟩⟩

/-- Every text can be scanned. -/
theorem exists_scanned (ho : opening ≠ []) (hc : closing ≠ []) (text : List α) :
    ∃ refs tail, Scanned opening closing text refs tail := by
  by_cases hopens : ∃ before body, Parted opening text before body ∧ closing <:+: body
  case neg => exact ⟨[], text, .stops fun before body hopened hcloses => hopens ⟨_, _, hopened, hcloses⟩⟩
  obtain ⟨before, body, hopened, hcloses⟩ := hopens
  obtain ⟨inner, rest, hclosed⟩ := exists_parted hcloses
  have : rest.length < text.length := Nat.lt_trans (hclosed.length_lt hc) (hopened.length_lt ho)
  obtain ⟨refs, tail, hrest⟩ := exists_scanned ho hc rest
  exact ⟨_, _, .closes hopened hclosed hrest⟩
termination_by text.length

theorem Scanned.unique {refs refs' : List (List α × List α)} {tail tail' : List α}
    (h : Scanned opening closing text refs tail)
    (h' : Scanned opening closing text refs' tail') : refs = refs' ∧ tail = tail' := by
  induction h generalizing refs' tail' with
  | stops hnone =>
    cases h' with
    | stops => exact ⟨rfl, rfl⟩
    | closes hopened hclosed => exact absurd hclosed.occurs (hnone _ _ hopened)
  | closes hopened hclosed _ ih =>
    cases h' with
    | stops hnone => exact absurd hclosed.occurs (hnone _ _ hopened)
    | closes hopened' hclosed' hrest' =>
      obtain ⟨rfl, rfl⟩ := hopened.unique hopened'
      obtain ⟨rfl, rfl⟩ := hclosed.unique hclosed'
      obtain ⟨rfl, rfl⟩ := ih hrest'
      exact ⟨rfl, rfl⟩

theorem Scanned.whole {refs : List (List α × List α)} {tail : List α}
    (h : Scanned opening closing text refs tail) : text = consumed opening closing refs ++ tail := by
  induction h with
  | stops => rfl
  | closes hopened hclosed _ ih =>
    rw [hopened.whole, hclosed.whole, ih]
    simp [consumed]

/-- No opening of the tail is closed. -/
theorem Scanned.tail_stops {refs : List (List α × List α)} {tail : List α}
    (h : Scanned opening closing text refs tail) :
    ∀ before body, Parted opening tail before body → ¬ closing <:+: body := by
  induction h with
  | stops hnone => exact hnone
  | closes _ _ _ ih => exact ih

end Scans

/-! ## Texts spelled out -/

section Spelling

variable {α β : Type} {f : α → List β} {c : α} {b : β} {text before after : List α}

/-- When every letter of a text is spelled out, one letter stands wherever its spelling does: it is
spelled as itself alone, and no other letter has that in its spelling. -/
structure Stands (f : α → List β) (c : α) (b : β) : Prop where
  single : f c = [b]
  only : ∀ d, b ∈ f d → d = c
  nonempty : ∀ d, f d ≠ []

theorem Stands.eq_nil (hs : Stands f c b) (h : text.flatMap f = []) : text = [] := by
  cases text with
  | nil => rfl
  | cons d rest =>
    rw [List.flatMap_cons, List.append_eq_nil_iff] at h
    exact absurd h.1 (hs.nonempty d)

theorem Stands.parts (hs : Stands f c b) {u v : List β} (h : text.flatMap f = u ++ b :: v) :
    ∃ before after, text = before ++ c :: after ∧ before.flatMap f = u ∧ after.flatMap f = v := by
  induction text generalizing u with
  | nil => cases u <;> cases h
  | cons d rest ih =>
    rw [List.flatMap_cons] at h
    rcases List.append_eq_append_iff.mp h with ⟨w, rfl, hrest⟩ | ⟨w, hd, hrest⟩
    · obtain ⟨before, after, rfl, rfl, rfl⟩ := ih hrest
      exact ⟨d :: before, after, rfl, rfl, rfl⟩
    cases w with
    | nil =>
      -- it is the first one behind the letter
      obtain ⟨before, after, rfl, hbefore, rfl⟩ := ih (u := []) hrest.symm
      rw [hs.eq_nil hbefore]
      exact ⟨[d], after, rfl, by simpa using hd, rfl⟩
    | cons b' w =>
      obtain ⟨rfl, hv⟩ := List.cons.inj hrest
      obtain rfl := hs.only d (by simp [hd])
      rw [hs.single] at hd
      obtain ⟨rfl, hw⟩ : u = [] ∧ w = [] := by
        have := congrArg List.length hd
        simp only [List.length_cons, List.length_append, List.length_nil] at this
        exact ⟨List.eq_nil_of_length_eq_zero (by omega), List.eq_nil_of_length_eq_zero (by omega)⟩
      exact ⟨[], rest, rfl, rfl, by rw [hv, hw]; rfl⟩

theorem Stands.pair (hs : Stands f c b) {u v : List β} (h : text.flatMap f = u ++ [b, b] ++ v) :
    ∃ before after, text = before ++ [c, c] ++ after ∧ before.flatMap f = u ∧
      after.flatMap f = v := by
  obtain ⟨before, rest, rfl, hbefore, hrest⟩ := hs.parts (by simpa using h)
  obtain ⟨between, after, rfl, hbetween, hafter⟩ := hs.parts (u := []) hrest
  rw [hs.eq_nil hbetween]
  exact ⟨before, after, by simp, hbefore, hafter⟩

theorem Stands.twice (hs : Stands f c b) : [c, c].flatMap f = [b, b] := by
  simp [hs.single]

/-- A pair stands in a text wherever it stands in its spelling. -/
theorem Stands.occurs (hs : Stands f c b) : [b, b] <:+: text.flatMap f ↔ [c, c] <:+: text := by
  constructor
  · rintro ⟨u, v, h⟩
    obtain ⟨before, after, rfl, -, -⟩ := hs.pair h.symm
    exact ⟨before, after, rfl⟩
  · rintro ⟨before, after, rfl⟩
    exact ⟨before.flatMap f, after.flatMap f, by rw [List.flatMap_append, List.flatMap_append, hs.twice]⟩

theorem Parted.spelled (h : Parted [c, c] text before after) (hs : Stands f c b) :
    Parted [b, b] (text.flatMap f) (before.flatMap f) (after.flatMap f) where
  whole := by rw [h.whole, List.flatMap_append, List.flatMap_append, hs.twice]
  leftmost := by
    intro u v huv
    obtain ⟨before', after', htext, rfl, -⟩ := hs.pair huv
    -- the earlier of two prefixes has the shorter spelling
    have hle := h.leftmost _ _ htext
    have hbefore : before <+: text := ⟨[c, c] ++ after, by rw [h.whole, List.append_assoc]⟩
    have hbefore' : before' <+: text := ⟨[c, c] ++ after', by rw [htext, List.append_assoc]⟩
    obtain ⟨more, rfl⟩ := List.prefix_of_prefix_length_le hbefore hbefore' hle
    simp

/-- The scan of a spelling finds the spellings of what the scan of the text finds. -/
theorem Scanned.spelled {o : α} {o' : β} {tail : List α} {refs : List (List α × List α)}
    (h : Scanned [o, o] [c, c] text refs tail) (ho : Stands f o o') (hc : Stands f c b) :
    Scanned [o', o'] [b, b] (text.flatMap f)
      (refs.map (Prod.map (List.flatMap f) (List.flatMap f))) (tail.flatMap f) := by
  induction h with
  | stops hnone =>
    refine .stops fun before body hopened hcloses => ?_
    obtain ⟨before', body', hparted⟩ := exists_parted (ho.occurs.mp hopened.occurs)
    obtain ⟨rfl, rfl⟩ := hopened.unique (hparted.spelled ho)
    exact hnone _ _ hparted (hc.occurs.mp hcloses)
  | closes hopened hclosed _ ih => exact .closes (hopened.spelled ho) (hclosed.spelled hc) ih

end Spelling

/-! ## Bytes and characters -/

/-- The bytes of a text. -/
def encode (text : List Char) : Bytes := text.flatMap String.utf8EncodeChar

theorem encode_append (u v : List Char) : encode (u ++ v) = encode u ++ encode v :=
  List.flatMap_append

theorem encode_eq_nil {text : List Char} (h : encode text = []) : text = [] := by
  cases text with
  | nil => rfl
  | cons c rest =>
    rw [encode, List.flatMap_cons, List.append_eq_nil_iff] at h
    exact absurd h.1 String.utf8EncodeChar_ne_nil

theorem encode_injective {u v : List Char} (h : encode u = encode v) : u = v := by
  rw [encode, encode, ← ofText_ofList, ← ofText_ofList] at h
  exact String.ofList_injective (ofText_injective h)

theorem length_encode (text : List Char) : (encode text).length = size text := by
  induction text with
  | nil => rfl
  | cons c rest ih =>
    rw [encode, List.flatMap_cons, List.length_append, String.length_utf8EncodeChar]
    exact congrArg (c.utf8Size + ·) ih

theorem toText?_eq_some {document : Bytes} {text : String} :
    toText? document = some text ↔ document = encode text.toList := by
  rw [encode, ← ofText_toList]
  exact ⟨fun h => (ofText_of_toText? h).symm, fun h => h ▸ toText?_ofText text⟩

/-- A byte below 0x80 is a character of its own. -/
theorem utf8EncodeChar_of_mem {b : UInt8} (hb : b < 0x80) {c : Char}
    (h : b ∈ String.utf8EncodeChar c) : c.val.toNat = b.toNat ∧ String.utf8EncodeChar c = [b] := by
  have hlow : b.toNat < 0x80 := UInt8.lt_iff_toNat_lt.mp hb
  simp only [String.utf8EncodeChar] at h ⊢
  split
  case isTrue hone =>
    rw [if_pos hone, List.mem_singleton] at h
    subst h
    exact ⟨by rw [UInt8.toNat_ofNat']; omega, rfl⟩
  case isFalse hone =>
    -- the other encodings consist of bytes from 0x80 on
    exfalso
    rw [if_neg hone] at h
    repeat' split at h
    all_goals
      simp only [List.mem_cons, List.not_mem_nil, or_false] at h
      rcases h with rfl | rfl | rfl | rfl <;> rw [UInt8.toNat_ofNat'] at hlow <;> omega

/-- An ASCII character stands in the bytes of a text where its byte does. -/
theorem stands_byte {c : Char} {b : UInt8} (hb : b < 0x80) (hc : String.utf8EncodeChar c = [b]) :
    Stands String.utf8EncodeChar c b where
  single := hc
  only := by
    intro d hd
    have hval := (utf8EncodeChar_of_mem hb hd).1
    have hval' := (utf8EncodeChar_of_mem hb (c := c) (by simp [hc])).1
    exact Char.ext (UInt32.toNat_inj.mp (hval.trans hval'.symm))
  nonempty := fun _ => String.utf8EncodeChar_ne_nil

/-- Bytes parted at a byte of an ASCII character are parted at that character. -/
theorem encode_parts {c : Char} {b : UInt8} (hb : b < 0x80) (hc : String.utf8EncodeChar c = [b])
    {text : List Char} {u v : Bytes} (h : encode text = u ++ b :: v) :
    ∃ before after, text = before ++ c :: after ∧ encode before = u ∧ encode after = v :=
  (stands_byte hb hc).parts h

/-- What opens a reference. -/
def opening : List Char := ['\x7b', '\x7b']

/-- What closes a reference. -/
def closing : List Char := ['\x7d', '\x7d']

theorem exists_refs (text : List Char) : ∃ refs tail, Scanned opening closing text refs tail :=
  exists_scanned (List.cons_ne_nil _ _) (List.cons_ne_nil _ _) text

theorem opening_byte : String.utf8EncodeChar '\x7b' = [0x7B] := by decide

theorem closing_byte : String.utf8EncodeChar '\x7d' = [0x7D] := by decide

theorem encode_twice {c : Char} {b : UInt8} (hc : String.utf8EncodeChar c = [b]) :
    encode [c, c] = [b, b] := by
  simp [encode, hc]

/-- The bytes of a reference. -/
def encodeRef : List Char × List Char → Bytes × Bytes := Prod.map encode encode

/-- What a scan of a document finds. -/
abbrev DocumentScan : Bytes → List (Bytes × Bytes) → Bytes → Prop := Scanned [0x7B, 0x7B] [0x7D, 0x7D]

/-- The scan of the bytes finds what the scan of the characters finds. -/
theorem Scanned.bytes {text tail : List Char} {refs : List (List Char × List Char)}
    (h : Scanned opening closing text refs tail) :
    DocumentScan (encode text) (refs.map encodeRef) (encode tail) :=
  h.spelled (stands_byte (by decide) opening_byte) (stands_byte (by decide) closing_byte)

theorem Parted.bytes {c : Char} {b : UInt8} {text before after : List Char} (hb : b < 0x80)
    (hc : String.utf8EncodeChar c = [b]) (h : Parted [c, c] text before after) :
    Parted [b, b] (encode text) (encode before) (encode after) :=
  h.spelled (stands_byte hb hc)

/-! ## The scan of the program -/

section Program

theorem cutPair_parted {c : Char} {text before after : List Char}
    (h : cutPair c text = some (before, after)) : Parted [c, c] text before after where
  whole := by simpa using eq_of_cutPair h
  leftmost := by
    intro u v huv
    fun_induction cutPair c text generalizing before u with
    | case1 x y rest hc =>
      simp only [Option.some.injEq, Prod.mk.injEq] at h
      simp [← h.1]
    | case2 x y rest hc ih =>
      simp only [Option.map_eq_some_iff, Prod.exists, Prod.mk.injEq] at h
      obtain ⟨b, a, hcut, rfl, rfl⟩ := h
      cases u with
      | nil =>
        simp only [List.nil_append, List.cons_append, List.cons.injEq] at huv
        exact absurd ⟨huv.1, huv.2.1⟩ hc
      | cons x' u =>
        have := ih hcut u (List.cons.inj huv).2
        simpa using this
    | case3 => cases h

theorem cutPair_none {c : Char} {text : List Char} (h : cutPair c text = none) :
    ¬ [c, c] <:+: text := by
  rintro ⟨u, v, rfl⟩
  induction u with
  | nil => simp [cutPair] at h
  | cons x u ih =>
    obtain ⟨y, rest, hrest⟩ : ∃ y rest, u ++ [c, c] ++ v = y :: rest := by
      cases u <;> simp
    rw [List.cons_append, List.cons_append, hrest, cutPair] at h
    split at h
    · cases h
    · rw [Option.map_eq_none_iff, ← hrest] at h
      exact ih h

theorem cutPair_of_parted {c : Char} {text before after : List Char}
    (h : Parted [c, c] text before after) : cutPair c text = some (before, after) := by
  cases hcut : cutPair c text with
  | none => exact absurd h.occurs (cutPair_none hcut)
  | some parts =>
    obtain ⟨rfl, rfl⟩ := h.unique (cutPair_parted hcut)
    rfl

theorem cutPair_eq_none {c : Char} {text : List Char} (h : ¬ [c, c] <:+: text) :
    cutPair c text = none := by
  cases hcut : cutPair c text with
  | none => rfl
  | some parts => exact absurd (cutPair_parted hcut).occurs h

theorem size_append (u v : List Char) : size (u ++ v) = size u + size v := by
  rw [← length_encode, encode_append, List.length_append, length_encode, length_encode]

/-- Lists the names of references behind names that are listed already. -/
def addNames (names : List String) (refs : List (List Char × List Char)) : List String :=
  refs.foldl (fun names ref => addName names (nameOf? ref.2)) names

theorem scan_eq (offset : Nat) (names : List String) (text : List Char) :
    scan offset names text = match cutPair '\x7b' text with
      | none => .ok names
      | some (before, after) => match cutPair '\x7d' after with
        | none => .error (.unterminated (offset + size before))
        | some (inner, rest) =>
          scan (offset + (size before + 2 + size inner + 2)) (addName names (nameOf? inner)) rest := by
  rw [scan]
  split
  case h_1 hopen => rw [hopen]
  case h_2 hopen =>
    rw [hopen]
    simp only
    split
    case h_1 hclose => rw [hclose]
    case h_2 hclose => rw [hclose]

/-- The program goes through the references that a scan finds. -/
theorem scan_of_scanned {text tail : List Char} {refs : List (List Char × List Char)}
    (h : Scanned opening closing text refs tail) (offset : Nat) (names : List String) :
    scan offset names text
      = scan (offset + size (consumed opening closing refs)) (addNames names refs) tail := by
  induction h generalizing offset names with
  | stops => rfl
  | @closes _ before _ inner _ _ refs hopened hclosed _ ih =>
    have hopening : size opening = 2 := by decide
    have hclosing : size closing = 2 := by decide
    have hconsumed : consumed opening closing ((before, inner) :: refs)
        = before ++ opening ++ inner ++ closing ++ consumed opening closing refs := rfl
    rw [scan_eq, cutPair_of_parted hopened]
    simp only [cutPair_of_parted hclosed]
    rw [ih, hconsumed]
    simp only [size_append, hopening, hclosing, ← Nat.add_assoc]
    rfl

theorem scan_of_unopened {text : List Char} (h : ¬ opening <:+: text) (offset : Nat)
    (names : List String) : scan offset names text = .ok names := by
  rw [scan_eq, cutPair_eq_none h]

theorem scan_of_unclosed {text before body : List Char} (hopened : Parted opening text before body)
    (h : ¬ closing <:+: body) (offset : Nat) (names : List String) :
    scan offset names text = .error (.unterminated (offset + size before)) := by
  rw [scan_eq, cutPair_of_parted hopened]
  simp only [cutPair_eq_none h]

theorem addName_foldl (found names : List String) :
    (found.foldl (fun names name => addName names (some name)) names)
      = names ++ (found.filter (· ∉ names)).eraseDups := by
  induction found generalizing names with
  | nil => simp
  | cons name found ih =>
    rw [List.foldl_cons, ih, addName]
    by_cases hname : name ∈ names
    · simp [hname]
    · have hfilter : found.filter (· ∉ names ++ [name])
          = (found.filter (· ∉ names)).filter (fun other => !other == name) := by
        rw [List.filter_filter]
        refine List.filter_congr fun other _ => ?_
        simp [and_comm, Bool.beq_eq_decide_eq]
      rw [if_neg hname, hfilter, List.filter_cons_of_pos (by simpa using hname),
        List.eraseDups_cons, List.append_assoc, List.singleton_append]

/-- Every name is listed once, where it is first seen. -/
theorem addNames_nil (refs : List (List Char × List Char)) :
    addNames [] refs = (refs.filterMap fun ref => nameOf? ref.2).eraseDups := by
  have hnames (names : List String) : addNames names refs = (refs.filterMap fun ref => nameOf? ref.2).foldl
      (fun names name => addName names (some name)) names := by
    induction refs generalizing names with
    | nil => rfl
    | cons ref refs ih =>
      rw [addNames, List.foldl_cons]
      refine (ih _).trans ?_
      cases hname : nameOf? ref.2 <;> simp [hname, addName]
  rw [hnames, addName_foldl, List.nil_append, List.filter_eq_self.mpr (by simp)]

end Program

/-! ## Names -/

/-- A text without the blanks at its ends. -/
structure Trims (text core : List Char) : Prop where
  whole : ∃ left right, text = left ++ core ++ right ∧
    (∀ c ∈ left, Text.isBlank c = true) ∧ ∀ c ∈ right, Text.isBlank c = true
  first : ∀ c ∈ core.head?, Text.isBlank c = false
  last : ∀ c ∈ core.getLast?, Text.isBlank c = false

theorem dropWhile_blank {left text : List Char} (hleft : ∀ c ∈ left, Text.isBlank c = true)
    (hfirst : ∀ c ∈ text.head?, Text.isBlank c = false) :
    (left ++ text).dropWhile Text.isBlank = text := by
  rw [List.dropWhile_append_of_pos hleft]
  cases text with
  | nil => rfl
  | cons c rest =>
    have hc : ¬ Text.isBlank c = true := by simp [hfirst c rfl]
    exact List.dropWhile_cons_of_neg hc

theorem trim_of_trims {text core : List Char} (h : Trims text core) : Text.trim text = core := by
  obtain ⟨left, right, rfl, hleft, hright⟩ := h.whole
  have hreverse : ∀ c ∈ right.reverse, Text.isBlank c = true := fun c hc =>
    hright c (List.mem_reverse.mp hc)
  rw [Text.trim, Text.trimLeft, List.append_assoc]
  by_cases hcore : core = []
  · have hblank : ∀ c ∈ left ++ right, Text.isBlank c = true := by
      simpa [or_imp, forall_and] using ⟨hleft, hright⟩
    have hnil : (left ++ right ++ []).dropWhile Text.isBlank = [] := dropWhile_blank hblank nofun
    rw [List.append_nil] at hnil
    rw [hcore, List.nil_append, hnil]
    rfl
  · have hfirst : ∀ c ∈ (core ++ right).head?, Text.isBlank c = false := by
      obtain ⟨c, cs, rfl⟩ := List.exists_cons_of_ne_nil hcore
      exact h.first
    rw [dropWhile_blank hleft hfirst, Text.trimRight, List.reverse_append,
      dropWhile_blank hreverse (by simpa using h.last), List.reverse_reverse]

theorem head?_dropWhile_blank (text : List Char) :
    ∀ c ∈ (text.dropWhile Text.isBlank).head?, Text.isBlank c = false := by
  intro c hc
  have h := List.head?_dropWhile_not Text.isBlank text
  rwa [Option.mem_def.mp hc] at h

theorem trims_trim (text : List Char) : Trims text (Text.trim text) := by
  have hright : Text.trimLeft text = Text.trim text
      ++ ((Text.trimLeft text).reverse.takeWhile Text.isBlank).reverse := by
    rw [Text.trim, Text.trimRight, ← List.reverse_append, List.takeWhile_append_dropWhile,
      List.reverse_reverse]
  have hwhole : text = text.takeWhile Text.isBlank ++ Text.trim text
      ++ ((Text.trimLeft text).reverse.takeWhile Text.isBlank).reverse := by
    rw [List.append_assoc, ← hright]
    exact List.takeWhile_append_dropWhile.symm
  refine ⟨⟨_, _, hwhole, fun c hc => List.mem_takeWhile_imp hc,
    fun c hc => List.mem_takeWhile_imp (List.mem_reverse.mp hc)⟩, fun c hc => ?_, fun c hc => ?_⟩
  · refine head?_dropWhile_blank text c ?_
    rw [← Text.trimLeft, hright]
    rw [List.head?_append, Option.mem_def.mp hc]
    rfl
  · refine head?_dropWhile_blank (Text.trimLeft text).reverse c ?_
    rwa [Text.trim, Text.trimRight, List.getLast?_reverse] at hc

/-- The inside of a pair of braces names a variable. -/
def Names (inner : List Char) (name : String) : Prop :=
  ∃ rest, Trims inner (marker ++ rest) ∧ Trims rest name.toList ∧ name ≠ ""

theorem nameOf?_eq_some {inner : List Char} {name : String} :
    nameOf? inner = some name ↔ Names inner name := by
  rw [nameOf?]
  constructor
  · intro h
    split at h
    case isFalse => cases h
    case isTrue hmarker =>
      obtain ⟨rest, hrest⟩ := List.isPrefixOf_iff_prefix.mp hmarker
      simp only [← hrest, List.drop_left] at h
      split at h
      case isTrue => cases h
      case isFalse hne =>
        obtain rfl := Option.some.inj h
        refine ⟨rest, hrest ▸ trims_trim inner, ?_, ?_⟩
        · rw [String.toList_ofList]
          exact trims_trim rest
        · rw [Ne, ← String.toList_inj, String.toList_ofList]
          simpa using hne
  · rintro ⟨rest, hinner, hrest, hne⟩
    have hmarker : marker.isPrefixOf (marker ++ rest) = true :=
      List.isPrefixOf_iff_prefix.mpr ⟨rest, rfl⟩
    have hfull : name.toList.isEmpty = false :=
      List.isEmpty_eq_false_iff.mpr fun hnil => hne (String.toList_inj.mp hnil)
    simp only [trim_of_trims hinner, hmarker, if_true, List.drop_left, trim_of_trims hrest, hfull,
      Bool.false_eq_true, if_false, String.ofList_toList]

/-! ## The grammar -/

/-- A document that is a text is scanned. -/
theorem variableNames_text (text : List Char) : variableNames (encode text) = scan 0 [] text := by
  have htext : toText? (encode text) = some (String.ofList text) :=
    toText?_eq_some.mpr (by rw [String.toList_ofList])
  rw [variableNames, htext]
  simp only [String.toList_ofList]

theorem variableNames_encode {text tail : List Char} {refs : List (List Char × List Char)}
    (h : Scanned opening closing text refs tail) :
    variableNames (encode text) = scan (encode (consumed opening closing refs)).length
      (refs.filterMap fun ref => nameOf? ref.2).eraseDups tail := by
  rw [variableNames_text, scan_of_scanned h, addNames_nil, Nat.zero_add, length_encode]

theorem encodeRef_injective {refs refs' : List (List Char × List Char)}
    (h : refs.map encodeRef = refs'.map encodeRef) : refs = refs' := by
  refine List.map_inj_right (fun ref ref' href => ?_) |>.mp h
  exact Prod.ext (encode_injective (congrArg Prod.fst href)) (encode_injective (congrArg Prod.snd href))

theorem consumed_bytes (refs : List (List Char × List Char)) :
    consumed [0x7B, 0x7B] [0x7D, 0x7D] (refs.map encodeRef) = encode (consumed opening closing refs) := by
  induction refs with
  | nil => rfl
  | cons ref refs ih =>
    have hconsumed : consumed opening closing (ref :: refs)
        = ref.1 ++ opening ++ ref.2 ++ closing ++ consumed opening closing refs := rfl
    rw [hconsumed, encode_append, ← ih]
    simp only [encode_append, opening, closing, encode_twice opening_byte, encode_twice closing_byte]
    rfl

/-- A document whose scan finds texts is a text. -/
theorem DocumentScan.encoded {document : Bytes} {refs : List (List Char × List Char)} {tail : List Char}
    (h : DocumentScan document (refs.map encodeRef) (encode tail)) :
    document = encode (consumed opening closing refs ++ tail) := by
  rw [h.whole, consumed_bytes, encode_append]

theorem DocumentScan.encoded_unique {document : Bytes} {refs refs' : List (List Char × List Char)}
    {tail tail' : List Char} (h : DocumentScan document (refs.map encodeRef) (encode tail))
    (h' : DocumentScan document (refs'.map encodeRef) (encode tail')) : refs = refs' ∧ tail = tail' := by
  obtain ⟨hrefs, htail⟩ := h.unique h'
  exact ⟨encodeRef_injective hrefs, encode_injective htail⟩

theorem opening_occurs {text : List Char} : [0x7B, 0x7B] <:+: encode text ↔ opening <:+: text :=
  (stands_byte (by decide) opening_byte).occurs

theorem closing_occurs {text : List Char} : [0x7D, 0x7D] <:+: encode text ↔ closing <:+: text :=
  (stands_byte (by decide) closing_byte).occurs

theorem nodup_addName {names : List String} (h : names.Nodup) (name? : Option String) :
    (addName names name?).Nodup := by
  cases name? with
  | none => exact h
  | some name =>
    rw [addName]
    split
    · exact h
    · rename_i hname
      refine List.nodup_append.mpr ⟨h, List.pairwise_singleton _ _, fun a ha b hb => ?_⟩
      rw [List.mem_singleton.mp hb]
      exact fun heq => hname (heq ▸ ha)

theorem nodup_scan {offset : Nat} {names names' : List String} {text : List Char}
    (h : scan offset names text = .ok names') (hn : names.Nodup) : names'.Nodup := by
  fun_induction scan offset names text with
  | case1 =>
    cases h
    exact hn
  | case2 => cases h
  | case3 _ _ _ _ _ _ inner _ _ ih => exact ih h (nodup_addName hn (nameOf? inner))

/-- A document's variables are listed once each. -/
theorem nodup_variableNames {document : Bytes} {names : List String}
    (h : variableNames document = .ok names) : names.Nodup := by
  unfold variableNames at h
  split at h
  · cases h
  · exact nodup_scan h List.nodup_nil

/-- A document is no text, or the scan of its bytes finds texts and ends with their names or at an
opening that is not closed. -/
theorem variableNames_cases (document : Bytes) :
    ((¬ ∃ text, document = encode text) ∧ variableNames document = .error .invalidEncoding) ∨
    ∃ (refs : List (List Char × List Char)) (tail : List Char),
      DocumentScan document (refs.map encodeRef) (encode tail) ∧
      ((¬ [0x7B, 0x7B] <:+: encode tail ∧
        variableNames document = .ok (refs.filterMap fun ref => nameOf? ref.2).eraseDups) ∨
      ∃ before body, Parted [0x7B, 0x7B] (encode tail) (encode before) (encode body) ∧
        ¬ [0x7D, 0x7D] <:+: encode body ∧ variableNames document
          = .error (.unterminated (encode (consumed opening closing refs ++ before)).length)) := by
  by_cases hvalid : ∃ text, document = encode text
  case neg =>
    have hnone : toText? document = none := by
      cases htext : toText? document with
      | none => rfl
      | some text => exact absurd ⟨_, toText?_eq_some.mp htext⟩ hvalid
    exact .inl ⟨hvalid, by rw [variableNames, hnone]⟩
  obtain ⟨text, rfl⟩ := hvalid
  obtain ⟨refs, tail, h⟩ := exists_refs text
  refine .inr ⟨refs, tail, h.bytes, ?_⟩
  rw [variableNames_encode h, opening_occurs]
  by_cases hopens : opening <:+: tail
  · obtain ⟨before, body, hopened⟩ := exists_parted hopens
    have hnone := h.tail_stops _ _ hopened
    refine .inr ⟨before, body, hopened.bytes (by decide) opening_byte, mt closing_occurs.mp hnone, ?_⟩
    rw [scan_of_unclosed hopened hnone, encode_append, List.length_append, length_encode before]
  · exact .inl ⟨hopens, scan_of_unopened hopens _ _⟩

/-- What follows the references and the text before an unclosed opening is the opening. -/
theorem DocumentScan.drop {document : Bytes} {refs : List (List Char × List Char)}
    {tail before body : List Char} (h : DocumentScan document (refs.map encodeRef) (encode tail))
    (hopened : Parted [0x7B, 0x7B] (encode tail) (encode before) (encode body)) :
    document.drop (encode (consumed opening closing refs ++ before)).length
      = [0x7B, 0x7B] ++ encode body := by
  have hdocument : document = encode (consumed opening closing refs ++ before)
      ++ ([0x7B, 0x7B] ++ encode body) := by
    rw [h.encoded, encode_append, hopened.whole, encode_append]
    simp
  rw [hdocument, List.drop_left]

/-- A rest that is not empty starts at one place only. -/
theorem eq_of_drop_eq {α : Type} {xs rest : List α} {i j : Nat} (hi : xs.drop i = rest)
    (hj : xs.drop j = rest) (hne : rest ≠ []) : i = j := by
  have hlength := congrArg List.length hi
  have hlength' := congrArg List.length hj
  have hpos := List.length_pos_iff.mpr hne
  rw [List.length_drop] at hlength hlength'
  omega

/-- The variables of a document are listed exactly by its grammar: every document has one scan,
it is cut between characters, and its references or its unclosed opening are the result. -/
theorem variableNames_grammar (document : Bytes) :
    (∃! found : List (Bytes × Bytes) × Bytes, DocumentScan document found.1 found.2) ∧
    (variableNames document = .error .invalidEncoding ↔ ¬ ∃ text, document = encode text) ∧
    (∀ names, variableNames document = .ok names ↔
      ∃ (refs : List (List Char × List Char)) (tail : List Char),
        DocumentScan document (refs.map encodeRef) (encode tail) ∧
        ¬ [0x7B, 0x7B] <:+: encode tail ∧
        names = (refs.filterMap fun ref => nameOf? ref.2).eraseDups) ∧
    (∀ offset, variableNames document = .error (.unterminated offset) ↔
      ∃ (refs : List (List Char × List Char)) (tail before body : List Char),
        DocumentScan document (refs.map encodeRef) (encode tail) ∧
        Parted [0x7B, 0x7B] (encode tail) (encode before) (encode body) ∧
        document.drop offset = [0x7B, 0x7B] ++ encode body ∧
        ¬ [0x7D, 0x7D] <:+: encode body) ∧
    ∀ inner name, nameOf? inner = some name ↔ Names inner name := by
  have hscan : ∃! found : List (Bytes × Bytes) × Bytes, DocumentScan document found.1 found.2 := by
    obtain ⟨refs, tail, h⟩ := exists_scanned (List.cons_ne_nil _ _) (List.cons_ne_nil _ _) document
    exact ⟨(refs, tail), h, fun _ h' => Prod.ext (h'.unique h).1 (h'.unique h).2⟩
  refine ⟨hscan, ?_⟩
  rcases variableNames_cases document with ⟨hvalid, hresult⟩ |
    ⟨refs, tail, h, ⟨hnone, hresult⟩ | ⟨before, body, hopened, hnone, hresult⟩⟩ <;> rw [hresult]
  case inl =>
    refine ⟨iff_of_true rfl hvalid, fun names => iff_of_false nofun ?_,
      fun offset => iff_of_false nofun ?_, fun _ _ => nameOf?_eq_some⟩
    · rintro ⟨refs, tail, h, -⟩
      exact hvalid ⟨_, h.encoded⟩
    · rintro ⟨refs, tail, before, body, h, -⟩
      exact hvalid ⟨_, h.encoded⟩
  case inr.inl =>
    refine ⟨iff_of_false nofun (· ⟨_, h.encoded⟩), fun names => ⟨?_, ?_⟩,
      fun offset => iff_of_false nofun ?_, fun _ _ => nameOf?_eq_some⟩
    · rintro ⟨⟩
      exact ⟨refs, tail, h, hnone, rfl⟩
    · rintro ⟨refs', tail', h', -, rfl⟩
      rw [(h.encoded_unique h').1]
    · rintro ⟨refs', tail', before, body, h', hopened, -⟩
      obtain ⟨-, rfl⟩ := h.encoded_unique h'
      exact hnone hopened.occurs
  case inr.inr =>
    refine ⟨iff_of_false nofun (· ⟨_, h.encoded⟩), fun names => iff_of_false nofun ?_,
      fun offset => ⟨?_, ?_⟩, fun _ _ => nameOf?_eq_some⟩
    · rintro ⟨refs', tail', h', hno, -⟩
      obtain ⟨-, rfl⟩ := h.encoded_unique h'
      exact hno hopened.occurs
    · rintro ⟨⟩
      exact ⟨refs, tail, before, body, h, hopened, h.drop hopened, hnone⟩
    · rintro ⟨refs', tail', before', body', h', hopened', hdrop, -⟩
      obtain ⟨rfl, rfl⟩ := h.encoded_unique h'
      rw [(hopened'.unique hopened).2] at hdrop
      rw [eq_of_drop_eq (h.drop hopened) hdrop (List.cons_ne_nil _ _)]

/-- Braces overlap, names repeat, and a byte is not a character. -/
example : variableNames (ofText <| "\x7b\x7b\x7bvar:a\x7d\x7d é " ++
    "\x7b\x7b\u3000var: b \x7d\x7d\x7d \x7b\x7bvar:b\x7d\x7d") = .ok ["b"] := by decide +kernel

end ConfigRegistry.Template
