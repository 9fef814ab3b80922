import ConfigRegistry.Proofs.VariableReferences
import Mathlib.Data.List.Induction

/-!
# Documents put together

Where one document ends and the next one begins no reference is lost or made up, unless an
opening pair of braces lies across the seam (`Apart`). A scan of both goes on behind the first
as it starts on the second alone: offsets are shifted and names that were seen before are
left out (`variableNames_append`).
-/

namespace ConfigRegistry.Template

open Bytes

/-! ## Scans of texts put together -/

section Scans

variable {α : Type} {delimiter opening closing text before after lead more : List α}

/-- What a text is parted into does not depend on what follows, but for the last part. -/
theorem Parted.append (h : Parted delimiter text before after) (more : List α) :
    Parted delimiter (text ++ more) before (after ++ more) where
  whole := by
    rw [h.whole]
    simp
  leftmost := by
    intro u v huv
    by_contra hlt
    have hlength : (u ++ delimiter).length ≤ text.length := by
      rw [h.whole]
      simp only [List.length_append]
      omega
    -- an occurrence that begins further to the left lies within the text
    obtain ⟨v', hv'⟩ : u ++ delimiter <+: text :=
      List.prefix_of_prefix_length_le ⟨v, huv.symm⟩ (List.prefix_append text more) hlength
    exact hlt (h.leftmost u v' hv'.symm)

/-- A scan goes on behind its references with what is left of the text and what follows it. -/
theorem Scanned.append {refs refs' : List (List α × List α)} {tail tail' : List α}
    (h : Scanned opening closing text refs tail)
    (h' : Scanned opening closing (tail ++ more) refs' tail') :
    Scanned opening closing (text ++ more) (refs ++ refs') tail' := by
  induction h with
  | stops => exact h'
  | closes opened closed _ ih => exact .closes (opened.append more) (closed.append more) (ih h')

/-- No occurrence of a delimiter in two texts put together begins in the first. -/
def Apart (delimiter lead text : List α) : Prop :=
  ∀ u v, lead ++ text = u ++ delimiter ++ v → lead <+: u

/-- A pair lies in the first text or across the seam, or it does not begin in the first. -/
theorem apart_pair {c : α} (hlead : ¬ [c, c] <:+: lead)
    (hseam : ¬ (lead.getLast? = some c ∧ text.head? = some c)) : Apart [c, c] lead text := by
  intro u v huv
  rw [List.append_assoc] at huv
  rcases List.append_eq_append_iff.mp huv with ⟨w, rfl, -⟩ | ⟨w, rfl, hw⟩
  · exact List.prefix_append lead w
  match w with
  | [] => exact (List.append_nil u).symm ▸ List.prefix_rfl
  | [x] =>
    obtain ⟨rfl, rfl⟩ := List.cons.inj hw
    exact absurd ⟨List.getLast?_concat, rfl⟩ hseam
  | x :: y :: w =>
    simp only [List.cons_append, List.nil_append, List.cons.injEq] at hw
    obtain ⟨rfl, rfl, -⟩ := hw
    exact absurd ⟨u, w, by simp⟩ hlead

theorem Parted.prepend (h : Parted delimiter text before after) (ha : Apart delimiter lead text) :
    Parted delimiter (lead ++ text) (lead ++ before) after where
  whole := by
    rw [h.whole]
    simp
  leftmost := by
    intro u v huv
    obtain ⟨u', rfl⟩ := ha u v huv
    rw [List.append_assoc, List.append_assoc] at huv
    have hle := h.leftmost u' v (by simpa using List.append_cancel_left huv)
    simpa using hle

theorem Apart.occurs (ha : Apart delimiter lead text) (h : delimiter <:+: lead ++ text) :
    delimiter <:+: text := by
  obtain ⟨u, v, huv⟩ := h
  obtain ⟨u', rfl⟩ := ha u v huv.symm
  rw [List.append_assoc, List.append_assoc] at huv
  exact ⟨u', v, by simpa using List.append_cancel_left huv⟩

end Scans

/-! ## The scan of the program -/

section Program

variable {text more lead : List Char} {names names' : List String} {offset : Nat}

theorem consumed_append (refs refs' : List (List Char × List Char)) :
    consumed opening closing (refs ++ refs') =
      consumed opening closing refs ++ consumed opening closing refs' :=
  List.flatMap_append

theorem addNames_append (names : List String) (refs refs' : List (List Char × List Char)) :
    addNames names (refs ++ refs') = addNames (addNames names refs) refs' :=
  List.foldl_append

/-- A scan passes a text in which no reference opens. -/
theorem scan_lead (ha : Apart opening lead text) (offset : Nat) (names : List String) :
    scan offset names (lead ++ text) = scan (offset + size lead) names text := by
  by_cases hopens : opening <:+: text
  · obtain ⟨before, after, hparted⟩ := exists_parted hopens
    rw [scan_eq, scan_eq _ _ text, cutPair_of_parted hparted,
      cutPair_of_parted (hparted.prepend ha)]
    simp only [size_append, Nat.add_assoc]
  · rw [scan_of_unopened hopens, scan_of_unopened (mt ha.occurs hopens)]

theorem scan_append (h : scan offset names text = .ok names')
    (hseam : ¬ (text.getLast? = some '\x7b' ∧ more.head? = some '\x7b')) :
    scan offset names (text ++ more) = scan (offset + size text) names' more := by
  obtain ⟨refs, tail, hscanned⟩ := exists_refs text
  obtain ⟨refs', tail', hscanned'⟩ := exists_refs (tail ++ more)
  rw [scan_of_scanned hscanned] at h
  by_cases hopens : opening <:+: tail
  · -- the opening is not closed, so the scan failed
    obtain ⟨before, body, hparted⟩ := exists_parted hopens
    rw [scan_of_unclosed hparted (hscanned.tail_stops _ _ hparted)] at h
    cases h
  rw [scan_of_unopened hopens] at h
  obtain rfl : addNames names refs = names' := Except.ok.inj h
  have hapart : Apart opening tail more := by
    refine apart_pair hopens fun ⟨hlast, hfirst⟩ => hseam ⟨?_, hfirst⟩
    rw [hscanned.whole, List.getLast?_append, hlast]
    rfl
  calc scan offset names (text ++ more)
      = scan (offset + size (consumed opening closing refs)) (addNames names refs)
          (tail ++ more) := by
        rw [scan_of_scanned (hscanned.append hscanned'), scan_of_scanned hscanned',
          consumed_append, addNames_append, size_append, Nat.add_assoc]
    _ = scan (offset + size text) (addNames names refs) more := by
        rw [scan_lead hapart, hscanned.whole, size_append, Nat.add_assoc]

/-- Names that are listed already only keep themselves from being listed again. -/
theorem addNames_eq (names : List String) (refs : List (List Char × List Char)) :
    addNames names refs = names ++ (addNames [] refs).filter (· ∉ names) := by
  induction refs using List.reverseRecOn with
  | nil => simp [addNames]
  | append_singleton refs ref ih =>
    rw [addNames_append, addNames_append, ih]
    generalize addNames [] refs = found
    simp only [addNames, List.foldl_cons, List.foldl_nil]
    cases nameOf? ref.2 with
    | none => rfl
    | some name =>
      simp only [addName]
      by_cases hnames : name ∈ names <;> by_cases hfound : name ∈ found <;> simp [hnames, hfound]

/-- A fault in a document that a text of so many bytes was put before. -/
def Fault.behind (offset : Nat) : Fault → Fault
  | .invalidEncoding => .invalidEncoding
  | .unterminated o => .unterminated (offset + o)

/-- A scan that goes on lists and reports what it would from the start. -/
theorem scan_behind (offset : Nat) (names : List String) (text : List Char) :
    scan offset names text = match scan 0 [] text with
      | .ok found => .ok (names ++ found.filter (· ∉ names))
      | .error fault => .error (fault.behind offset) := by
  obtain ⟨refs, tail, h⟩ := exists_refs text
  rw [scan_of_scanned h, scan_of_scanned h]
  by_cases hopens : opening <:+: tail
  · obtain ⟨before, body, hparted⟩ := exists_parted hopens
    have hnone := h.tail_stops _ _ hparted
    rw [scan_of_unclosed hparted hnone, scan_of_unclosed hparted hnone]
    simp only [Fault.behind, Nat.zero_add, Nat.add_assoc]
  · rw [scan_of_unopened hopens, scan_of_unopened hopens, addNames_eq]

end Program

/-! ## Documents put together -/

/-- What follows a text in a text is a text. -/
theorem encode_prefix {u w : List Char} {b : Bytes} (h : encode w = encode u ++ b) :
    ∃ v, w = u ++ v ∧ b = encode v := by
  induction u generalizing w with
  | nil => exact ⟨w, rfl, h.symm⟩
  | cons c u ih =>
    cases w with
    | nil =>
      obtain ⟨hnil, -⟩ := List.append_eq_nil_iff.mp h.symm
      exact absurd (encode_eq_nil hnil) (List.cons_ne_nil c u)
    | cons d w =>
      have hbytes : String.utf8EncodeChar d ++ encode w =
          String.utf8EncodeChar c ++ (encode u ++ b) := by
        simpa [encode] using h
      -- different characters part in the bytes
      obtain rfl : d = c := by
        by_contra hne
        rcases Char.le_total d c with hle | hle
        · have hlt := encode_lt (Std.lt_of_le_of_ne hle hne) (encode w) (encode u ++ b)
          exact List.lt_irrefl _ (hbytes ▸ hlt)
        · have hlt := encode_lt (Std.lt_of_le_of_ne hle (Ne.symm hne)) (encode u ++ b) (encode w)
          exact List.lt_irrefl _ (hbytes ▸ hlt)
      obtain ⟨v, rfl, hv⟩ := ih (List.append_cancel_left hbytes)
      exact ⟨v, rfl, hv⟩

theorem variableNames_text_append (text : List Char) (b : Bytes) :
    variableNames (encode text ++ b) = match toText? b with
      | none => .error .invalidEncoding
      | some more => scan 0 [] (text ++ more.toList) := by
  cases hb : toText? b with
  | none =>
    have hnone : toText? (encode text ++ b) = none := by
      by_contra hsome
      obtain ⟨whole, hwhole⟩ := Option.ne_none_iff_exists'.mp hsome
      obtain ⟨more, -, rfl⟩ := encode_prefix (toText?_eq_some.mp hwhole).symm
      have hmore : toText? (encode more) = some (String.ofList more) :=
        toText?_eq_some.mpr (by rw [String.toList_ofList])
      rw [hmore] at hb
      cases hb
    rw [variableNames, hnone]
  | some more =>
    rw [toText?_eq_some.mp hb, ← encode_append, variableNames_text]

theorem getLast?_encode {text : List Char} (h : text.getLast? = some '\x7b') :
    (encode text).getLast? = some 0x7B := by
  obtain ⟨lead, rfl⟩ := List.getLast?_eq_some_iff.mp h
  have hbrace : encode ['\x7b'] = [0x7B] := by simp [encode, opening_byte]
  rw [encode_append, hbrace, List.getLast?_concat]

theorem head?_encode {text : List Char} (h : text.head? = some '\x7b') :
    (encode text).head? = some 0x7B := by
  obtain ⟨rest, rfl⟩ := List.head?_eq_some_iff.mp h
  rw [encode, List.flatMap_cons, opening_byte]
  rfl

/-- The variables of two documents put together, of which the first has no fault and no opening brace
meets another one at the seam: those of the first, then those of the second that are new. A fault is
the one of the second, counted from the start of the first. -/
theorem variableNames_append {a b : Bytes} {names : List String} (ha : variableNames a = .ok names)
    (hseam : ¬ (a.getLast? = some 0x7B ∧ b.head? = some 0x7B)) :
    variableNames (a ++ b) = match variableNames b with
      | .ok more => .ok (names ++ more.filter (· ∉ names))
      | .error (.unterminated offset) => .error (.unterminated (a.length + offset))
      | .error .invalidEncoding => .error .invalidEncoding := by
  obtain ⟨text, rfl⟩ : ∃ text, a = encode text := by
    cases htext : toText? a with
    | none =>
      rw [variableNames, htext] at ha
      cases ha
    | some text => exact ⟨text.toList, toText?_eq_some.mp htext⟩
  rw [variableNames_text] at ha
  rw [variableNames_text_append]
  cases hb : toText? b with
  | none => rw [variableNames, hb]
  | some more =>
    obtain rfl := toText?_eq_some.mp hb
    have hchars : ¬ (text.getLast? = some '\x7b' ∧ more.toList.head? = some '\x7b') :=
      fun h => hseam ⟨getLast?_encode h.1, head?_encode h.2⟩
    rw [variableNames_text]
    simp only
    rw [scan_append ha hchars, scan_behind, Nat.zero_add, length_encode]
    cases scan 0 [] more.toList with
    | ok found => rfl
    | error fault => cases fault <;> rfl

/-- A brace at the end of the first document opens nothing with a blank behind it; an opening in the
second one is counted from the start of the first. -/
theorem variableNames_across_seam :
    let a : Bytes := ofText "é \x7b\x7bvar:x\x7d\x7d \x7b"
    variableNames (a ++ ofText " \x7b\x7bvar:y\x7d\x7d\x7b\x7bvar:x\x7d\x7d") = .ok ["x", "y"] ∧
      variableNames (a ++ ofText " \x7b\x7b") = .error (.unterminated 15) := by
  intro a
  have ha : variableNames a = .ok ["x"] := by decide +kernel
  have hnames : variableNames (ofText " \x7b\x7bvar:y\x7d\x7d\x7b\x7bvar:x\x7d\x7d") =
      .ok ["y", "x"] := by decide +kernel
  have hfault : variableNames (ofText " \x7b\x7b") = .error (.unterminated 1) := by decide +kernel
  have hlength : a.length = 14 := by decide +kernel
  constructor
  · rw [variableNames_append ha (by decide +kernel), hnames]
    decide
  · rw [variableNames_append ha (by decide +kernel), hfault, hlength]

/-- Two braces that meet at the seam open a reference of neither document. -/
example : variableNames (ofText "\x7b" ++ ofText "\x7bvar:x\x7d\x7d") = .ok ["x"] := by decide +kernel

end ConfigRegistry.Template
