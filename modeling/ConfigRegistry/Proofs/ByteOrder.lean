import ConfigRegistry.Bytes

/-!
# The order of texts is the order of their bytes

Texts are ordered by their code points. UTF-8 keeps this order: of two characters the
smaller one has the smaller byte where their encodings part (`encode_lt`).
-/

namespace ConfigRegistry.Bytes

theorem ofText_toList (s : String) : ofText s = s.toList.flatMap String.utf8EncodeChar := by
  rw [← ofText_ofList, String.ofList_toList]

/-- Where every letter stands for itself a text is spelled as it is. -/
theorem flatMap_self {α : Type} {f : α → List α} {xs : List α} (h : ∀ x ∈ xs, f x = [x]) :
    xs.flatMap f = xs := by
  induction xs with
  | nil => rfl
  | cons x xs ih =>
    rw [List.flatMap_cons, h x List.mem_cons_self, ih fun y hy => h y (List.mem_cons_of_mem x hy)]
    rfl

theorem cons_lt_cons {a b : Nat} {u v : Bytes} (ha : a < 256) (hb : b < 256) :
    UInt8.ofNat a :: u < UInt8.ofNat b :: v ↔ a < b ∨ a = b ∧ u < v := by
  rw [List.cons_lt_cons_iff, UInt8.lt_iff_toNat_lt, ← UInt8.toNat_inj,
    UInt8.toNat_ofNat_of_lt' ha, UInt8.toNat_ofNat_of_lt' hb]

theorem encode_lt {c d : Char} (h : c < d) (u v : Bytes) :
    String.utf8EncodeChar c ++ u < String.utf8EncodeChar d ++ v := by
  have hlt : c.val.toNat < d.val.toNat := UInt32.lt_iff_toNat_lt.mp h
  have hmax : d.val.toNat < 0x110000 := by
    rcases d.valid with hd | ⟨-, hd⟩
    · exact Nat.lt_trans hd (by decide)
    · exact hd
  simp only [String.utf8EncodeChar]
  generalize c.val.toNat = m at *
  generalize d.val.toNat = n at *
  have hdigits : ∀ a b : Nat, a < b → a / 64 < b / 64 ∨ a / 64 = b / 64 ∧ a % 64 < b % 64 := by omega
  have hlow := hdigits m n hlt
  have hmiddle := hdigits (m / 64) (n / 64)
  have hhigh := hdigits (m / 4096) (n / 4096)
  simp only [Nat.div_div_eq_div_mul, Nat.reduceMul] at hmiddle hhigh
  -- one case for each pair of lengths
  repeat' split
  all_goals
    simp (disch := omega) only [List.cons_append, List.nil_append, cons_lt_cons, Nat.mod_eq_of_lt]
    omega

theorem flatMap_encode_lt {cs ds : List Char} (h : cs < ds) :
    cs.flatMap String.utf8EncodeChar < ds.flatMap String.utf8EncodeChar := by
  induction cs generalizing ds with
  | nil =>
    cases ds with
    | nil => exact absurd h (List.not_lt_nil _)
    | cons d ds =>
      obtain ⟨b, bs, hb⟩ := List.exists_cons_of_ne_nil (String.utf8EncodeChar_ne_nil (c := d))
      rw [List.flatMap_cons, hb]
      exact List.nil_lt_cons _ _
  | cons c cs ih =>
    cases ds with
    | nil => exact absurd h (List.not_lt_nil _)
    | cons d ds =>
      rw [List.flatMap_cons, List.flatMap_cons]
      rcases List.cons_lt_cons_iff.mp h with hcd | ⟨rfl, hrest⟩
      · exact encode_lt hcd _ _
      · exact List.append_left_lt (ih hrest)

theorem ofText_lt_ofText {s t : String} (h : s < t) : ofText s < ofText t := by
  rw [ofText_toList, ofText_toList]
  exact flatMap_encode_lt h

/-- Texts are ordered as their bytes are. -/
theorem ofText_le_ofText {s t : String} (h : s ≤ t) : ofText s ≤ ofText t := by
  by_cases he : s = t
  · subst he
    exact List.le_refl _
  · exact List.le_of_lt (ofText_lt_ofText (Std.lt_of_le_of_ne h he))

end ConfigRegistry.Bytes
