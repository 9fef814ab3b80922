import ConfigRegistry.Proofs.ByteOrder
import ConfigRegistry.Json.Writer
import ConfigRegistry.Uuid

/-!
# The text of a UUID

The hyphenated spelling is read back, and a string literal holds it as it is.
-/

namespace ConfigRegistry

namespace Uuid

theorem length_digits (u : Uuid) : u.digits.length = 32 := by
  have hlength : ∀ bs : Bytes, (Bytes.toHex bs).length = 2 * bs.length := by
    intro bs
    induction bs with
    | nil => rfl
    | cons b rest ih =>
      rw [Bytes.toHex, List.length_cons, List.length_cons, List.length_cons, ih]
      omega
  rw [digits, hlength, length_toBytes]

theorem length_hyphenated (u : Uuid) : u.hyphenated.length = 36 := by
  have hlength := u.length_digits
  simp only [hyphenated, List.length_append, List.length_cons, List.length_take, List.length_drop]
  omega

/-- The groups of a spelling, put together. -/
theorem regroup (ds : Bytes) :
    ds.take 8 ++ (ds.drop 8).take 4 ++ (ds.drop 12).take 4 ++ (ds.drop 16).take 4 ++ ds.drop 20 = ds := by
  have hstep : ∀ i j : Nat, (ds.drop i).take j ++ ds.drop (i + j) = ds.drop i := by
    intro i j
    rw [← List.drop_drop, List.take_append_drop]
  simp only [List.append_assoc]
  rw [hstep 16 4, hstep 12 4, hstep 8 4, List.take_append_drop]

theorem ofDigits?_digits (u : Uuid) : ofDigits? u.digits = some u := by
  rw [ofDigits?, digits, Bytes.ofHex?_toHex]
  exact ofBytes?_toBytes u

theorem ofHyphenated?_hyphenated (u : Uuid) : ofHyphenated? u.hyphenated = some u := by
  have hlength := u.length_digits
  have hgroups := regroup u.digits
  have hall := ofDigits?_digits u
  rw [← hgroups] at hall
  rw [ofHyphenated?, length_hyphenated, hyphenated]
  generalize h₁ : u.digits.take 8 = a at *
  generalize h₂ : (u.digits.drop 8).take 4 = b at *
  generalize h₃ : (u.digits.drop 12).take 4 = c at *
  generalize h₄ : (u.digits.drop 16).take 4 = d at *
  generalize h₅ : u.digits.drop 20 = e at *
  have ha : a.length = 8 := by simp [← h₁, hlength]
  have hb : b.length = 4 := by simp [← h₂, hlength]
  have hc : c.length = 4 := by simp [← h₃, hlength]
  have hd : d.length = 4 := by simp [← h₄, hlength]
  simpa [List.take_append, List.drop_append, List.drop_eq_nil_of_le, List.getElem?_append, ha, hb, hc,
    hd] using hall

theorem hyphenated_injective {u v : Uuid} (h : u.hyphenated = v.hyphenated) : u = v := by
  have hu := ofHyphenated?_hyphenated u
  rw [h, ofHyphenated?_hyphenated] at hu
  exact (Option.some.inj hu).symm

/-- The bytes of a spelling are hexadecimal digits and hyphens. -/
theorem mem_hyphenated {u : Uuid} {b : UInt8} (hb : b ∈ u.hyphenated) :
    b = hyphen ∨ ∃ n, n < 16 ∧ b = Bytes.hexDigit n := by
  have hdigit : ∀ bs : Bytes, ∀ b ∈ Bytes.toHex bs, ∃ n, n < 16 ∧ b = Bytes.hexDigit n := by
    intro bs
    induction bs with
    | nil => nofun
    | cons x rest ih =>
      intro b hb
      have hx : x.toNat < 256 := x.toNat_lt_size
      rw [Bytes.toHex, List.mem_cons, List.mem_cons] at hb
      rcases hb with rfl | rfl | hb
      · exact ⟨x.toNat / 16, by omega, rfl⟩
      · exact ⟨x.toNat % 16, by omega, rfl⟩
      · exact ih b hb
  have hdigits : ∀ b ∈ u.digits, ∃ n, n < 16 ∧ b = Bytes.hexDigit n := hdigit _
  simp only [hyphenated, List.mem_append, List.mem_cons] at hb
  rcases hb with hb | rfl | hb | rfl | hb | rfl | hb | rfl | hb
  · exact .inr (hdigits b (List.mem_of_mem_take hb))
  · exact .inl rfl
  · exact .inr (hdigits b (List.mem_of_mem_drop (List.mem_of_mem_take hb)))
  · exact .inl rfl
  · exact .inr (hdigits b (List.mem_of_mem_drop (List.mem_of_mem_take hb)))
  · exact .inl rfl
  · exact .inr (hdigits b (List.mem_of_mem_drop (List.mem_of_mem_take hb)))
  · exact .inl rfl
  · exact .inr (hdigits b (List.mem_of_mem_drop hb))

/-- A byte of a spelling is one character, and a string literal holds it as it is. -/
theorem plain_hyphenated {u : Uuid} {b : UInt8} (hb : b ∈ u.hyphenated) :
    String.utf8EncodeChar (Char.ofNat b.toNat) = [b] ∧ Json.escape b = [b] := by
  have hdigit : ∀ n : Fin 16, String.utf8EncodeChar (Char.ofNat (Bytes.hexDigit n.val).toNat) =
      [Bytes.hexDigit n.val] ∧ Json.escape (Bytes.hexDigit n.val) = [Bytes.hexDigit n.val] := by
    decide
  rcases mem_hyphenated hb with rfl | ⟨n, hn, rfl⟩
  · decide
  · exact hdigit ⟨n, hn⟩

theorem ofText_text (u : Uuid) : Bytes.ofText u.text = u.hyphenated := by
  rw [text, Bytes.ofText_ofList, List.flatMap_map]
  exact Bytes.flatMap_self fun b hb => (plain_hyphenated hb).1

theorem writeString_text (u : Uuid) : Json.writeString u.text = 0x22 :: (u.hyphenated ++ [0x22]) := by
  rw [Json.writeString, ofText_text, Bytes.flatMap_self fun b hb => (plain_hyphenated hb).2]

/-- The text of a UUID is read as this UUID. -/
theorem parse?_text (u : Uuid) : parse? u.text = some u := by
  rw [parse?, ofText_text, ofSpelling?, length_hyphenated]
  exact ofHyphenated?_hyphenated u

end Uuid

end ConfigRegistry
