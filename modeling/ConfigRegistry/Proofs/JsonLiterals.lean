import ConfigRegistry.Json.Literal
import ConfigRegistry.Json.Writer

/-!
# Literals are read back

A string literal and an integer are read back from the front of any text that goes on
behind them; a number must not go on with what could be part of it (`EndsNumber`).
-/

namespace ConfigRegistry

namespace Decimal

theorem digits_head {n : Nat} (hn : 0 < n) : (digits n).head? ≠ some 0x30 := by
  induction n using Nat.strongRecOn with
  | ind n ih =>
    have hdigit : ∀ m : Fin 10, 0 < m.val → digit m.val ≠ 0x30 := by decide
    unfold digits
    split
    case isTrue h =>
      intro hhead
      exact hdigit ⟨n, h⟩ hn (Option.some.inj hhead)
    case isFalse h =>
      obtain ⟨b, ds, hcons⟩ := List.exists_cons_of_ne_nil (digits_ne_nil (n / 10))
      have hhead := ih (n / 10) (by omega) (by omega)
      rw [hcons] at hhead ⊢
      exact hhead

/-- The digits of a number: only zero starts with a zero. -/
theorem digits_cons (n : Nat) : ∃ b ds, digits n = b :: ds ∧ isDigit b = true ∧ (b = 0x30 → ds = []) := by
  obtain ⟨b, ds, h⟩ := List.exists_cons_of_ne_nil (digits_ne_nil n)
  refine ⟨b, ds, h, isDigit_of_mem_digits n b (h ▸ List.mem_cons_self), ?_⟩
  rintro rfl
  rcases Nat.eq_zero_or_pos n with rfl | hn
  · rw [show digits 0 = [0x30] by unfold digits; rfl] at h
    exact (List.cons.inj h).2.symm
  · exact absurd (by rw [h]; rfl) (digits_head hn)

end Decimal

namespace Json

open Decimal

variable {acc bs rest : Bytes}

/-! ## Strings -/

theorem hexNumber_low : ∀ n : Fin 0x20,
    hexNumber? [0x30, 0x30, Bytes.hexDigit (n.val / 16), Bytes.hexDigit (n.val % 16)] = some n.val := by
  decide

theorem acceptUnit_low {n : Nat} (h : n < 0x20) :
    acceptUnit .text none n acc = .ok (.plain, UInt8.ofNat n :: acc) := by
  have hlow : isLow n = false := by simp [isLow]; omega
  have hhigh : isHigh n = false := by simp [isHigh]; omega
  simp [acceptUnit, hlow, hhigh, pushPoint, encodePoint, show n < 0x80 by omega]

/-- A byte is escaped by a letter, by its number, or stands for itself. -/
theorem escape_cases (b : UInt8) :
    (∃ c, escape b = [0x5C, c] ∧ c ≠ 0x75 ∧ letterEscape? c = some b) ∨
    (b < 0x20 ∧ escape b =
      [0x5C, 0x75, 0x30, 0x30, Bytes.hexDigit (b.toNat / 16), Bytes.hexDigit (b.toNat % 16)]) ∨
    (escape b = [b] ∧ b ≠ 0x22 ∧ b ≠ 0x5C ∧ ¬ b < 0x20) := by
  by_cases hletter : b ∈ [0x22, 0x5C, 0x08, 0x09, 0x0A, 0x0C, 0x0D]
  · simp only [List.mem_cons, List.not_mem_nil, or_false] at hletter
    rcases hletter with rfl | rfl | rfl | rfl | rfl | rfl | rfl <;>
      exact .inl ⟨_, rfl, by decide, rfl⟩
  · simp only [List.mem_cons, List.not_mem_nil, or_false, not_or] at hletter
    obtain ⟨hquote, hslash, h8, h9, ha, hc, hd⟩ := hletter
    by_cases hlow : b < 0x20
    · exact .inr (.inl ⟨hlow, by simp [escape, *]⟩)
    · exact .inr (.inr ⟨by simp [escape, *], hquote, hslash, hlow⟩)

/-- What stands for one byte is read as this byte. -/
theorem readLiteral_escape (b : UInt8) :
    readLiteral .text .plain acc (escape b ++ rest) = readLiteral .text .plain (b :: acc) rest := by
  rcases escape_cases b with ⟨c, hescape, hc, hletter⟩ | ⟨hlow, hescape⟩ |
    ⟨hescape, hquote, hslash, hlow⟩
  · simp [hescape, readLiteral, hc, hletter, pushHeld]
  · have hn : b.toNat < 0x20 := UInt8.lt_iff_toNat_lt.mp hlow
    have hhex := hexNumber_low ⟨b.toNat, hn⟩
    simp [hescape, readLiteral, hhex, acceptUnit_low hn]
  · simp [hescape, readLiteral, hquote, hslash, hlow]

theorem readLiteral_flatMap (bs acc rest : Bytes) :
    readLiteral .text .plain acc (bs.flatMap escape ++ 0x22 :: rest) = .ok (acc.reverse ++ bs, rest) := by
  induction bs generalizing acc with
  | nil => simp [readLiteral]
  | cons b bs ih =>
    rw [List.flatMap_cons, List.append_assoc, readLiteral_escape, ih]
    simp

/-- A literal is read back behind its opening quote. -/
theorem readText_writeString (s : String) :
    ∃ tail, writeString s = 0x22 :: tail ∧ ∀ rest, readText (tail ++ rest) = .ok (s, rest) := by
  refine ⟨_, rfl, fun rest => ?_⟩
  have h := readLiteral_flatMap (Bytes.ofText s) [] rest
  rw [List.append_assoc]
  simp [readText, h, Bytes.toText?_ofText]

/-! ## Numbers -/

/-- A text that does not go on with a digit, a point or an exponent. -/
def EndsNumber (bs : Bytes) : Prop :=
  ∀ b ∈ bs.head?, isDigit b = false ∧ b ≠ 0x2E ∧ b ≠ 0x65 ∧ b ≠ 0x45

theorem endsNumber_nil : EndsNumber [] := nofun

theorem endsNumber_comma : EndsNumber (0x2C :: bs) := by
  rintro b ⟨⟩
  decide

theorem endsNumber_bracket : EndsNumber (0x5D :: bs) := by
  rintro b ⟨⟩
  decide

theorem endsNumber_brace : EndsNumber (0x7D :: bs) := by
  rintro b ⟨⟩
  decide

theorem le_foldl_digits (bs : Bytes) (n : Nat) : n ≤ bs.foldl (fun n b => 10 * n + value b) n := by
  induction bs generalizing n with
  | nil => exact Nat.le_refl n
  | cons b rest ih =>
    have hstep : n ≤ 10 * n + value b := by omega
    exact Nat.le_trans hstep (ih _)

/-- Digits that stand for a 64-bit number are absorbed to the last one. -/
theorem absorb_all {n : Nat} (h : bs.foldl (fun n b => 10 * n + value b) n ≤ wordMax) :
    absorb n bs = (bs.foldl (fun n b => 10 * n + value b) n, bs.length, []) := by
  induction bs generalizing n with
  | nil => rfl
  | cons b rest ih =>
    rw [List.foldl_cons] at h
    have hfits : ¬ wordMax < 10 * n + value b :=
      Nat.not_lt.mpr (Nat.le_trans (le_foldl_digits rest _) h)
    simp only [absorb, if_neg hfits, ih h, List.foldl_cons, List.length_cons]

theorem readMagnitude_digits (negative : Bool) {n : Nat} (hn : n ≤ wordMax)
    (hrest : EndsNumber rest) :
    readMagnitude negative (digits n ++ rest) = .ok (integerOf negative n, rest) := by
  have hall : absorb 0 (digits n) = (n, (digits n).length, []) := by
    have hvalue : (digits n).foldl (fun n b => 10 * n + value b) 0 = n := ofDigits_digits n
    rw [absorb_all (by rw [hvalue]; exact hn), hvalue]
  have hend : ∀ b ∈ rest.head?, ¬ isDigit b = true := fun b hb => by simp [(hrest b hb).1]
  have htake : (digits n ++ rest).takeWhile isDigit = digits n := by
    rw [List.takeWhile_append_of_pos (isDigit_of_mem_digits n)]
    cases rest with
    | nil => simp
    | cons c more => simp [hend c rfl]
  have hdrop : (digits n ++ rest).dropWhile isDigit = rest := by
    rw [List.dropWhile_append_of_pos (isDigit_of_mem_digits n)]
    cases rest with
    | nil => rfl
    | cons c more => simp [hend c rfl]
  obtain ⟨b, ds, hcons, hb, hzero⟩ := digits_cons n
  have hlead : (b = 0x30 && ((ds ++ rest).head?.map isDigit).getD false) = false := by
    by_cases h : b = 0x30
    · obtain rfl := hzero h
      cases rest with
      | nil => simp
      | cons c more => simp [hend c rfl]
    · simp [h]
  rw [hcons, List.cons_append] at htake hdrop ⊢
  rw [hcons] at hall
  simp only [readMagnitude, hb, if_true, hlead, htake, hdrop, hall]
  cases rest with
  | nil => simp
  | cons c more =>
    obtain ⟨-, hpoint, he, hE⟩ := hrest c rfl
    simp [hpoint, startsExponent, he, hE]

/-- A natural number is read back. -/
theorem readNumber_natural (n : UInt64) (hrest : EndsNumber rest) :
    readNumber (digits n.toNat ++ rest) = .ok (.natural n, rest) := by
  have hn : n.toNat ≤ wordMax := Nat.le_sub_one_of_lt n.toNat_lt_size
  have h := readMagnitude_digits false hn hrest
  obtain ⟨b, ds, hcons, hb, -⟩ := digits_cons n.toNat
  have hminus : b ≠ 0x2D := by
    rintro rfl
    exact absurd hb (by decide)
  rw [hcons, List.cons_append] at h ⊢
  simp [readNumber, hminus, h, integerOf]

/-- A negative number is read back. -/
theorem readNumber_negative (n : Fin 0x8000000000000000) (hrest : EndsNumber rest) :
    readNumber (0x2D :: (digits (n.val + 1) ++ rest)) = .ok (.negative n, rest) := by
  have hn : n.val + 1 ≤ wordMax := by
    have := n.isLt
    rw [wordMax, UInt64.size]
    omega
  have h := readMagnitude_digits true hn hrest
  have hrange : 0 < n.val + 1 ∧ n.val + 1 ≤ 0x8000000000000000 := by omega
  simp [readNumber, h, integerOf, hrange]

end Json

end ConfigRegistry
