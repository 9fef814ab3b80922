/-!
# Byte strings

Documents, payloads and names in transit are lists of bytes. A byte string is
text exactly when it is valid UTF-8, and text determines its bytes.
-/

namespace ConfigRegistry

/-- A byte string. -/
abbrev Bytes := List UInt8

namespace Bytes

def ofText (s : String) : Bytes := s.toUTF8.data.toList

/-- The text a byte string encodes, if it is valid UTF-8. -/
def toText? (bs : Bytes) : Option String := String.fromUTF8? ⟨bs.toArray⟩

theorem toText?_ofText (s : String) : toText? (ofText s) = some s := by
  simp only [toText?, ofText, String.fromUTF8?, String.toUTF8_eq_toByteArray,
    Array.toArray_toList, dif_pos s.isValidUTF8]
  rfl

theorem ofText_of_toText? {bs : Bytes} {s : String} (h : toText? bs = some s) :
    ofText s = bs := by
  unfold toText? String.fromUTF8? at h
  split at h
  · obtain rfl := Option.some.inj h
    rfl
  · simp at h

theorem ofText_ofList (cs : List Char) :
    ofText (String.ofList cs) = cs.flatMap String.utf8EncodeChar := by
  unfold ofText
  rw [String.toUTF8_eq_toByteArray, String.toByteArray_ofList, List.utf8Encode]
  simp

theorem ofText_injective {s t : String} (h : ofText s = ofText t) : s = t := by
  have hs := toText?_ofText s
  rw [h, toText?_ofText t] at hs
  exact (Option.some.inj hs).symm

/-- The lower case of an ASCII letter; other bytes stay as they are. -/
def lower (b : UInt8) : UInt8 := if 0x41 ≤ b ∧ b ≤ 0x5A then b + 0x20 else b

/-- The digit that stands for a half byte, in lower case. -/
def hexDigit (n : Nat) : UInt8 :=
  if n < 10 then UInt8.ofNat (48 + n) else UInt8.ofNat (87 + n)

/-- The half byte a digit of either case stands for. -/
def hexValue? (b : UInt8) : Option Nat :=
  let n := b.toNat
  if 48 ≤ n ∧ n ≤ 57 then some (n - 48)
  else if 97 ≤ n ∧ n ≤ 102 then some (n - 87)
  else if 65 ≤ n ∧ n ≤ 70 then some (n - 55)
  else none

theorem hexValue?_hexDigit {n : Nat} (h : n < 16) : hexValue? (hexDigit n) = some n := by
  have : ∀ m : Fin 16, hexValue? (hexDigit m.val) = some m.val := by decide
  exact this ⟨n, h⟩

/-- Two digits per byte, the high half first. -/
def toHex : Bytes → Bytes
  | [] => []
  | b :: rest => hexDigit (b.toNat / 16) :: hexDigit (b.toNat % 16) :: toHex rest

/-- Reads pairs of digits of either case; fails on an odd digit or another character. -/
def ofHex? : Bytes → Option Bytes
  | [] => some []
  | [_] => none
  | hi :: lo :: rest => do
    let h ← hexValue? hi
    let l ← hexValue? lo
    let bytes ← ofHex? rest
    return UInt8.ofNat (16 * h + l) :: bytes

theorem ofHex?_toHex (bs : Bytes) : ofHex? (toHex bs) = some bs := by
  induction bs with
  | nil => rfl
  | cons b rest ih =>
    have hb : b.toNat < 256 := b.toNat_lt_size
    have hhi : b.toNat / 16 < 16 := by omega
    have hlo : b.toNat % 16 < 16 := by omega
    have hsum : 16 * (b.toNat / 16) + b.toNat % 16 = b.toNat := by omega
    rw [toHex, ofHex?, hexValue?_hexDigit hhi, hexValue?_hexDigit hlo, ih]
    show some (UInt8.ofNat _ :: rest) = _
    rw [hsum, UInt8.ofNat_toNat]

end Bytes

end ConfigRegistry
