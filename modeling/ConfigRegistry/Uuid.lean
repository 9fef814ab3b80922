import ConfigRegistry.Bytes

/-!
# UUIDs

A UUID is sixteen bytes. It is written in lower case in groups of 8, 4, 4, 4 and
12 digits; four spellings are read, with digits of either case.
-/

namespace ConfigRegistry

/-- Sixteen bytes, ordered byte by byte. -/
structure Uuid where
  bytes : Vector UInt8 16
  deriving DecidableEq, Inhabited

namespace Uuid

/-- The UUID of a list of sixteen bytes. -/
def ofBytes? (bs : Bytes) : Option Uuid :=
  if h : bs.length = 16 then some ⟨⟨bs.toArray, by simpa using h⟩⟩ else none

def toBytes (u : Uuid) : Bytes := u.bytes.toList

theorem length_toBytes (u : Uuid) : u.toBytes.length = 16 := by simp [toBytes]

theorem ofBytes?_toBytes (u : Uuid) : ofBytes? u.toBytes = some u := by
  obtain ⟨⟨a, h⟩⟩ := u
  simp [ofBytes?, toBytes, Vector.toList, h]

def compare (u v : Uuid) : Ordering := compareLex u.toBytes v.toBytes
where
  compareLex : Bytes → Bytes → Ordering
    | [], [] => .eq
    | [], _ => .lt
    | _, [] => .gt
    | a :: as, b :: bs => (Ord.compare a b).then (compareLex as bs)

instance : Ord Uuid := ⟨compare⟩

/-- Thirty-two digits without hyphens. -/
def digits (u : Uuid) : Bytes := Bytes.toHex u.toBytes

def hyphen : UInt8 := 45

/-- The hyphenated spelling: 8, 4, 4, 4 and 12 digits. -/
def hyphenated (u : Uuid) : Bytes :=
  let d := u.digits
  d.take 8 ++ hyphen :: ((d.drop 8).take 4 ++ hyphen :: ((d.drop 12).take 4 ++
    hyphen :: ((d.drop 16).take 4 ++ hyphen :: d.drop 20)))

/-- Text of the bytes of a spelling. -/
def text (u : Uuid) : String := String.ofList (u.hyphenated.map fun b => Char.ofNat b.toNat)

/-- Text of the spelling without hyphens. -/
def simpleText (u : Uuid) : String := String.ofList (u.digits.map fun b => Char.ofNat b.toNat)

/-- Reads thirty-two digits. -/
def ofDigits? (bs : Bytes) : Option Uuid := (Bytes.ofHex? bs).bind ofBytes?

/-- Reads the hyphenated spelling. -/
def ofHyphenated? (bs : Bytes) : Option Uuid :=
  if bs.length = 36 ∧ bs[8]? = some hyphen ∧ bs[13]? = some hyphen ∧ bs[18]? = some hyphen ∧
      bs[23]? = some hyphen then
    ofDigits? (bs.take 8 ++ (bs.drop 9).take 4 ++ (bs.drop 14).take 4 ++ (bs.drop 19).take 4 ++
      bs.drop 24)
  else none

/-- The name that may stand in front of the hyphenated spelling, in letters of either case. -/
def urnName : Bytes := Bytes.ofText "urn:uuid:"

/-- Reads any of the four spellings: digits alone, hyphenated, in braces, or as a URN. -/
def ofSpelling? (bs : Bytes) : Option Uuid :=
  if bs.length = 32 then ofDigits? bs
  else if bs.length = 36 then ofHyphenated? bs
  else if bs.length = 38 ∧ bs.head? = some 0x7B ∧ bs.getLast? = some 0x7D then
    ofHyphenated? ((bs.drop 1).take 36)
  else if bs.length = 45 ∧ (bs.take 9).map Bytes.lower = urnName then ofHyphenated? (bs.drop 9)
  else none

/-- Reads a text in any of the four spellings. -/
def parse? (s : String) : Option Uuid := ofSpelling? (Bytes.ofText s)

end Uuid

end ConfigRegistry
