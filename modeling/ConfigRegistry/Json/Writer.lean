import ConfigRegistry.Decimal
import ConfigRegistry.Json.Value

/-!
# Writing JSON

No spaces, members in order. In strings only the quote, the backslash and the
control characters below U+0020 are escaped. A double is written with the fewest
digits that read back.
-/

namespace ConfigRegistry.Json

/-- The bytes that stand for one byte inside a string literal. -/
def escape (b : UInt8) : Bytes :=
  if b = 0x22 then [0x5C, 0x22]
  else if b = 0x5C then [0x5C, 0x5C]
  else if b = 0x08 then [0x5C, 0x62]
  else if b = 0x09 then [0x5C, 0x74]
  else if b = 0x0A then [0x5C, 0x6E]
  else if b = 0x0C then [0x5C, 0x66]
  else if b = 0x0D then [0x5C, 0x72]
  else if b < 0x20 then
    [0x5C, 0x75, 0x30, 0x30, Bytes.hexDigit (b.toNat / 16), Bytes.hexDigit (b.toNat % 16)]
  else [b]

/-- A string literal. -/
def writeString (s : String) : Bytes := 0x22 :: ((Bytes.ofText s).flatMap escape ++ [0x22])

def zeros (n : Nat) : Bytes := List.replicate n 0x30

/-- How a double is laid out: positional while the point falls within sixteen digits and at
most four zeros follow it, else with a signed exponent. -/
def layout (s : Binary64.Shortest) : Bytes :=
  let d := Decimal.digits s.digits
  let point : Int := d.length + s.exponent
  if 0 ≤ s.exponent ∧ point ≤ 16 then
    d ++ zeros s.exponent.toNat ++ [0x2E, 0x30]
  else if 0 < point ∧ point ≤ 16 then
    d.take point.toNat ++ 0x2E :: d.drop point.toNat
  else if -5 < point ∧ point ≤ 0 then
    0x30 :: 0x2E :: (zeros (-point).toNat ++ d)
  else
    let e := point - 1
    let sign : UInt8 := if 0 ≤ e then 0x2B else 0x2D
    let mantissa := if d.length ≤ 1 then d else d.take 1 ++ 0x2E :: d.drop 1
    mantissa ++ 0x65 :: sign :: Decimal.digits e.natAbs

/-- A finite double. -/
def writeReal (x : Binary64) : Bytes :=
  (if x.isNegative then [0x2D] else []) ++
    if x.isZero then [0x30, 0x2E, 0x30] else layout (Binary64.shortest x.magnitude)

def writeNumber : Number → Bytes
  | .natural n => Decimal.digits n.toNat
  | .negative n => 0x2D :: Decimal.digits (n.val + 1)
  | .real x => writeReal x

mutual

/-- The text of a value. -/
def Value.write : Value → Bytes
  | .null => [0x6E, 0x75, 0x6C, 0x6C]
  | .bool true => [0x74, 0x72, 0x75, 0x65]
  | .bool false => [0x66, 0x61, 0x6C, 0x73, 0x65]
  | .number n => writeNumber n
  | .string s => writeString s
  | .array [] => [0x5B, 0x5D]
  | .array (v :: rest) => 0x5B :: (v.write ++ writeMoreItems rest)
  | .object [] => [0x7B, 0x7D]
  | .object ((k, v) :: rest) => 0x7B :: (writeString k ++ 0x3A :: (v.write ++ writeMoreMembers rest))

/-- Further items, each behind a comma, and the closing bracket. -/
def writeMoreItems : List Value → Bytes
  | [] => [0x5D]
  | v :: rest => 0x2C :: (v.write ++ writeMoreItems rest)

/-- Further members, each behind a comma, and the closing brace. -/
def writeMoreMembers : List (String × Value) → Bytes
  | [] => [0x7D]
  | (k, v) :: rest => 0x2C :: (writeString k ++ 0x3A :: (v.write ++ writeMoreMembers rest))

end

end ConfigRegistry.Json
