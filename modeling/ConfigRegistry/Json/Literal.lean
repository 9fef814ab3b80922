import ConfigRegistry.Decimal
import ConfigRegistry.Json.Value

/-!
# Reading literals

Strings, numbers and the three words of JSON, read from the front of a byte
string. A failure says whether the text ended early, is not JSON, or is JSON of
another kind than was asked for.
-/

namespace ConfigRegistry.Json

/-- Why a text does not decode. -/
inductive Fault where
  /-- The text is not JSON. -/
  | malformed
  /-- The text is JSON of the wrong shape. -/
  | mismatch
  /-- The text ends early. -/
  | ended
  deriving DecidableEq, Repr

/-- Reads a value from the front of a text; the rest of the text follows it. -/
abbrev Reader (α : Type) := Bytes → Except Fault (α × Bytes)

/-- Drops spaces, tabs and line ends. -/
def skipBlanks : Bytes → Bytes
  | [] => []
  | b :: rest =>
    if b = 0x20 || b = 0x0A || b = 0x09 || b = 0x0D then skipBlanks rest else b :: rest

/-- Reads the remaining letters of a word. -/
def readWord : Bytes → Bytes → Except Fault Bytes
  | [], bs => .ok bs
  | _ :: _, [] => .error .ended
  | w :: ws, b :: rest => if w = b then readWord ws rest else .error .malformed

/-- The letters of `null` behind its first. -/
def nullTail : Bytes := [0x75, 0x6C, 0x6C]
/-- The letters of `true` behind its first. -/
def trueTail : Bytes := [0x72, 0x75, 0x65]
/-- The letters of `false` behind its first. -/
def falseTail : Bytes := [0x61, 0x6C, 0x73, 0x65]

/-! ## Strings -/

/-- What a string literal is read for. -/
inductive Purpose where
  /-- Its text: control characters and lone surrogates are refused. -/
  | text
  /-- Its bytes: control characters stand for themselves, lone surrogates are encoded as is. -/
  | bytes
  /-- Nothing: only its end is looked for. -/
  | nothing
  deriving DecidableEq

/-- Where the reader stands inside a literal. -/
inductive Mode where
  /-- Between characters. -/
  | plain
  /-- Behind a backslash, perhaps with a high surrogate held back. -/
  | escaped (held : Option Nat)
  /-- Behind `\u` with these digits seen, perhaps with a high surrogate held back. -/
  | digits (held : Option Nat) (seen : Bytes)
  /-- Behind a high surrogate. -/
  | surrogate (high : Nat)

/-- The UTF-8 scheme applied to any code point, surrogates included. -/
def encodePoint (n : Nat) : Bytes :=
  if n < 0x80 then [UInt8.ofNat n]
  else if n < 0x800 then [UInt8.ofNat (0xC0 + n / 64), UInt8.ofNat (0x80 + n % 64)]
  else if n < 0x10000 then
    [UInt8.ofNat (0xE0 + n / 4096), UInt8.ofNat (0x80 + n / 64 % 64), UInt8.ofNat (0x80 + n % 64)]
  else
    [UInt8.ofNat (0xF0 + n / 262144), UInt8.ofNat (0x80 + n / 4096 % 64),
      UInt8.ofNat (0x80 + n / 64 % 64), UInt8.ofNat (0x80 + n % 64)]

/-- The byte that a one-letter escape stands for. -/
def letterEscape? (b : UInt8) : Option UInt8 :=
  if b = 0x22 || b = 0x5C || b = 0x2F then some b
  else if b = 0x62 then some 0x08
  else if b = 0x66 then some 0x0C
  else if b = 0x6E then some 0x0A
  else if b = 0x72 then some 0x0D
  else if b = 0x74 then some 0x09
  else none

/-- The number that hexadecimal digits stand for. -/
def hexNumber? (bs : Bytes) : Option Nat :=
  bs.foldl (fun n b => do return 16 * (← n) + (← Bytes.hexValue? b)) (some 0)

/-- Pushes a code point onto bytes read so far, the last byte first. -/
def pushPoint (n : Nat) (acc : Bytes) : Bytes := (encodePoint n).reverse ++ acc

/-- Pushes a surrogate that was held back. -/
def pushHeld : Option Nat → Bytes → Bytes
  | none, acc => acc
  | some n, acc => pushPoint n acc

def isHigh (n : Nat) : Bool := 0xD800 ≤ n && n ≤ 0xDBFF
def isLow (n : Nat) : Bool := 0xDC00 ≤ n && n ≤ 0xDFFF

/-- The mode and the bytes after the code unit `n` of a `\u` escape. -/
def acceptUnit (p : Purpose) (held : Option Nat) (n : Nat) (acc : Bytes) :
    Except Fault (Mode × Bytes) :=
  if p = .nothing then .ok (.plain, acc)
  else match held with
    | none =>
      if p = .text && isLow n then .error .malformed
      else if isHigh n then .ok (.surrogate n, acc)
      else .ok (.plain, pushPoint n acc)
    | some high =>
      if isLow n then .ok (.plain, pushPoint (0x10000 + (high - 0xD800) * 1024 + (n - 0xDC00)) acc)
      else if p = .text then .error .malformed
      else if isHigh n then .ok (.surrogate n, pushPoint high acc)
      else .ok (.plain, pushPoint n (pushPoint high acc))

/-- Reads a literal up to its closing quote. -/
def readLiteral (p : Purpose) : Mode → Bytes → Bytes → Except Fault (Bytes × Bytes)
  | _, _, [] => .error .ended
  | .plain, acc, b :: rest =>
    if b = 0x22 then .ok (acc.reverse, rest)
    else if b = 0x5C then readLiteral p (.escaped none) acc rest
    else if b < 0x20 && p ≠ .bytes then .error .malformed
    else readLiteral p .plain (b :: acc) rest
  | .escaped held, acc, b :: rest =>
    if b = 0x75 then readLiteral p (.digits held []) acc rest
    else if held.isSome && p = .text then .error .malformed
    else match letterEscape? b with
      | none => .error .malformed
      | some c => readLiteral p .plain (c :: pushHeld held acc) rest
  | .digits held seen, acc, b :: rest =>
    if seen.length < 3 then readLiteral p (.digits held (seen ++ [b])) acc rest
    else match hexNumber? (seen ++ [b]) with
      | none => .error .malformed
      | some n => match acceptUnit p held n acc with
        | .error e => .error e
        | .ok (mode, acc) => readLiteral p mode acc rest
  | .surrogate high, acc, b :: rest =>
    if b = 0x5C then readLiteral p (.escaped (some high)) acc rest
    else if p = .text then .error .malformed
    else if b = 0x22 then .ok ((pushPoint high acc).reverse, rest)
    else readLiteral p .plain (b :: pushPoint high acc) rest

/-- Reads the text of a literal behind its opening quote. -/
def readText : Reader String := fun bs =>
  match readLiteral .text .plain [] bs with
  | .error e => .error e
  | .ok (content, rest) => match Bytes.toText? content with
    | none => .error .malformed
    | some s => .ok (s, rest)

/-! ## Numbers -/

/-- The largest 64-bit number. -/
def wordMax : Nat := UInt64.size - 1

/-- Absorbs digits into a number as long as it fits 64 bits: the number, how many digits were
absorbed, and the digits left over. -/
def absorb : Nat → Bytes → Nat × Nat × Bytes
  | n, [] => (n, 0, [])
  | n, b :: rest =>
    let m := 10 * n + Decimal.value b
    if wordMax < m then (n, 0, b :: rest)
    else
      let (k, count, left) := absorb m rest
      (k, count + 1, left)

/-- A double from a significand and a power of ten. -/
def realOf (negative : Bool) (n : Nat) (e : Int) : Except Fault Number :=
  match Binary64.scaleByPow10 (Binary64.ofNat n) e with
  | none => .error .malformed
  | some x => .ok (.real (if negative then x.neg else x))

/-- The largest exponent that is told from infinity. -/
def exponentMax : Nat := 0x7FFFFFFF

/-- Reads an exponent behind its letter, for a significand scaled by `10 ^ e`. -/
def readExponent (negative : Bool) (n : Nat) (e : Int) : Reader Number := fun bs =>
  let (down, bs) := match bs with
    | b :: rest => if b = 0x2B then (false, rest) else if b = 0x2D then (true, rest) else (false, bs)
    | [] => (false, bs)
  match bs with
  | [] => .error .ended
  | b :: _ =>
    if Decimal.isDigit b then
      let x := Decimal.ofDigits (bs.takeWhile Decimal.isDigit)
      let rest := bs.dropWhile Decimal.isDigit
      if exponentMax < x then
        if n ≠ 0 && !down then .error .malformed
        else .ok (.real (Binary64.ofMagnitude negative 0), rest)
      else (realOf negative n (if down then e - x else e + x)).map (·, rest)
    else .error .malformed

/-- Whether a text goes on with an exponent. -/
def startsExponent : Bytes → Bool
  | b :: _ => b = 0x65 || b = 0x45
  | [] => false

/-- Reads a fraction behind its point, for a significand scaled by `10 ^ e`. -/
def readFraction (negative : Bool) (n : Nat) (e : Int) : Reader Number := fun bs =>
  match bs with
  | [] => .error .ended
  | b :: _ =>
    if Decimal.isDigit b then
      let (m, count, _) := absorb n (bs.takeWhile Decimal.isDigit)
      let rest := bs.dropWhile Decimal.isDigit
      if startsExponent rest then readExponent negative m (e - count) (rest.drop 1)
      else (realOf negative m (e - count)).map (·, rest)
    else .error .malformed

/-- The number without fraction or exponent: an integer if 64 bits hold it. -/
def integerOf (negative : Bool) (n : Nat) : Number :=
  if negative then
    if h : 0 < n ∧ n ≤ 0x8000000000000000 then .negative ⟨n - 1, by omega⟩ else .real (Binary64.ofNat n).neg
  else .natural (UInt64.ofNat n)

/-- Reads a number behind its sign. -/
def readMagnitude (negative : Bool) : Reader Number := fun bs =>
  match bs with
  | [] => .error .ended
  | b :: tail =>
    if Decimal.isDigit b then
      if b = 0x30 && (tail.head?.map Decimal.isDigit).getD false then .error .malformed
      else
        let (n, _, left) := absorb 0 (bs.takeWhile Decimal.isDigit)
        let rest := bs.dropWhile Decimal.isDigit
        let e : Int := left.length
        match rest with
        | c :: more =>
          if c = 0x2E then readFraction negative n e more
          else if startsExponent rest then readExponent negative n e more
          else if left.isEmpty then .ok (integerOf negative n, rest)
          else (realOf negative n e).map (·, rest)
        | [] =>
          if left.isEmpty then .ok (integerOf negative n, rest)
          else (realOf negative n e).map (·, rest)
    else .error .malformed

def readNumber : Reader Number := fun bs =>
  match bs with
  | b :: rest => if b = 0x2D then readMagnitude true rest else readMagnitude false bs
  | [] => .error .ended

end ConfigRegistry.Json
