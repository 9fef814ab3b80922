import ConfigRegistry.Binary64
import ConfigRegistry.Toml.Quoted

/-!
# Numbers

Integers have 64 bits and are written in four bases. Other numbers are doubles; one
that rounds to infinity is refused unless it is negative. An underscore may stand
between two digits.
-/

namespace ConfigRegistry.Toml

/-- The digits of a base below seventeen. -/
def isDigitOf (base : Nat) (c : Char) : Bool :=
  match hexValue? c with
  | none => false
  | some d => d < base

/-- The number that digits of a base stand for; underscores count for nothing. -/
def ofDigits (base : Nat) (cs : List Char) : Nat :=
  cs.foldl (fun n c => match hexValue? c with
    | none => n
    | some d => base * n + d) 0

/-- Whether a run starts and ends with a digit and holds no two underscores in a row. -/
def isSpaced : List Char → Bool
  | [] => false
  | [c] => c ≠ '_'
  | c :: d :: rest => c ≠ '_' && (if d = '_' then isSpaced rest else isSpaced (d :: rest))

/-- Reads digits of a base with underscores between them. -/
def readDigits (base : Nat) : Reader (List Char) := fun cs =>
  let belongs := fun c => isDigitOf base c || c = '_'
  let run := cs.takeWhile belongs
  if isSpaced run then some (run, cs.dropWhile belongs) else none

/-- Reads a sign: whether there is a minus. -/
def readSign : List Char → Bool × List Char
  | '+' :: rest => (false, rest)
  | '-' :: rest => (true, rest)
  | cs => (false, cs)

/-- An integer, if 64 bits hold it. -/
def integer? (n : Int) : Option Value :=
  if -0x8000000000000000 ≤ n ∧ n < 0x8000000000000000 then some (.integer n) else none

/-- The base that a letter behind a zero stands for. -/
def base? : Char → Option Nat
  | 'x' => some 16
  | 'o' => some 8
  | 'b' => some 2
  | _ => none

/-- Whether a run of digits has no needless zero in front. -/
def isCanonical (run : List Char) : Bool := run.head? ≠ some '0' || run.length = 1

/-- Whether `n * 10 ^ e` rounds to infinity. -/
def overflows (n : Nat) (e : Int) : Bool :=
  let top := (Decimal.digits n).length + e
  if n = 0 ∨ top < 308 then false
  else if 310 < top then true
  else
    let ratio := if 0 ≤ e then Binary64.roundRatio (n * Nat.pow 10 e.toNat) 1
      else Binary64.roundRatio n (Nat.pow 10 (-e).toNat)
    ratio = Binary64.infinityBits

/-- Reads a fraction with its point: its digits, or none. -/
def readFraction : Reader (List Char)
  | '.' :: rest => readDigits 10 rest
  | cs => some ([], cs)

/-- Reads an exponent with its letter: its sign and digits, or none. -/
def readExponent : Reader (Bool × List Char)
  | c :: rest =>
    if c = 'e' || c = 'E' then
      let (negative, rest) := readSign rest
      (readDigits 10 rest).map fun (ds, rest) => ((negative, ds), rest)
    else some ((false, []), c :: rest)
  | [] => some ((false, []), [])

def digitCount (run : List Char) : Nat := (run.filter (· ≠ '_')).length

/-- Reads a number in base ten behind its sign; `spelling` is the whole text. -/
def readDecimal (negative : Bool) (spelling : List Char) : Reader Value := fun cs =>
  (readDigits 10 cs).bind fun (whole, rest) =>
    if isCanonical whole then
      (readFraction rest).bind fun (fraction, rest) =>
        (readExponent rest).bind fun ((down, exponent), rest) =>
          if fraction = [] ∧ exponent = [] then
            let n : Int := ofDigits 10 whole
            (integer? (if negative then -n else n)).map (·, rest)
          else
            let e : Int := ofDigits 10 exponent
            let n := ofDigits 10 (whole ++ fraction)
            if !negative && overflows n ((if down then -e else e) - digitCount fraction) then none
            else some (.real (spelling.take (spelling.length - rest.length)), rest)
    else none

/-- Reads a word that stands for infinity or for no number; `spelling` is the whole text. -/
def readSpecial (spelling : List Char) : Reader Value := fun cs =>
  if cs.take 3 = ['i', 'n', 'f'] ∨ cs.take 3 = ['n', 'a', 'n'] then
    some (.real (spelling.take (spelling.length - (cs.drop 3).length)), cs.drop 3)
  else none

def readNumber : Reader Value := fun cs =>
  match cs with
  | '0' :: c :: rest =>
    match base? c with
    | some base => (readDigits base rest).bind fun (run, rest) =>
      (integer? (ofDigits base run)).map (·, rest)
    | none => readDecimal false cs cs
  | _ =>
    let (negative, rest) := readSign cs
    match readSpecial cs rest with
    | some done => some done
    | none => readDecimal negative cs rest

end ConfigRegistry.Toml
