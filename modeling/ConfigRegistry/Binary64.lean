/-!
# Binary floating-point numbers of 64 bits

A double is its bit pattern. Operations decode the pattern into a significand and
a power of two, compute exactly in natural numbers, and round the exact quotient
to the nearest double, an exact half to the even neighbour.
-/

namespace ConfigRegistry

/-- A double, given by its bits. -/
structure Binary64 where
  bits : UInt64
  deriving DecidableEq, Inhabited

namespace Binary64

/-- The pattern of infinity, and the bound of all finite magnitudes. -/
def infinityBits : Nat := 0x7FF0000000000000

/-- The pattern without its sign. -/
def magnitude (x : Binary64) : Nat := x.bits.toNat % 0x8000000000000000

/-- Whether the sign bit is set. -/
def isNegative (x : Binary64) : Bool := 0x8000000000000000 ≤ x.bits.toNat

/-- A double of the given magnitude and sign. -/
def ofMagnitude (negative : Bool) (m : Nat) : Binary64 :=
  ⟨UInt64.ofNat (if negative then 0x8000000000000000 + m else m)⟩

/-- Positive zero. -/
def zero : Binary64 := ⟨0⟩

def isZero (x : Binary64) : Bool := x.magnitude == 0

def isInfinite (x : Binary64) : Bool := x.magnitude == infinityBits

/-- The double with the other sign. -/
def neg (x : Binary64) : Binary64 := ofMagnitude (!x.isNegative) x.magnitude

/-- The leading bit of a significand of full length. -/
def leading : Nat := 0x10000000000000

/-- The significand of a magnitude. -/
def significand (m : Nat) : Nat := if m < leading then m else leading + m % leading

/-- The exponent of a magnitude, raised by 1074 so that it is never negative. -/
def scale (m : Nat) : Nat := if m < leading then 0 else m / leading - 1

/-- The nearest natural number to a quotient; a half goes to the even neighbour. -/
def roundDiv (num den : Nat) : Nat :=
  let q := num / den
  let r := 2 * (num % den)
  if r < den then q else if den < r then q + 1 else if q % 2 = 0 then q else q + 1

/-- The power of two, possibly negative, just below or at a positive quotient. -/
def log2Ratio (num den : Nat) : Int :=
  let l : Int := (num.log2 : Int) - (den.log2 : Int)
  let fits := if 0 ≤ l then den <<< l.toNat ≤ num else den ≤ num <<< (-l).toNat
  if fits then l else l - 1

/-- The magnitude nearest to a quotient, infinity beyond the largest finite one. -/
def roundRatio (num den : Nat) : Nat :=
  if num = 0 then 0
  else
    let q : Int := max (-1074) (log2Ratio num den - 52)
    let m := if 0 ≤ q then roundDiv num (den <<< q.toNat) else roundDiv (num <<< (-q).toNat) den
    min infinityBits ((q + 1074).toNat * leading + m)

/-- The double nearest to a natural number. -/
def ofNat (n : Nat) : Binary64 := ofMagnitude false (roundRatio n 1)

/-- The double nearest to a product, for finite factors. -/
def mul (x y : Binary64) : Binary64 :=
  let num := (significand x.magnitude * significand y.magnitude) <<< (scale x.magnitude + scale y.magnitude)
  ofMagnitude (x.isNegative != y.isNegative) (roundRatio num (1 <<< 2148))

/-- The double nearest to a quotient, for a finite numerator and a positive divisor. -/
def div (x y : Binary64) : Binary64 :=
  let num := significand x.magnitude <<< scale x.magnitude
  let den := significand y.magnitude <<< scale y.magnitude
  ofMagnitude (x.isNegative != y.isNegative) (roundRatio num den)

/-- A power of ten as a double. -/
def pow10 (n : Nat) : Binary64 := ofNat (Nat.pow 10 n)

/-- Multiplies a double by a power of ten in steps of doubles; `none` on overflow.
Powers beyond the largest double divide by `10 ^ 308` repeatedly. -/
def scaleByPow10 (x : Binary64) (e : Int) : Option Binary64 :=
  if e.natAbs ≤ 308 then
    if 0 ≤ e then
      let y := mul x (pow10 e.toNat)
      if y.isInfinite then none else some y
    else some (div x (pow10 (-e).toNat))
  else if x.isZero then some x
  else if 0 ≤ e then none
  else scaleByPow10 (div x (pow10 308)) (e + 308)
termination_by e.natAbs
decreasing_by omega

/-- Decimal digits of a positive double: a natural number and a power of ten. -/
structure Shortest where
  digits : Nat
  exponent : Int
  deriving DecidableEq

/-- A positive quotient with the ends of the interval that rounds to it. -/
structure Interval where
  low : Nat
  value : Nat
  high : Nat
  den : Nat
  closed : Bool

/-- The interval of reals nearest to a positive magnitude, over a common denominator. -/
def interval (m : Nat) : Interval :=
  let s := significand m
  let unit := 1 <<< scale m
  -- below a power of two the doubles lie half as far apart
  let below := if s = leading ∧ 0 < scale m then 1 else 2
  { low := (4 * s - below) * unit
    value := 4 * s * unit
    high := (4 * s + 2) * unit
    den := 4 <<< 1074
    closed := s % 2 = 0 }

/-- Whether `d * 10 ^ e` lies in an interval. -/
def Interval.contains (i : Interval) (d : Nat) (e : Int) : Bool :=
  let x := if 0 ≤ e then d * Nat.pow 10 e.toNat * i.den else d * i.den
  let f := if 0 ≤ e then 1 else Nat.pow 10 (-e).toNat
  if i.closed then decide (i.low * f ≤ x) && decide (x ≤ i.high * f)
  else decide (i.low * f < x) && decide (x < i.high * f)

/-- The neighbours of the value on the grid of multiples of `10 ^ e`, tested in turn. -/
def Interval.onGrid? (i : Interval) (e : Int) : Option Shortest :=
  let num := if 0 ≤ e then i.value else i.value * Nat.pow 10 (-e).toNat
  let den := if 0 ≤ e then i.den * Nat.pow 10 e.toNat else i.den
  let d := num / den
  let r := 2 * (num % den)
  let below := i.contains d e && d != 0
  let above := i.contains (d + 1) e
  if below && above then
    some ⟨if r < den then d else if den < r then d + 1 else if d % 2 = 0 then d else d + 1, e⟩
  else if below then some ⟨d, e⟩
  else if above then some ⟨d + 1, e⟩
  else none

/-- The first grid, from coarse to fine, that holds a point of the interval. -/
def Interval.search (i : Interval) : Nat → Int → Shortest
  | 0, e => ⟨0, e⟩
  | n + 1, e => (i.onGrid? e).getD (search i n (e - 1))

/-- Moves trailing zeros of the digits into the exponent. -/
def Shortest.strip : Nat → Shortest → Shortest
  | 0, s => s
  | n + 1, s => if s.digits % 10 = 0 ∧ s.digits ≠ 0 then strip n ⟨s.digits / 10, s.exponent + 1⟩ else s

/-- The power of ten at or just above a positive quotient. -/
def log10Above (num den : Nat) : Int :=
  let l : Int := log2Ratio num den
  -- an integer bound for `l * log10 2`, rounded up
  (l + 1) * 30103 / 100000 + 1

/-- The fewest digits that read back as a positive magnitude, the nearest of those. -/
def shortest (m : Nat) : Shortest :=
  let i := interval m
  (i.search 20 (log10Above i.value i.den)).strip 20

end Binary64

end ConfigRegistry
