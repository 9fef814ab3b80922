import ConfigRegistry.Toml.Number

/-!
# Dates and times

A date, a time of day, or a date with a time of day and perhaps a distance from
universal time. A day must be in its month; a minute may have a leap second.
-/

namespace ConfigRegistry.Toml

/-- Reads a number of the given count of digits that lies between two bounds. -/
def readField (count low high : Nat) : Reader Nat := fun cs =>
  let digits := cs.take count
  if digits.length = count ∧ digits.all (isDigitOf 10) then
    let n := ofDigits 10 digits
    if low ≤ n ∧ n ≤ high then some (n, cs.drop count) else none
  else none

/-- Drops one character. -/
def readMark (c : Char) : List Char → Option (List Char)
  | [] => none
  | d :: rest => if d = c then some rest else none

/-- Whether a year has a day more. -/
def isLeapYear (y : Nat) : Bool := y % 4 = 0 && (y % 100 ≠ 0 || y % 400 = 0)

def daysOf (year month : Nat) : Nat :=
  if month = 2 then (if isLeapYear year then 29 else 28)
  else if month = 4 ∨ month = 6 ∨ month = 9 ∨ month = 11 then 30
  else 31

/-- Drops a date. -/
def skipDate (cs : List Char) : Option (List Char) := do
  let (year, cs) ← readField 4 0 9999 cs
  let cs ← readMark '-' cs
  let (month, cs) ← readField 2 1 12 cs
  let cs ← readMark '-' cs
  let (_, cs) ← readField 2 1 (daysOf year month) cs
  return cs

/-- Drops a fraction of a second. -/
def skipFraction (cs : List Char) : Option (List Char) :=
  match cs with
  | '.' :: rest =>
    if (rest.head?.map (isDigitOf 10)).getD false then some (rest.dropWhile (isDigitOf 10))
    else some cs
  | _ => some cs

/-- Drops a time of day. -/
def skipClock (cs : List Char) : Option (List Char) := do
  let (_, cs) ← readField 2 0 23 cs
  let cs ← readMark ':' cs
  let (_, cs) ← readField 2 0 59 cs
  let cs ← readMark ':' cs
  let (_, cs) ← readField 2 0 60 cs
  skipFraction cs

/-- Drops a distance from universal time. -/
def skipOffset (cs : List Char) : Option (List Char) :=
  match cs with
  | [] => none
  | c :: rest =>
    if c = 'Z' || c = 'z' then some rest
    else if c = '+' || c = '-' then do
      let (_, cs) ← readField 2 0 23 rest
      let cs ← readMark ':' cs
      let (_, cs) ← readField 2 0 59 cs
      return cs
    else none

/-- Drops a time of day behind a date, if there is one, and the distance behind it. -/
def skipClockBehindDate (cs : List Char) : List Char :=
  match cs with
  | [] => []
  | c :: rest =>
    if c = 'T' || c = 't' || c = ' ' then
      match skipClock rest with
      | none => cs
      | some rest => (skipOffset rest).getD rest
    else cs

/-- Drops a date or a time of day. -/
def skipMoment (cs : List Char) : Option (List Char) :=
  match skipDate cs with
  | some rest => some (skipClockBehindDate rest)
  | none => skipClock cs

/-- Reads a date or a time of day. -/
def readMoment : Reader Value := fun cs =>
  (skipMoment cs).map fun rest => (.moment (cs.take (cs.length - rest.length)), rest)

end ConfigRegistry.Toml
