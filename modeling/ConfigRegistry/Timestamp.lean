/-!
# Time stamps and durations

A time stamp counts seconds and nanoseconds since the epoch. It is normalised when
its nanoseconds stay below one second; subtraction normalises, and stops at the
epoch. A length of time that does not fit 64 bits of seconds is an overflow.
-/

namespace ConfigRegistry

def nanosPerSecond : Nat := 1000000000

/-- A point in time, ordered by seconds, then by nanoseconds. -/
structure Timestamp where
  secs : UInt64
  nanos : UInt32
  deriving DecidableEq, Inhabited, Repr

/-- A length of time of less than `2 ^ 64` seconds. -/
structure Duration where
  secs : UInt64
  nanos : UInt32
  nanos_lt : nanos.toNat < nanosPerSecond
  deriving DecidableEq

namespace Duration

/-- No time. -/
def zero : Duration := ⟨0, 0, by decide⟩

instance : Inhabited Duration := ⟨zero⟩

/-- Whole seconds. -/
def ofSecs (n : UInt64) : Duration := ⟨n, 0, by decide⟩

/-- A length in nanoseconds. -/
def toNanos (d : Duration) : Nat := d.secs.toNat * nanosPerSecond + d.nanos.toNat

/-- Carries whole seconds out of the nanoseconds; `none` when the seconds overflow. -/
def ofParts? (secs : UInt64) (nanos : UInt32) : Option Duration :=
  let total := secs.toNat + nanos.toNat / nanosPerSecond
  if total < UInt64.size then
    some ⟨UInt64.ofNat total, UInt32.ofNat (nanos.toNat % nanosPerSecond), by
      have h : nanos.toNat % nanosPerSecond < nanosPerSecond := Nat.mod_lt _ (by decide)
      rw [UInt32.toNat_ofNat_of_lt' (Nat.lt_trans h (by decide))]
      exact h⟩
  else none

/-- The difference, borrowing a second where the nanoseconds fall short; zero below zero. -/
def saturatingSub (a b : Duration) : Duration :=
  if h : a.nanos.toNat < b.nanos.toNat then
    if b.secs < a.secs then
      ⟨a.secs - b.secs - 1, UInt32.ofNat (a.nanos.toNat + nanosPerSecond - b.nanos.toNat), by
        have ha := a.nanos_lt
        have hb := b.nanos_lt
        have hs : nanosPerSecond = 1000000000 := rfl
        rw [UInt32.toNat_ofNat_of_lt' (by rw [UInt32.size]; omega)]
        omega⟩
    else zero
  else if a.secs < b.secs then zero
  else
    ⟨a.secs - b.secs, UInt32.ofNat (a.nanos.toNat - b.nanos.toNat), by
      have ha := a.nanos_lt
      have hs : nanosPerSecond = 1000000000 := rfl
      rw [UInt32.toNat_ofNat_of_lt' (by rw [UInt32.size]; omega)]
      omega⟩

/-- Whether one length exceeds another. -/
def longer (a b : Duration) : Bool := b.secs < a.secs || (a.secs == b.secs && b.nanos < a.nanos)

end Duration

namespace Timestamp

def epoch : Timestamp := ⟨0, 0⟩

/-- Seconds first, then nanoseconds, with no carry. -/
def compare (a b : Timestamp) : Ordering :=
  (Ord.compare a.secs b.secs).then (Ord.compare a.nanos b.nanos)

instance : Ord Timestamp := ⟨compare⟩

/-- Whether a time stamp precedes another. -/
def isBefore (a b : Timestamp) : Bool := a.compare b == .lt

/-- The later of two time stamps. -/
def max (a b : Timestamp) : Timestamp := if a.isBefore b then b else a

/-- The time since the epoch; `none` when a carry overflows. -/
def sinceEpoch? (t : Timestamp) : Option Duration := Duration.ofParts? t.secs t.nanos

/-- The time stamp a length of time after the epoch. -/
def ofDuration (d : Duration) : Timestamp := ⟨d.secs, d.nanos⟩

/-- Moves a time stamp back by an age, not beyond the epoch; `none` when a carry overflows. -/
def sub? (t : Timestamp) (age : Duration) : Option Timestamp :=
  t.sinceEpoch?.map fun since => ofDuration (since.saturatingSub age)

/-- The most seconds a clock can stand away from the epoch. -/
def clockMax : Nat := 0x7FFFFFFFFFFFFFFF

/-- The reading of a clock that stands a length of time after the epoch, or before it; a clock
before the epoch reads as the epoch, and one too far away does not exist. -/
def ofClock? (away : Duration) (before : Bool) : Option Timestamp :=
  if before then
    -- the earliest clock stands `2 ^ 63` whole seconds before the epoch
    if away.secs.toNat ≤ clockMax ∨ (away.secs.toNat = clockMax + 1 ∧ away.nanos = 0) then
      some epoch
    else none
  else if away.secs.toNat ≤ clockMax then some (ofDuration away)
  else none

end Timestamp

end ConfigRegistry
