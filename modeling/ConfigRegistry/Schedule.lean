/-!
# Periodic work

Work is due at time zero and then once per period. Work that starts more than a
short grace late moves the next due time to the next multiple of the period, so
that missed runs are dropped. Cancellation is looked at before every run and never
interrupts one. A run that fails is put in the log, and the next one tries again.
-/

namespace ConfigRegistry.Schedule

/-- How many milliseconds late a run may start without losing others. -/
def grace : Nat := 5

/-- The due time after a run that was due at `due` and starts at `now`. -/
def next (period due now : Nat) : Nat :=
  if due + grace < now then now + period - (now - due) % period else due + period

/-- A run of the work: how long it takes, and its error if it fails. -/
structure Run where
  length : Nat
  error : Option String
  deriving DecidableEq, Inhabited, Repr

/-- What came of periodic work. -/
structure Trace where
  /-- When the runs started. -/
  starts : List Nat
  /-- The errors of the runs that failed, which only go to the log. -/
  errors : List String
  /-- When the work ended for good. -/
  stopped : Nat
  deriving DecidableEq, Repr

/-- Makes the runs from the `n`-th one on, which is due at `due`, until they are cancelled; at `now`
the one before it is over. The budget bounds the number of runs. -/
def runs (period cancel : Nat) (work : Nat → Run) : Nat → Nat → Nat → Nat → Trace
  | 0, _, _, now => ⟨[], [], now⟩
  | budget + 1, n, due, now =>
    let start := max now due
    if cancel ≤ now then ⟨[], [], now⟩
    else if cancel ≤ start then ⟨[], [], cancel⟩
    else
      let rest := runs period cancel work budget (n + 1) (next period due start)
        (start + (work n).length)
      ⟨start :: rest.starts, (work n).error.toList ++ rest.errors, rest.stopped⟩

/-- Periodic work from time zero; `none` without a period. -/
def trace? (period cancel : Nat) (work : Nat → Run) : Option Trace :=
  if period = 0 then none else some (runs period cancel work (cancel + 1) 0 0 0)

end ConfigRegistry.Schedule
