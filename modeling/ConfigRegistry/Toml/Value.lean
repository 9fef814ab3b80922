/-!
# TOML values

A document is a table. A table remembers how it came to be, which decides what may
still be added to it.
-/

namespace ConfigRegistry.Toml

/-- How a table came to be. -/
inductive Origin where
  /-- A header names it. -/
  | header
  /-- A header passes it on the way to another table. -/
  | passed
  /-- A key of several parts passes it. -/
  | dotted
  /-- It is written in braces. -/
  | braces
  deriving DecidableEq, Repr

/-- A TOML value. -/
inductive Value where
  | string (s : String)
  | integer (n : Int)
  /-- A number with a fraction or an exponent, infinity, or no number, as written. -/
  | real (spelling : List Char)
  | boolean (b : Bool)
  /-- A date, a time of day, or both, as written. -/
  | moment (spelling : List Char)
  | array (items : List Value)
  | table (origin : Origin) (members : List (String × Value))
  /-- The tables that headers in double brackets name, in order. -/
  | tables (rows : List (List (String × Value)))
  deriving Inhabited

/-- The members of a table in the order they were added, one per key. -/
abbrev Members := List (String × Value)

def lookup (key : String) : Members → Option Value
  | [] => none
  | (k, v) :: rest => if k = key then some v else lookup key rest

def replace (key : String) (v : Value) : Members → Members
  | [] => []
  | (k, w) :: rest => if k = key then (k, v) :: rest else (k, w) :: replace key v rest

/-- The members without one of them. -/
def remove (key : String) (ms : Members) : Members := ms.filter (·.1 ≠ key)

end ConfigRegistry.Toml
