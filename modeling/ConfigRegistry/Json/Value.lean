import ConfigRegistry.Bytes
import ConfigRegistry.Binary64

/-!
# JSON values

Numbers are split by what a 64-bit integer can hold: everything else is a double.
Members of an object are kept in order; free-form documents keep them sorted, one
per key.
-/

namespace ConfigRegistry.Json

/-- A number: a natural number, the negative number `-(n + 1)`, or a double. -/
inductive Number where
  | natural (n : UInt64)
  | negative (n : Fin 0x8000000000000000)
  | real (x : Binary64)
  deriving DecidableEq, Inhabited

/-- A JSON value. -/
inductive Value where
  | null
  | bool (b : Bool)
  | number (n : Number)
  | string (s : String)
  | array (items : List Value)
  | object (members : List (String × Value))
  deriving Inhabited

namespace Value

def natural (n : UInt64) : Value := .number (.natural n)

/-- A size that fits 64 bits as a value. -/
def size (n : Nat) : Value := .number (.natural n.toUInt64)

/-- Puts a member into members sorted by key, replacing one of the same key. -/
def putMember (key : String) (v : Value) : List (String × Value) → List (String × Value)
  | [] => [(key, v)]
  | (k, w) :: rest =>
    if key < k then (key, v) :: (k, w) :: rest
    else if key = k then (key, v) :: rest
    else (k, w) :: putMember key v rest

/-- The value of the last member with a key. -/
def member? (key : String) : Value → Option Value
  | .object members => (members.reverse.find? (·.1 == key)).map (·.2)
  | _ => none

def text? : Value → Option String
  | .string s => some s
  | _ => none

def natural? : Value → Option UInt64
  | .number (.natural n) => some n
  | _ => none

def bool? : Value → Option Bool
  | .bool b => some b
  | _ => none

def array? : Value → Option (List Value)
  | .array items => some items
  | _ => none

end Value

end ConfigRegistry.Json
