import ConfigRegistry.Decimal

/-!
# Backend addresses

A backend is reached at `host:port`: the port follows the last colon, is a number
from 1 to 65535, and the host is not empty.
-/

namespace ConfigRegistry.Address

/-- Cuts a text at the last occurrence of a character. -/
def splitLast? (c : Char) : List Char → Option (List Char × List Char)
  | [] => none
  | x :: rest =>
    match splitLast? c rest with
    | some (before, after) => some (x :: before, after)
    | none => if x = c then some ([], rest) else none

def port? (cs : List Char) : Option Nat := Decimal.spelled? 65536 cs

/-- Whether a text is an address. -/
def isValid (address : String) : Bool :=
  match splitLast? ':' address.toList with
  | none => false
  | some (host, port) => !host.isEmpty && ((port? port).map (· != 0)).getD false

end ConfigRegistry.Address
