/-!
# Text without control sequences

A stream that is no terminal is sent a text without control characters and control
sequences; white space stays. A sequence starts with an escape character and goes on
as its next character says. White space inside a sequence is shown, and the text
goes on with it.
-/

namespace ConfigRegistry.Text

/-- Where a control sequence stands. -/
inductive Control where
  /-- There is none. -/
  | ground
  /-- Behind the escape character. -/
  | escape
  /-- Behind the escape character and a mark. -/
  | marked
  /-- Behind the bracket that announces parameters. -/
  | parameters
  /-- In a string that a bell may end. -/
  | bell
  /-- In a string that only another control sequence ends. -/
  | string
  deriving DecidableEq, Repr

/-- Whether a character is kept outside of control sequences. -/
def isShown (c : Char) : Bool :=
  (0x20 ≤ c.toNat && c.toNat ≠ 0x7F) || c = '\t' || c = '\n' || c = '\x0C' || c = '\r'

/-- Whether a character ends whatever control sequence it stands in. -/
def isAbort (c : Char) : Bool := c.toNat = 0x18 || c.toNat = 0x1A

/-- Where a control sequence stands behind a character. -/
def Control.next (s : Control) (c : Char) : Control :=
  let n := c.toNat
  if isAbort c then .ground
  else if n = 0x1B then .escape
  else match s with
    | .ground => .ground
    | .escape =>
      if n < 0x20 || 0x7E < n then .escape
      else if n < 0x30 then .marked
      else if c = '[' then .parameters
      else if c = ']' then .bell
      else if c = 'P' || c = 'X' || c = '^' || c = '_' then .string
      else .ground
    | .marked => if 0x30 ≤ n && n ≤ 0x7E then .ground else .marked
    | .parameters => if 0x40 ≤ n && n ≤ 0x7E then .ground else .parameters
    | .bell => if n = 0x07 then .ground else .bell
    | .string => .string

/-- Whether a character inside a control sequence is kept: white space is, except in strings. -/
def Control.shows (s : Control) (c : Char) : Bool :=
  isShown c && match s with
    | .ground => true
    | .bell | .string => false
    | _ => c.toNat < 0x20

/-- The characters that are kept; the flag says whether the last one was. -/
def plainChars : Bool → Control → List Char → List Char
  | _, _, [] => []
  | shown, s, c :: rest =>
    if shown && isShown c then c :: plainChars true (if 0x80 ≤ c.toNat then .ground else s) rest
    else if s.shows c then c :: plainChars true s rest
    else plainChars false (s.next c) rest

/-- A text without control characters and control sequences. -/
def plain (text : String) : String := String.ofList (plainChars true .ground text.toList)

end ConfigRegistry.Text
