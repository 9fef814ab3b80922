import ConfigRegistry.Decimal
import ConfigRegistry.Toml.Value

/-!
# Quoted strings

A string stands between double quotes, with escapes, or between single quotes,
without. Tripled quotes let it span lines. A string is written in the first of the
four styles, in the order basic, literal, basic over lines, literal over lines, that
needs no escape but that of a tab; if all do, a basic one is used, over lines if the
string holds any.
-/

namespace ConfigRegistry.Toml

/-- Reads a value from the front of a text; the rest of the text follows it. -/
abbrev Reader (α : Type) := List Char → Option (α × List Char)

/-- Whether a character is a space or a tab. -/
def isBlank (c : Char) : Bool := c = ' ' || c = '\t'

/-- Drops spaces and tabs. -/
def skipBlanks (cs : List Char) : List Char := cs.dropWhile isBlank

def isControl (c : Char) : Bool := c.toNat < 0x20 || c.toNat = 0x7F

/-- Whether a character may stand in a string or a comment as it is. -/
def isPlain (c : Char) : Bool := c = '\t' || !isControl c

def skipLineEnd : List Char → List Char
  | '\n' :: rest => rest
  | '\r' :: '\n' :: rest => rest
  | cs => cs

/-- Drops spaces, tabs and line ends. -/
def skipLines : List Char → List Char
  | [] => []
  | c :: rest =>
    if isBlank c || c = '\n' || (c = '\r' && rest.head? = some '\n') then skipLines rest
    else c :: rest

/-! ## Escapes -/

/-- The number that a hexadecimal digit of either case stands for. -/
def hexValue? (c : Char) : Option Nat :=
  if c.toNat < 0x80 then Bytes.hexValue? (UInt8.ofNat c.toNat) else none

/-- The number that hexadecimal digits stand for. -/
def hexNumber? (cs : List Char) : Option Nat :=
  cs.foldl (fun n c => do return 16 * (← n) + (← hexValue? c)) (some 0)

/-- Reads a code point of the given number of digits. -/
def readPoint (count : Nat) : Reader Char := fun cs =>
  if (cs.take count).length = count then
    (hexNumber? (cs.take count)).bind fun n =>
      if n.isValidChar then some (Char.ofNat n, cs.drop count) else none
  else none

/-- The character that an escape of one letter stands for. -/
def letterEscape? (c : Char) : Option Char :=
  match c with
  | 'b' => some '\x08'
  | 't' => some '\t'
  | 'n' => some '\n'
  | 'f' => some '\x0C'
  | 'r' => some '\r'
  | '"' => some '"'
  | '\\' => some '\\'
  | _ => none

/-- Reads an escape behind its backslash. -/
def readEscape : Reader Char
  | [] => none
  | c :: rest =>
    if c = 'u' then readPoint 4 rest
    else if c = 'U' then readPoint 8 rest
    else (letterEscape? c).map (·, rest)

/-! ## Reading -/

/-- Puts a character in front of what was read. -/
def push (c : Char) (r : Option (List Char × List Char)) : Option (List Char × List Char) :=
  r.map fun (s, rest) => (c :: s, rest)

/-- Reads a basic string behind its opening quote. -/
def readBasic : Nat → Reader (List Char)
  | 0, _ => none
  | _ + 1, [] => none
  | fuel + 1, c :: rest =>
    if c = '"' then some ([], rest)
    else if c = '\\' then
      (readEscape rest).bind fun (c, rest) => push c (readBasic fuel rest)
    else if isPlain c then push c (readBasic fuel rest)
    else none

/-- Reads a literal string behind its opening quote. -/
def readLiteral : Reader (List Char)
  | [] => none
  | c :: rest =>
    if c = '\'' then some ([], rest)
    else if isPlain c then push c (readLiteral rest)
    else none

/-- The end of a string over lines: three quotes, or four or five, of which the first ones belong
to the string. -/
def closing? (q : Char) : Reader (List Char) := fun cs =>
  if cs.take 3 = [q, q, q] then
    let extra := ((cs.drop 3).takeWhile (· = q)).take 2
    some (extra, cs.drop (3 + extra.length))
  else none

/-- What follows a line end behind a backslash: the string goes on with the next character that
is no blank and no line end. -/
def continuation? (cs : List Char) : Option (List Char) :=
  match skipBlanks cs with
  | '\n' :: rest => some (skipLines rest)
  | '\r' :: '\n' :: rest => some (skipLines rest)
  | _ => none

/-- Reads a string over lines behind its opening quotes and the line end that may follow them.
Line ends are read as line feeds. -/
def readOverLines (q : Char) (escapes : Bool) : Nat → Reader (List Char)
  | 0, _ => none
  | fuel + 1, cs =>
    match closing? q cs with
    | some done => some done
    | none =>
      match cs with
      | [] => none
      | c :: rest =>
        if c = '\\' && escapes then
          match continuation? rest with
          | some rest => readOverLines q escapes fuel rest
          | none => (readEscape rest).bind fun (c, rest) => push c (readOverLines q escapes fuel rest)
        else if c = '\r' then
          match rest with
          | '\n' :: rest => push '\n' (readOverLines q escapes fuel rest)
          | _ => none
        else if c = '\n' || isPlain c then push c (readOverLines q escapes fuel rest)
        else none

/-- Reads a string over lines behind its opening quotes. -/
def readTripled (q : Char) (escapes : Bool) : Reader (List Char) := fun cs =>
  readOverLines q escapes (cs.length + 1) (skipLineEnd cs)

/-- Reads a string on one line. -/
def readSingle : Reader (List Char)
  | '"' :: rest => readBasic (rest.length + 1) rest
  | '\'' :: rest => readLiteral rest
  | _ => none

def readString : Reader (List Char) := fun cs =>
  if cs.take 3 = ['"', '"', '"'] then readTripled '"' true (cs.drop 3)
  else if cs.take 3 = ['\'', '\'', '\''] then readTripled '\'' false (cs.drop 3)
  else readSingle cs

/-! ## Writing -/

/-- How a string is quoted. -/
inductive Style where
  | basic
  | literal
  | basicOverLines
  | literalOverLines
  deriving DecidableEq, Repr

/-- Whether a string holds a character that only an escape can stand for. -/
def needsEscape (s : List Char) : Bool := s.any fun c => isControl c && c ≠ '\t' && c ≠ '\n'

/-- The most quotes in a row, `run` of them just in front of the text. -/
def longestRun (q : Char) : Nat → List Char → Nat
  | run, [] => run
  | run, c :: rest => if c = q then longestRun q (run + 1) rest else max run (longestRun q 0 rest)

/-- Whether a string holds more equal quotes in a row than are counted, which is 255. -/
def hasLongRun (s : List Char) : Bool := 255 < longestRun '"' 0 s || 255 < longestRun '\'' 0 s

/-- The style a string is written in. -/
def style (s : List Char) : Style :=
  let lines := s.contains '\n'
  if !needsEscape s && !s.contains '\\' && !s.contains '"' && !lines then .basic
  else if !needsEscape s && !s.contains '\'' && !lines then .literal
  else if !needsEscape s && !s.contains '\\' && longestRun '"' 0 s ≤ 2 then .basicOverLines
  else if !needsEscape s && longestRun '\'' 0 s ≤ 2 then .literalOverLines
  else if lines then .basicOverLines
  else .basic

/-- A hexadecimal digit in upper case. -/
def upperHexDigit (n : Nat) : Char := if n < 10 then Char.ofNat (48 + n) else Char.ofNat (55 + n)

/-- A character between double quotes. -/
def escape (c : Char) : List Char :=
  match c with
  | '\x08' => ['\\', 'b']
  | '\t' => ['\\', 't']
  | '\n' => ['\\', 'n']
  | '\x0C' => ['\\', 'f']
  | '\r' => ['\\', 'r']
  | '"' => ['\\', '"']
  | '\\' => ['\\', '\\']
  | c =>
    if isControl c then
      ['\\', 'u', '0', '0', upperHexDigit (c.toNat / 16), upperHexDigit (c.toNat % 16)]
    else [c]

/-- A text between tripled double quotes, behind `run` quotes of it: line feeds stand as they are,
and every third quote in a row is escaped. -/
def escapeOverLines : Nat → List Char → List Char
  | _, [] => []
  | run, c :: rest =>
    if c = '"' then
      if run < 2 then c :: escapeOverLines (run + 1) rest else escape c ++ escapeOverLines 0 rest
    else if c = '\n' then c :: escapeOverLines 0 rest
    else escape c ++ escapeOverLines 0 rest

/-- The line feed that a string over lines starts with when it holds one itself. -/
def leadingLine (s : List Char) : List Char := if s.contains '\n' then ['\n'] else []

/-- A string in quotes. -/
def writeString (s : List Char) : List Char :=
  match style s with
  | .basic => '"' :: (s.flatMap escape ++ ['"'])
  | .literal => '\'' :: (s ++ ['\''])
  | .basicOverLines =>
    ['"', '"', '"'] ++ leadingLine s ++ escapeOverLines 0 s ++ ['"', '"', '"']
  | .literalOverLines => ['\'', '\'', '\''] ++ leadingLine s ++ s ++ ['\'', '\'', '\'']

end ConfigRegistry.Toml
