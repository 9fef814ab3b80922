import ConfigRegistry.Toml.Moment
import ConfigRegistry.Toml.Table

/-!
# Documents

A document is read line by line: members, headers, blank lines and comments. Arrays
and tables in braces may be nested 79 deep, and a key may have 79 parts.
-/

namespace ConfigRegistry.Toml

/-- How deep arrays and tables in braces may be nested, and how many parts a key may have. -/
def depthMax : Nat := 79

/-! ## Keys -/

/-- Whether a character may stand in a key without quotes. -/
def isBare (c : Char) : Bool := c.isAlphanum || c = '_' || c = '-'

def readPart : Reader String := fun cs =>
  match cs with
  | [] => none
  | c :: _ =>
    if c = '"' || c = '\'' then (readSingle cs).map fun (s, rest) => (String.ofList s, rest)
    else if isBare c then some (String.ofList (cs.takeWhile isBare), cs.dropWhile isBare)
    else none

/-- Reads a key of at most the given number of parts, and the blanks around it. -/
def readKey : Nat → Reader Key
  | 0, _ => none
  | parts + 1, cs =>
    (readPart (skipBlanks cs)).bind fun (part, rest) =>
      match skipBlanks rest with
      | '.' :: rest => (readKey parts rest).map fun (key, rest) =>
        ({ key with path := part :: key.path }, rest)
      | rest => some (⟨[], part⟩, rest)

/-! ## Values -/

/-- Drops blanks, line ends and comments; the flag says whether a comment has begun. -/
def skipSpace : Bool → List Char → List Char
  | _, [] => []
  | inComment, c :: rest =>
    if inComment && isPlain c then skipSpace true rest
    else if isBlank c || c = '\n' || (c = '\r' && rest.head? = some '\n') then skipSpace false rest
    else if c = '#' then skipSpace true rest
    else c :: rest

/-- Reads the items of an array behind its opening bracket. -/
def readItems (item : Reader Value) : Nat → Reader (List Value)
  | 0, _ => none
  | fuel + 1, cs =>
    match skipSpace false cs with
    | ']' :: rest => some ([], rest)
    | cs => (item cs).bind fun (v, rest) =>
      match skipSpace false rest with
      | ',' :: rest => (readItems item fuel rest).map fun (vs, rest) => (v :: vs, rest)
      | ']' :: rest => some ([v], rest)
      | _ => none

/-- Reads a key, the sign behind it, and its value, and the blanks around them. -/
def readMember (value : Reader Value) : Reader (Key × Value) := fun cs =>
  (readKey depthMax cs).bind fun (key, rest) =>
    match rest with
    | '=' :: rest => (value (skipBlanks rest)).map fun (v, rest) => ((key, v), skipBlanks rest)
    | _ => none

/-- Reads the members of a table in braces. -/
def readBraced (value : Reader Value) : Nat → Reader (List (Key × Value))
  | 0, _ => none
  | fuel + 1, cs =>
    (readMember value cs).bind fun (m, rest) =>
      match rest with
      | ',' :: rest => (readBraced value fuel rest).map fun (ms, rest) => (m :: ms, rest)
      | '}' :: rest => some ([m], rest)
      | _ => none

/-- Reads a table in braces behind its opening brace. -/
def readTable (value : Reader Value) : Reader Value := fun cs =>
  match skipBlanks cs with
  | '}' :: rest => some (.table .braces [], rest)
  | cs => (readBraced value (cs.length + 1) cs).bind fun (ms, rest) =>
    (addMembers [] ms).map fun ms => (.table .braces ms, rest)

/-- Reads a truth value or a special number. -/
def readWord : Reader Value := fun cs =>
  if cs.take 4 = ['t', 'r', 'u', 'e'] then some (.boolean true, cs.drop 4)
  else if cs.take 5 = ['f', 'a', 'l', 's', 'e'] then some (.boolean false, cs.drop 5)
  else readSpecial cs cs

/-- Reads a value without parts. -/
def readScalar : Reader Value := fun cs =>
  match cs with
  | [] => none
  | c :: _ =>
    if c = '"' || c = '\'' then
      (readString cs).map fun (s, rest) => (.string (String.ofList s), rest)
    else if c = '+' || c = '-' || isDigitOf 10 c then (readMoment cs).or (readNumber cs)
    else readWord cs

/-- Reads a value of at most the given depth. -/
def readValue : Nat → Reader Value
  | 0, cs => readScalar cs
  | depth + 1, cs =>
    match cs with
    | '[' :: rest =>
      (readItems (readValue depth) (rest.length + 1) rest).map fun (vs, rest) => (.array vs, rest)
    | '{' :: rest => readTable (readValue depth) rest
    | cs => readScalar cs

/-! ## Lines -/

/-- Drops the rest of a line that holds nothing more than a comment, and its end. -/
def endLine (cs : List Char) : Option (List Char) :=
  let cs := skipBlanks cs
  let cs := match cs with
    | '#' :: rest => rest.dropWhile isPlain
    | cs => cs
  match cs with
  | [] => some []
  | '\n' :: rest => some rest
  | '\r' :: '\n' :: rest => some rest
  | _ => none

/-- Reads a header or a member. -/
def readLine : Reader Line := fun cs =>
  match cs with
  | '[' :: '[' :: rest => (readKey depthMax rest).bind fun (key, rest) =>
    match rest with
    | ']' :: ']' :: rest => some (.row key, rest)
    | _ => none
  | '[' :: rest => (readKey depthMax rest).bind fun (key, rest) =>
    match rest with
    | ']' :: rest => some (.table key, rest)
    | _ => none
  | cs => (readMember (readValue depthMax) cs).map fun ((key, v), rest) => (.member key v, rest)

/-- Reads lines to the end of a text. -/
def readLines : Nat → List Char → Option (List Line)
  | 0, _ => none
  | fuel + 1, cs =>
    match skipBlanks cs with
    | [] => some []
    | cs =>
      match endLine cs with
      | some rest => readLines fuel rest
      | none => (readLine cs).bind fun (line, rest) =>
        (endLine rest).bind fun rest => (readLines fuel rest).map (line :: ·)

/-- Drops a byte order mark. -/
def skipMark : List Char → List Char
  | '\uFEFF' :: rest => rest
  | cs => cs

/-- Reads a document. -/
def read (cs : List Char) : Option Members :=
  let cs := skipMark cs
  (readLines (cs.length + 1) cs).bind ofLines

/-! ## Writing -/

/-- Why members are not written. -/
inductive WriteFault where
  /-- There is a value that has no text. -/
  | unwritable
  /-- There is a string with too many quotes in a row. -/
  | longRun
  deriving DecidableEq, Repr

/-- The text of a string, of a number, or of a truth value; others are not written. -/
def writeScalar? : Value → Option (List Char)
  | .string s => some (writeString s.toList)
  | .integer n =>
    if n < -0x8000000000000000 ∨ 0x8000000000000000 ≤ n then none
    else
      let digits := (Decimal.text n.natAbs).toList
      some (if n < 0 then '-' :: digits else digits)
  | .boolean b => some (if b then ['t', 'r', 'u', 'e'] else ['f', 'a', 'l', 's', 'e'])
  | _ => none

/-- The lines of members with bare keys, if all have a text. -/
def writeMembers? : Members → Option (List Char)
  | [] => some []
  | (key, v) :: rest => do
    let text ← writeScalar? v
    let more ← writeMembers? rest
    return key.toList ++ [' ', '=', ' '] ++ text ++ ['\n'] ++ more

/-- Whether a value is a string with too many quotes in a row. -/
def Value.hasLongRun : Value → Bool
  | .string s => Toml.hasLongRun s.toList
  | _ => false

/-- The document of members with bare keys, one a line. Whether all values have a text is looked at
before any quotes are. -/
def write (ms : Members) : Except WriteFault (List Char) :=
  match writeMembers? ms with
  | none => .error .unwritable
  | some text => if ms.any fun m => m.2.hasLongRun then .error .longRun else .ok text

end ConfigRegistry.Toml
