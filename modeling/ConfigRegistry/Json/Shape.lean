import ConfigRegistry.Uuid
import ConfigRegistry.Json.Reader
import ConfigRegistry.Json.Writer

/-!
# Shapes

A shape says what a text must hold. Reading a text by a shape gives a value in the
normal form of the shape: records have all their fields in declared order, and
identifiers are spelled in lower case with hyphens.
-/

namespace ConfigRegistry.Json

/-- What a record does without a field. -/
inductive Presence where
  /-- The field must be there. -/
  | required
  /-- A missing member is null; a positional record must have it. -/
  | nullable
  /-- A missing field has this value. -/
  | defaulted (v : Value)

/-- What a text must hold. -/
inductive Shape where
  /-- A string. -/
  | text
  /-- A string that spells a UUID. -/
  | uuid
  /-- A natural number below `2 ^ bits`. -/
  | word (bits : Nat)
  /-- A truth value. -/
  | flag
  /-- Any value. -/
  | any
  /-- Bytes: a list of numbers, or a string that stands for its bytes. -/
  | blob
  /-- One of the names, as a string or as the only key of an object that maps it to null. -/
  | choice (names : List String)
  | nullable (s : Shape)
  | list (s : Shape)
  /-- An object with these fields, or a list of them in order. -/
  | record (fields : List (String × Presence × Shape))
  /-- An object with a field that holds one of the names and a field that holds a UUID. -/
  | tagged (tag : String) (names : List String) (member : String)

/-- A field of a record with what takes its value. -/
structure Slot (τ : Type) where
  key : String
  presence : Presence
  take : τ

/-- A field of a record with its reader, which is handed the containers still to be opened. -/
abbrev ReadSlot := Slot (Nat → Reader Value)

/-- Reads a string literal and takes the value it stands for. -/
def readSpelled (take : String → Option Value) : Reader Value := fun bs =>
  match skipBlanks bs with
  | [] => .error .ended
  | b :: rest =>
    if b = 0x22 then
      match readText rest with
      | .error e => .error e
      | .ok (s, rest) => match take s with
        | none => .error .mismatch
        | some v => .ok (v, rest)
    else .error (wrongKind (b :: rest))

/-- The normal form of a UUID. -/
def uuidValue (s : String) : Option Value := (Uuid.parse? s).map fun u => .string u.text

/-- Reads a natural number below `2 ^ bits`. -/
def readNatural (bits : Nat) : Reader Value := fun bs =>
  match skipBlanks bs with
  | [] => .error .ended
  | b :: rest =>
    if startsNumber b then
      match readNumber (b :: rest) with
      | .error e => .error e
      | .ok (.natural n, rest) =>
        if n.toNat < 1 <<< bits then .ok (.natural n, rest) else .error .mismatch
      | .ok (_, _) => .error .mismatch
    else .error (wrongKind (b :: rest))

def readFlag : Reader Value := fun bs =>
  match skipBlanks bs with
  | [] => .error .ended
  | b :: rest =>
    if b = 0x74 then (readWord trueTail rest).map (.bool true, ·)
    else if b = 0x66 then (readWord falseTail rest).map (.bool false, ·)
    else .error (wrongKind (b :: rest))

def readNullable (inner : Reader Value) : Reader Value := fun bs =>
  match skipBlanks bs with
  | [] => .error .ended
  | b :: rest =>
    if b = 0x6E then (readWord nullTail rest).map (.null, ·) else inner (b :: rest)

/-- Reads a list whose items are handed the containers still to be opened. -/
def readList (item : Nat → Reader Value) : Nat → Reader Value := fun depth bs =>
  match skipBlanks bs with
  | [] => .error .ended
  | b :: rest =>
    if b = 0x5B then
      match depth with
      | 0 => .error .malformed
      | depth + 1 =>
        (readItems (item depth) (rest.length + 1) true rest).map fun (xs, bs) => (.array xs, bs)
    else .error (wrongKind (b :: rest))

/-- Reads bytes. -/
def readBlob : Nat → Reader Value := fun depth bs =>
  match skipBlanks bs with
  | [] => .error .ended
  | b :: rest =>
    if b = 0x22 then
      (readLiteral .bytes .plain [] rest).map fun (content, rest) =>
        (.array (content.map fun b => .natural (UInt64.ofNat b.toNat)), rest)
    else readList (fun _ => readNatural 8) depth (b :: rest)

/-- Accepts a name. -/
def nameValue (names : List String) (s : String) : Option Value :=
  if s ∈ names then some (.string s) else none

def readChoice (names : List String) : Nat → Reader Value := fun depth bs =>
  match skipBlanks bs with
  | [] => .error .ended
  | b :: rest =>
    if b = 0x22 then readSpelled (nameValue names) (b :: rest)
    else if b = 0x7B then
      match depth with
      | 0 => .error .malformed
      | _ + 1 =>
        match readSpelled (nameValue names) rest with
        | .error e => .error e
        | .ok (v, rest) => match readColon rest with
          | .error e => .error e
          | .ok rest => match skipBlanks rest with
            | [] => .error .ended
            | c :: more =>
              if c = 0x6E then
                match readWord nullTail more with
                | .error e => .error e
                | .ok rest => match skipBlanks rest with
                  | [] => .error .ended
                  | d :: rest => if d = 0x7D then .ok (v, rest) else .error .malformed
              else .error (wrongKind (c :: more))
    else .error .malformed

/-! ## Records -/

/-- A member that was read: its key and value. -/
abbrev Member := String × Value

/-- The value of a field among the members read. -/
def lookup (key : String) : List Member → Option Value
  | [] => none
  | (k, v) :: rest => if k = key then some v else lookup key rest

/-- Reads the member of an object: a known field by its own reader, once; others are skipped. -/
def readField (slots : List ReadSlot) (depth : Nat) (seen : List Member) (key : String) :
    Reader (List Member) := fun bs =>
  match slots.find? (·.key = key) with
  | none =>
    match readColon bs with
    | .error e => .error e
    | .ok bs => (skipValue bs).map (seen, ·)
  | some slot =>
    if (lookup key seen).isSome then .error .mismatch
    else match readColon bs with
      | .error e => .error e
      | .ok bs => (slot.take depth bs).map fun (v, bs) => ((key, v) :: seen, bs)

/-- The fields in declared order, with the values of those that are missing. -/
def completeFields {τ : Type} (seen : List Member) : List (Slot τ) → Option (List Member)
  | [] => some []
  | slot :: rest => do
    let v ← match lookup slot.key seen, slot.presence with
      | some v, _ => some v
      | none, .required => none
      | none, .nullable => some .null
      | none, .defaulted v => some v
    return (slot.key, v) :: (← completeFields seen rest)

/-- The fields that a positional record leaves out at its end. -/
def defaultFields {τ : Type} : List (Slot τ) → Option (List Member)
  | [] => some []
  | slot :: rest => match slot.presence with
    | .defaulted v => (defaultFields rest).map ((slot.key, v) :: ·)
    | _ => none

/-- Reads the closing bracket of a positional record. -/
def closeList (bs : Bytes) : Except Fault Bytes :=
  match skipBlanks bs with
  | [] => .error .ended
  | b :: rest => if b = 0x5D then .ok rest else .error .malformed

/-- Reads the fields of a positional record in order. -/
def readPositional (depth : Nat) : Bool → List ReadSlot → Reader (List Member)
  | _, [], bs => (closeList bs).map ([], ·)
  | first, slot :: rest, bs =>
    match skipBlanks bs with
    | [] => .error .ended
    | b :: more =>
      if b = 0x5D then
        match defaultFields (slot :: rest) with
        | none => .error .mismatch
        | some members => .ok (members, more)
      else match nextItem first (b :: more) with
        | .error e => .error e
        | .ok bs => match slot.take depth bs with
          | .error e => .error e
          | .ok (v, bs) =>
            (readPositional depth false rest bs).map fun (ms, bs) => ((slot.key, v) :: ms, bs)

def readRecord (slots : List ReadSlot) : Nat → Reader Value := fun depth bs =>
  match skipBlanks bs with
  | [] => .error .ended
  | b :: rest =>
    if b = 0x7B then
      match depth with
      | 0 => .error .malformed
      | depth + 1 =>
        match readMembers (readField slots depth) (rest.length + 1) true [] rest with
        | .error e => .error e
        | .ok (seen, rest) => match completeFields seen slots with
          | none => .error .mismatch
          | some members => .ok (.object members, rest)
    else if b = 0x5B then
      match depth with
      | 0 => .error .malformed
      | depth + 1 =>
        (readPositional depth true slots rest).map fun (ms, rest) => (.object ms, rest)
    else .error (wrongKind (b :: rest))

/-! ## Tagged objects -/

/-- What was gathered of a tagged object: its tag, and its other members. -/
structure Gathered where
  tag : Option Value
  others : List Member

/-- Reads a member of a tagged object: the tag once, the others as free-form values. -/
def readTagMember (tag : String) (names : List String) (depth : Nat) (g : Gathered) (key : String) :
    Reader Gathered := fun bs =>
  if key = tag then
    if g.tag.isSome then .error .mismatch
    else match readColon bs with
      | .error e => .error e
      | .ok bs => (readSpelled (nameValue names) bs).map fun (v, bs) => ({ g with tag := some v }, bs)
  else match readColon bs with
    | .error e => .error e
    | .ok bs => (readAny depth bs).map fun (v, bs) => ({ g with others := (key, v) :: g.others }, bs)

/-- The tagged object with its UUID. -/
def taggedValue (tag member : String) (name : Value) : Value → Option Value
  | .string s => (uuidValue s).map fun u => .object [(tag, name), (member, u)]
  | _ => none

/-- Assembles a tagged object, whose UUID must be given exactly once. -/
def assembleTagged (tag member : String) (g : Gathered) : Option Value :=
  match g.tag, g.others.filter (·.1 = member) with
  | some name, [(_, v)] => taggedValue tag member name v
  | _, _ => none

/-- Reads a tagged object, or the list of its tag and its UUID. -/
def readTagged (tag : String) (names : List String) (member : String) : Nat → Reader Value :=
  fun depth bs =>
  match skipBlanks bs with
  | [] => .error .ended
  | b :: rest =>
    if b = 0x7B then
      match depth with
      | 0 => .error .malformed
      | depth + 1 =>
        match readMembers (readTagMember tag names depth) (rest.length + 1) true ⟨none, []⟩ rest with
        | .error e => .error e
        | .ok (g, rest) => match assembleTagged tag member g with
          | none => .error .mismatch
          | some v => .ok (v, rest)
    else if b = 0x5B then
      match depth with
      | 0 => .error .malformed
      | depth + 1 =>
        match skipBlanks rest with
        | [] => .error .ended
        | c :: more =>
          if c = 0x5D then .error .mismatch
          else match readSpelled (nameValue names) (c :: more) with
            | .error e => .error e
            | .ok (name, rest) =>
              match readItems (readAny depth) (rest.length + 1) false rest with
              | .error e => .error e
              | .ok ([v], rest) => match taggedValue tag member name v with
                | none => .error .mismatch
                | some v => .ok (v, rest)
              | .ok (_, _) => .error .mismatch
    else match readAny depth (b :: rest) with
      | .error e => .error e
      | .ok _ => .error .mismatch

/-! ## Reading by a shape -/

mutual

/-- Reads a value by its shape, with the given number of containers still to be opened. -/
def Shape.read : Shape → Nat → Reader Value
  | .text, _ => readSpelled fun s => some (.string s)
  | .uuid, _ => readSpelled uuidValue
  | .word bits, _ => readNatural bits
  | .flag, _ => readFlag
  | .any, depth => readAny depth
  | .blob, depth => readBlob depth
  | .choice names, depth => readChoice names depth
  | .nullable s, depth => readNullable (s.read depth)
  | .list s, depth => readList s.read depth
  | .record fields, depth => readRecord (slotsOf fields) depth
  | .tagged tag names member, depth => readTagged tag names member depth

/-- The readers of fields. -/
def slotsOf : List (String × Presence × Shape) → List ReadSlot
  | [] => []
  | (key, presence, s) :: rest => ⟨key, presence, s.read⟩ :: slotsOf rest

end

/-- Reads a text that holds one value of a shape and blanks around it. -/
def Shape.parse (s : Shape) (bs : Bytes) : Except Fault Value :=
  match s.read depthMax bs with
  | .error e => .error e
  | .ok (v, rest) => if (skipBlanks rest).isEmpty then .ok v else .error .malformed

/-- Types with a JSON form: a shape, the value that stands for an element, and back. -/
class Format (α : Type) where
  shape : Shape
  toValue : α → Value
  ofValue : Value → Option α

/-- The JSON text of an element. -/
def encode {α : Type} [Format α] (x : α) : Bytes := (Format.toValue x).write

/-- The element whose JSON text is given. -/
def decode (α : Type) [Format α] (bs : Bytes) : Except Fault α :=
  match (Format.shape α).parse bs with
  | .error e => .error e
  | .ok v => match Format.ofValue v with
    | none => .error .mismatch
    | some x => .ok x

end ConfigRegistry.Json
