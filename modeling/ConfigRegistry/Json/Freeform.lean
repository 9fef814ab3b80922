import ConfigRegistry.Json.Shape

/-!
# Free-form values of a shape

A value that was read without a shape may still have one. It is then brought into
the normal form of the shape, the form in which a text read by the shape comes.
-/

namespace ConfigRegistry.Json

/-- A field of a record with what brings its value into normal form. -/
abbrev FitSlot := Slot (Value → Option Value)

/-- A string that stands for something. -/
def fitSpelled (take : String → Option Value) : Value → Option Value
  | .string s => take s
  | _ => none

/-- A natural number below `2 ^ bits`. -/
def fitNatural (bits : Nat) : Value → Option Value
  | .number (.natural n) => if n.toNat < 1 <<< bits then some (.natural n) else none
  | _ => none

/-- A truth value. -/
def fitFlag : Value → Option Value
  | .bool b => some (.bool b)
  | _ => none

def fitNullable (inner : Value → Option Value) : Value → Option Value
  | .null => some .null
  | v => inner v

def fitList (item : Value → Option Value) : Value → Option Value
  | .array items => (items.mapM item).map .array
  | _ => none

/-- Bytes. -/
def fitBlob : Value → Option Value
  | .string s => some (.array ((Bytes.ofText s).map fun b => .natural (UInt64.ofNat b.toNat)))
  | v => fitList (fitNatural 8) v

def fitChoice (names : List String) : Value → Option Value
  | .object [(name, .null)] => nameValue names name
  | v => fitSpelled (nameValue names) v

/-- The members that fields are given, in declared order. -/
def givenFields (members : List Member) : List FitSlot → Option (List Member)
  | [] => some []
  | slot :: rest => do
    let more ← givenFields members rest
    match lookup slot.key members with
    | none => return more
    | some v => return (slot.key, ← slot.take v) :: more

/-- The members that the items of a positional record stand for. -/
def positionalFields : List FitSlot → List Value → Option (List Member)
  | [], [] => some []
  | [], _ :: _ => none
  | slot :: rest, [] => defaultFields (slot :: rest)
  | slot :: rest, v :: more => do
    return (slot.key, ← slot.take v) :: (← positionalFields rest more)

def fitRecord (slots : List FitSlot) : Value → Option Value
  | .object members => do
    return .object (← completeFields (← givenFields members slots) slots)
  | .array items => (positionalFields slots items).map .object
  | _ => none

/-- A tagged object, or the list of its tag and its UUID. -/
def fitTagged (tag : String) (names : List String) (member : String) : Value → Option Value
  | .object members => do
    taggedValue tag member (← fitSpelled (nameValue names) (← lookup tag members))
      (← lookup member members)
  | .array [name, v] => do taggedValue tag member (← fitSpelled (nameValue names) name) v
  | _ => none

mutual

/-- The normal form of a value by a shape, if it has that shape. -/
def Shape.fit? : Shape → Value → Option Value
  | .text => fitSpelled fun s => some (.string s)
  | .uuid => fitSpelled uuidValue
  | .word bits => fitNatural bits
  | .flag => fitFlag
  | .any => some
  | .blob => fitBlob
  | .choice names => fitChoice names
  | .nullable s => fitNullable s.fit?
  | .list s => fitList s.fit?
  | .record fields => fitRecord (fitSlotsOf fields)
  | .tagged tag names member => fitTagged tag names member

/-- What brings the values of fields into normal form. -/
def fitSlotsOf : List (String × Presence × Shape) → List FitSlot
  | [] => []
  | (key, presence, s) :: rest => ⟨key, presence, s.fit?⟩ :: fitSlotsOf rest

end

/-- The element that a value stands for. -/
def fromValue? (α : Type) [Format α] (v : Value) : Option α :=
  ((Format.shape α).fit? v).bind Format.ofValue

end ConfigRegistry.Json
