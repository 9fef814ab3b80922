import ConfigRegistry.Json.Literal

/-!
# Reading values

Free-form values are read into `Value`, objects sorted by key with the last of
equal keys kept. Containers nest at most `depthMax` deep. A value that nobody asks
for is skipped without that limit and without decoding its strings.
-/

namespace ConfigRegistry.Json

/-- How deep containers may nest. -/
def depthMax : Nat := 127

/-- Whether a byte can start a number. -/
def startsNumber (b : UInt8) : Bool := b = 0x2D || Decimal.isDigit b

/-- The fault of a value of another kind than was asked for: its first token is read in full. -/
def wrongKind (bs : Bytes) : Fault :=
  let faultOf {α : Type} : Except Fault α → Fault
    | .error e => e
    | .ok _ => .mismatch
  match bs with
  | [] => .ended
  | b :: rest =>
    if b = 0x6E then faultOf (readWord nullTail rest)
    else if b = 0x74 then faultOf (readWord trueTail rest)
    else if b = 0x66 then faultOf (readWord falseTail rest)
    else if startsNumber b then faultOf (readNumber bs)
    else if b = 0x22 then faultOf (readText rest)
    else if b = 0x5B || b = 0x7B then .mismatch
    else .malformed

/-- Goes to the item behind the comma at which a list stands, or to the first one. -/
def nextItem (first : Bool) : Bytes → Except Fault Bytes
  | [] => .error .ended
  | b :: rest =>
    if first then .ok (b :: rest)
    else if b = 0x2C then
      match skipBlanks rest with
      | [] => .error .ended
      | c :: more => if c = 0x5D then .error .malformed else .ok (c :: more)
    else .error .malformed

/-- Reads items up to the closing bracket; the budget bounds their number. -/
def readItems {α : Type} (item : Reader α) : Nat → Bool → Reader (List α)
  | 0, _, _ => .error .ended
  | n + 1, first, bs =>
    match skipBlanks bs with
    | [] => .error .ended
    | b :: rest =>
      if b = 0x5D then .ok ([], rest)
      else match nextItem first (b :: rest) with
        | .error e => .error e
        | .ok bs => match item bs with
          | .error e => .error e
          | .ok (x, bs) => match readItems item n false bs with
            | .error e => .error e
            | .ok (xs, bs) => .ok (x :: xs, bs)

/-- Goes to the quote of the key behind the comma at which an object stands, or of the first one,
and behind that quote. -/
def nextKey (first : Bool) : Bytes → Except Fault Bytes
  | [] => .error .ended
  | b :: rest =>
    if first then if b = 0x22 then .ok rest else .error .malformed
    else if b = 0x2C then
      match skipBlanks rest with
      | [] => .error .ended
      | c :: more => if c = 0x22 then .ok more else .error .malformed
    else .error .malformed

/-- Reads the colon behind a key. -/
def readColon (bs : Bytes) : Except Fault Bytes :=
  match skipBlanks bs with
  | [] => .error .ended
  | b :: rest => if b = 0x3A then .ok rest else .error .malformed

/-- Reads members up to the closing brace. `member` is handed what was gathered so far and the
key, and reads the colon and the value. -/
def readMembers {σ : Type} (member : σ → String → Reader σ) : Nat → Bool → σ → Reader σ
  | 0, _, _, _ => .error .ended
  | n + 1, first, s, bs =>
    match skipBlanks bs with
    | [] => .error .ended
    | b :: rest =>
      if b = 0x7D then .ok (s, rest)
      else match nextKey first (b :: rest) with
        | .error e => .error e
        | .ok bs => match readText bs with
          | .error e => .error e
          | .ok (key, bs) => match member s key bs with
            | .error e => .error e
            | .ok (s, bs) => readMembers member n false s bs

/-- Reads any value, with the given number of containers still to be opened. -/
def readAny : Nat → Reader Value
  | depth, bs =>
    match skipBlanks bs with
    | [] => .error .ended
    | b :: rest =>
      if b = 0x6E then (readWord nullTail rest).map (.null, ·)
      else if b = 0x74 then (readWord trueTail rest).map (.bool true, ·)
      else if b = 0x66 then (readWord falseTail rest).map (.bool false, ·)
      else if startsNumber b then (readNumber (b :: rest)).map fun (n, bs) => (.number n, bs)
      else if b = 0x22 then (readText rest).map fun (s, bs) => (.string s, bs)
      else match depth with
        | 0 => .error .malformed
        | depth + 1 =>
          if b = 0x5B then
            (readItems (readAny depth) (rest.length + 1) true rest).map fun (xs, bs) => (.array xs, bs)
          else if b = 0x7B then
            let member := fun (ms : List (String × Value)) key bs =>
              match readColon bs with
              | .error e => .error e
              | .ok bs => (readAny depth bs).map fun (v, bs) => (Value.putMember key v ms, bs)
            (readMembers member (rest.length + 1) true [] rest).map fun (ms, bs) => (.object ms, bs)
          else .error .malformed

/-! ## Skipping -/

/-- A container that is open while a value is skipped. -/
inductive Frame where
  | list
  | record

/-- What is looked for while a value is skipped. -/
inductive Expected where
  | value
  /-- The first item or member of the container just opened, or its end. -/
  | first
  /-- A comma, or the end of the innermost container. -/
  | more

/-- Skips a number: digits, fraction and exponent are required where they are announced. -/
def skipNumber (bs : Bytes) : Except Fault Bytes :=
  let bs := match bs with
    | b :: rest => if b = 0x2D then rest else bs
    | [] => []
  let digitsOf : Bytes → Except Fault Bytes := fun bs =>
    match bs with
    | b :: _ => if Decimal.isDigit b then .ok (bs.dropWhile Decimal.isDigit) else .error .malformed
    | [] => .error .malformed
  let exponentOf : Bytes → Except Fault Bytes := fun bs =>
    if startsExponent bs then
      match bs.drop 1 with
      | b :: rest => if b = 0x2B || b = 0x2D then digitsOf rest else digitsOf (b :: rest)
      | [] => .error .malformed
    else .ok bs
  match bs with
  | [] => .error .malformed
  | b :: rest =>
    if b = 0x30 && (rest.head?.map Decimal.isDigit).getD false then .error .malformed
    else match digitsOf bs with
      | .error e => .error e
      | .ok (c :: more) =>
        if c = 0x2E then
          match digitsOf more with
          | .error e => .error e
          | .ok bs => exponentOf bs
        else exponentOf (c :: more)
      | .ok [] => .ok []

/-- Skips a key and its colon behind the opening quote. -/
def skipKey (bs : Bytes) : Except Fault Bytes :=
  match readLiteral .nothing .plain [] bs with
  | .error e => .error e
  | .ok (_, bs) => readColon bs

/-- Skips tokens until the outermost value is complete; the budget bounds their number. -/
def skipTokens : Nat → Expected → List Frame → Bytes → Except Fault Bytes
  | 0, _, _, _ => .error .ended
  | n + 1, expected, frames, bs =>
    let done := fun (frames : List Frame) bs =>
      if frames.isEmpty then .ok bs else skipTokens n .more frames bs
    match skipBlanks bs with
    | [] => .error .ended
    | b :: rest =>
      let bs := b :: rest
      match expected, frames with
      | .value, _ =>
        if b = 0x6E then (readWord nullTail rest).bind (done frames)
        else if b = 0x74 then (readWord trueTail rest).bind (done frames)
        else if b = 0x66 then (readWord falseTail rest).bind (done frames)
        else if startsNumber b then (skipNumber bs).bind (done frames)
        else if b = 0x22 then (readLiteral .nothing .plain [] rest).bind fun r => done frames r.2
        else if b = 0x5B then skipTokens n .first (.list :: frames) rest
        else if b = 0x7B then skipTokens n .first (.record :: frames) rest
        else .error .malformed
      | .first, .list :: outer =>
        if b = 0x5D then done outer rest else skipTokens n .value frames bs
      | .first, .record :: outer =>
        if b = 0x7D then done outer rest
        else if b = 0x22 then (skipKey rest).bind (skipTokens n .value frames)
        else .error .malformed
      | .more, .list :: outer =>
        if b = 0x2C then skipTokens n .value frames rest
        else if b = 0x5D then done outer rest
        else .error .malformed
      | .more, .record :: outer =>
        if b = 0x2C then
          match skipBlanks rest with
          | [] => .error .ended
          | c :: more =>
            if c = 0x22 then (skipKey more).bind (skipTokens n .value frames) else .error .malformed
        else if b = 0x7D then done outer rest
        else .error .malformed
      | _, [] => .ok bs

def skipValue (bs : Bytes) : Except Fault Bytes :=
  skipTokens (2 * bs.length + 2) .value [] bs

/-- Reads a text that holds one free-form value and blanks around it. -/
def parse (bs : Bytes) : Except Fault Value :=
  match readAny depthMax bs with
  | .error e => .error e
  | .ok (v, rest) => if (skipBlanks rest).isEmpty then .ok v else .error .malformed

end ConfigRegistry.Json
