import ConfigRegistry.Bytes
import ConfigRegistry.Text.Blank

/-!
# Variable references

A config document may refer to variables as `{{ var:NAME }}`. A reference opens at
the leftmost pair of opening braces and closes at the leftmost pair of closing
braces after it; the search goes on behind the closing pair.
-/

namespace ConfigRegistry.Template

/-- Why the references of a document cannot be listed. -/
inductive Fault where
  /-- The document is not UTF-8. -/
  | invalidEncoding
  /-- The reference opened at this byte is never closed. -/
  | unterminated (offset : Nat)
  deriving DecidableEq, Repr

/-- The wording of a fault. -/
def Fault.message : Fault → String
  | .invalidEncoding => "config is not valid utf-8"
  | .unterminated offset => "unterminated variable reference at byte " ++ toString offset

/-- Cuts a text at the leftmost pair of a character: what precedes it and what follows it. -/
def cutPair (c : Char) : List Char → Option (List Char × List Char)
  | x :: y :: rest =>
    if x = c ∧ y = c then some ([], rest)
    else (cutPair c (y :: rest)).map fun (before, after) => (x :: before, after)
  | _ => none

/-- A cut loses exactly the pair. -/
theorem eq_of_cutPair {c : Char} {text before after : List Char}
    (h : cutPair c text = some (before, after)) : text = before ++ c :: c :: after := by
  fun_induction cutPair c text generalizing before with
  | case1 x y rest hc =>
    obtain ⟨rfl, rfl⟩ := hc
    simp only [Option.some.injEq, Prod.mk.injEq] at h
    obtain ⟨rfl, rfl⟩ := h
    rfl
  | case2 x y rest hc ih =>
    simp only [Option.map_eq_some_iff, Prod.exists, Prod.mk.injEq] at h
    obtain ⟨b, a, hcut, rfl, rfl⟩ := h
    simp [ih hcut]
  | case3 => simp at h

/-- The number of bytes of a text. -/
def size : List Char → Nat
  | [] => 0
  | c :: rest => c.utf8Size + size rest

/-- What a variable reference begins with. -/
def marker : List Char := ['v', 'a', 'r', ':']

/-- The variable that the inside of a pair of braces names, if it names one. -/
def nameOf? (inner : List Char) : Option String :=
  let inner := Text.trim inner
  if marker.isPrefixOf inner then
    let name := Text.trim (inner.drop marker.length)
    if name.isEmpty then none else some (String.ofList name)
  else none

/-- Appends a name that is not listed yet. -/
def addName (names : List String) : Option String → List String
  | none => names
  | some name => if name ∈ names then names else names ++ [name]

/-- Lists the names referred to in a text that starts at a byte offset of the document. -/
def scan (offset : Nat) (names : List String) (text : List Char) : Except Fault (List String) :=
  match _hopen : cutPair '\x7b' text with
  | none => .ok names
  | some (before, after) =>
    match _hclose : cutPair '\x7d' after with
    | none => .error (.unterminated (offset + size before))
    | some (inner, rest) =>
      scan (offset + (size before + 2 + size inner + 2)) (addName names (nameOf? inner)) rest
termination_by text.length
decreasing_by
  have h₁ := eq_of_cutPair _hopen
  have h₂ := eq_of_cutPair _hclose
  subst h₂
  rw [h₁]
  simp only [List.length_append, List.length_cons]
  omega

/-- The names of the variables a document refers to, in first-seen order, each once. -/
def variableNames (document : Bytes) : Except Fault (List String) :=
  match Bytes.toText? document with
  | none => .error .invalidEncoding
  | some text => scan 0 [] text.toList

end ConfigRegistry.Template
