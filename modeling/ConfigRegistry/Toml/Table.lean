import ConfigRegistry.Toml.Value

/-!
# Building tables

A document is a sequence of members and of headers that start sections. A member
may be added once. A section may be opened once, and a table that was only passed so
far may still be opened. Keys of several parts reach into tables of their own kind.
-/

namespace ConfigRegistry.Toml

/-- A key: the tables it passes, and the name of the member. -/
structure Key where
  path : List String
  name : String
  deriving DecidableEq

/-- Whether a path of the one kind may enter a table of the other: a header enters every table
but one in braces; a key of several parts enters only tables that no header names. -/
def Origin.enters : Origin → Origin → Bool
  | .dotted, o => o = .passed || o = .dotted
  | _, o => o ≠ .braces

/-- Changes the table at the end of a path, creating the tables on the way. In a list of tables
the last one is entered. -/
def alter (via : Origin) (change : Origin → Members → Option Members) :
    List String → Origin → Members → Option Members
  | [], origin, ms => change origin ms
  | key :: path, _, ms =>
    match lookup key ms with
    | none => (alter via change path via []).map fun inner => ms ++ [(key, .table via inner)]
    | some (.table origin inner) =>
      if via.enters origin then
        (alter via change path origin inner).map fun inner => replace key (.table origin inner) ms
      else none
    | some (.tables rows) =>
      match rows.getLast? with
      | none => none
      | some row => (alter via change path .header row).map fun row =>
        replace key (.tables (rows.dropLast ++ [row])) ms
    | some _ => none

/-- Adds a member to the table at the end of its key's path. A path of one part or more must end
in a table that such paths created. -/
def addMember (ms : Members) (key : Key) (v : Value) : Option Members :=
  alter .dotted (fun origin ms =>
    if key.path ≠ [] ∧ origin ≠ .dotted then none
    else if (lookup key.name ms).isSome then none
    else some (ms ++ [(key.name, v)])) key.path .header ms

/-- Adds members in order. -/
def addMembers (ms : Members) : List (Key × Value) → Option Members
  | [] => some ms
  | (key, v) :: rest => (addMember ms key v).bind fun ms => addMembers ms rest

/-- A line of a document. -/
inductive Line where
  | member (key : Key) (v : Value)
  /-- The header of a table. -/
  | table (key : Key)
  /-- The header of the next one of a list of tables. -/
  | row (key : Key)

/-- A header with the members below it. -/
structure Section where
  key : Key
  /-- Whether the header adds to a list of tables. -/
  isRow : Bool
  members : List (Key × Value)

/-- The members above the first header, and the sections. -/
def sections : List Line → List (Key × Value) × List Section
  | [] => ([], [])
  | .member key v :: rest => let (ms, ss) := sections rest; ((key, v) :: ms, ss)
  | .table key :: rest => let (ms, ss) := sections rest; ([], ⟨key, false, ms⟩ :: ss)
  | .row key :: rest => let (ms, ss) := sections rest; ([], ⟨key, true, ms⟩ :: ss)

/-- Adds the table of a section to the table that holds it. -/
def placeSection (s : Section) (parent : Members) : Option Members :=
  match s.isRow, lookup s.key.name parent with
  | false, none =>
    (addMembers [] s.members).map fun ms => parent ++ [(s.key.name, .table .header ms)]
  | false, some (.table .passed inner) =>
    (addMembers inner s.members).map fun ms =>
      remove s.key.name parent ++ [(s.key.name, .table .header ms)]
  | true, none =>
    (addMembers [] s.members).map fun ms => parent ++ [(s.key.name, .tables [ms])]
  | true, some (.tables rows) =>
    (addMembers [] s.members).map fun ms => replace s.key.name (.tables (rows ++ [ms])) parent
  | _, _ => none

/-- Adds a section to a document. -/
def addSection (root : Members) (s : Section) : Option Members :=
  alter .passed (fun _ parent => placeSection s parent) s.key.path .header root

/-- Adds sections in order. -/
def addSections (root : Members) : List Section → Option Members
  | [] => some root
  | s :: rest => (addSection root s).bind fun root => addSections root rest

/-- The table of a document. -/
def ofLines (lines : List Line) : Option Members :=
  let (members, rest) := sections lines
  (addMembers [] members).bind fun root => addSections root rest

end ConfigRegistry.Toml
