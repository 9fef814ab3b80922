import ConfigRegistry.Timestamp

/-!
# Backup directories

What a node can learn of the directory that holds backups: its entries with their
kinds and times of modification.
-/

namespace ConfigRegistry

/-- What an entry of a directory is. -/
inductive EntryKind where
  | file
  | directory
  /-- A symbolic link, which is not followed. -/
  | link
  deriving DecidableEq, Inhabited, Repr

/-- An entry of a directory. -/
structure Entry where
  name : String
  modified : Timestamp
  kind : EntryKind
  deriving DecidableEq, Inhabited, Repr

/-- What stands at the path of the backups. -/
inductive Directory where
  | missing
  /-- A regular file, which cannot be listed. -/
  | notDirectory
  | entries (es : List Entry)
  deriving DecidableEq, Inhabited

namespace Directory

/-- The names in a directory, sorted. -/
def names : Directory → List String
  | .entries es => (es.map Entry.name).mergeSort (· ≤ ·)
  | _ => []

/-- Removes the file of a name: whether there was one. -/
def remove (name : String) : Directory → Bool × Directory
  | .entries es => (es.any (·.name = name), .entries (es.filter (·.name ≠ name)))
  | d => (false, d)

/-- Adds entries in place of those of the same names; a missing directory is made. -/
def add (new : List Entry) : Directory → Directory
  | .entries es => .entries (es.filter (fun e => !new.any (·.name = e.name)) ++ new)
  | .missing => .entries new
  | .notDirectory => .notDirectory

end Directory

/-- Whether an entry is an expired backup: a regular file whose age at a time exceeds a length of
time. An entry modified later than that time has no age. -/
def Entry.isExpired (now : Timestamp) (ttl : Duration) (e : Entry) : Bool :=
  e.kind == .file &&
    match now.sinceEpoch?, e.modified.sinceEpoch? with
    | some t, some m => (t.saturatingSub m).longer ttl
    | _, _ => false

end ConfigRegistry
