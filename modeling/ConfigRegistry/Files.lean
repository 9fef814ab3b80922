import ConfigRegistry.Bytes

/-!
# Files

Why a file cannot be read, in the words of the system, and a tree of files held in
memory. A path is walked part by part: each part but the last one must lead to a
directory, also where it is empty or a dot and leads nowhere else.
-/

namespace ConfigRegistry

/-- Why a file could not be read. -/
structure ReadFault where
  reason : String
  /-- Whether there is nothing at the path. -/
  absent : Bool
  deriving DecidableEq

namespace ReadFault

def noFile : ReadFault := ⟨"No such file or directory (os error 2)", true⟩

/-- A file on the way to another one. -/
def notDirectory : ReadFault := ⟨"Not a directory (os error 20)", true⟩

/-- A directory in place of a file. -/
def isDirectory : ReadFault := ⟨"Is a directory (os error 21)", false⟩

/-- A path, or a part of one, that is too long. -/
def nameTooLong : ReadFault := ⟨"File name too long (os error 36)", true⟩

/-- A path that no file can have. -/
def zeroInName : ReadFault := ⟨"file name contained an unexpected NUL byte", true⟩

/-- A file that is not text. -/
def notText : ReadFault := ⟨"stream did not contain valid UTF-8", false⟩

end ReadFault

/-- The parts of a path, the empty ones included. -/
def pathParts (path : String) : List String := (path.toList.splitOn '/').map String.ofList

/-- Whether a part of a path leads nowhere else. -/
def isIdlePart (part : String) : Bool := part.isEmpty || part = "."

/-- The most bytes of a part of a path. -/
def partMax : Nat := 255

/-- The most bytes of a path. -/
def pathMax : Nat := 4095

/-- Files held in memory, by the parts of their paths. -/
structure FileTree where
  /-- Directories, besides those that hold a file. -/
  directories : List (List String)
  files : List (List String × Bytes)

namespace FileTree

/-- What stands at a path. -/
inductive Place where
  | file (content : Bytes)
  | directory (parts : List String)

/-- What stands at the path of the given parts. -/
def place? (parts : List String) (t : FileTree) : Option Place :=
  match t.files.find? (·.1 = parts) with
  | some (_, content) => some (.file content)
  | none =>
    if t.directories.any (parts.isPrefixOf ·) || t.files.any (parts.isPrefixOf ·.1) then
      some (.directory parts)
    else none

/-- The parts behind a step from a directory. -/
def step (parts : List String) (part : String) : List String :=
  if isIdlePart part then parts else if part = ".." then parts.dropLast else parts ++ [part]

/-- Walks the parts of a path. -/
def walk (t : FileTree) : Place → List String → Except ReadFault Place
  | at_, [] => .ok at_
  | .file _, _ :: _ => .error .notDirectory
  | .directory parts, part :: rest =>
    if isIdlePart part || part = ".." then walk t (.directory (step parts part)) rest
    else if partMax < part.utf8ByteSize then .error .nameTooLong
    else match t.place? (step parts part) with
      | none => .error .noFile
      | some next => walk t next rest

def read (t : FileTree) (path : String) : Except ReadFault Bytes :=
  if path.contains '\x00' then .error .zeroInName
  else if path.isEmpty then .error .noFile
  else if pathMax < path.utf8ByteSize then .error .nameTooLong
  else match t.walk (.directory []) (pathParts path) with
    | .error fault => .error fault
    | .ok (.directory _) => .error .isDirectory
    | .ok (.file content) => .ok content

def add (path : String) (content : Bytes) (t : FileTree) : FileTree :=
  { t with files := ((pathParts path).foldl step [], content) :: t.files }

end FileTree

end ConfigRegistry
