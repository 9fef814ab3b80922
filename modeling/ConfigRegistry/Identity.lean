import ConfigRegistry.Uuid
import ConfigRegistry.Digest.Blake3

/-!
# Identifiers

A module is identified by its name: the id is the beginning of the name's hash, so
that every replica and every node derives the same one. Configs have ids of their
own; connections and nodes are named by texts.
-/

namespace ConfigRegistry

/-- Identifies a module. -/
structure ModuleId where
  uuid : Uuid
  deriving DecidableEq, Inhabited

/-- Identifies a config. -/
structure ConfigId where
  uuid : Uuid
  deriving DecidableEq, Inhabited

/-- Identifies a connection on its node. -/
structure ConnectionId where
  text : String
  deriving DecidableEq, Inhabited, Repr

/-- Identifies a node of the cluster. -/
structure NodeId where
  text : String
  deriving DecidableEq, Inhabited, Repr

/-- The first sixteen bytes of a hash as a UUID. -/
def Uuid.ofDigest (bs : Bytes) : Uuid := (Uuid.ofBytes? ((Digest.blake3 bs).take 16)).getD default

namespace ModuleId

/-- The id of the module of a name. -/
def ofName (name : String) : ModuleId := ⟨Uuid.ofDigest (Bytes.ofText name)⟩

def text (m : ModuleId) : String := m.uuid.text

instance : Ord ModuleId := ⟨fun a b => a.uuid.compare b.uuid⟩

end ModuleId

namespace ConfigId

def text (c : ConfigId) : String := c.uuid.text

/-- Marks sixteen bytes as a random UUID: version 4 in the seventh, the variant in the ninth. -/
def markRandom (u : Uuid) : Uuid :=
  ⟨u.bytes.mapIdx fun i b =>
    if i = 6 then (b &&& 0x0F) ||| 0x40 else if i = 8 then (b &&& 0x3F) ||| 0x80 else b⟩

/-- The `n`-th id of a source of random-looking ids. -/
def nth (n : Nat) : ConfigId :=
  ⟨markRandom (Uuid.ofDigest (Bytes.ofText ("config " ++ toString n)))⟩

end ConfigId

end ConfigRegistry
