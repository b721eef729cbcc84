import PeerRpc.Bytes

/-!
# PeerRpc.Identifier -- sides, service ids and the identifier table

Two peers face each other: the main side and the extension side. Each hosts services, and a service
is addressed by a 32-bit `ProxyId`. An `Identifier` is the symbolic identity of a service: its id,
the side that hosts it, and its name.

Both peers agree on ids by building the same `IdentifierTable`: ids are given densely in the order
of definition, a name is defined at most once for a side, and `IdentifierTable.wellKnown` is the
table that every host starts from. A table finds an id by its place and a name in an index.
-/

namespace PeerRpc

/-- The side of a channel that a peer is on. -/
inductive Side where
  | main
  | ext
  deriving DecidableEq, Inhabited

namespace Side

/-- The other side. -/
def opposite : Side → Side
  | main => ext
  | ext => main

/-- The lower-case name, used in identifiers. -/
def name : Side → String
  | main => "main"
  | ext => "ext"

/-- The capitalised name, used when a side is itself data. -/
def title : Side → String
  | main => "Main"
  | ext => "Ext"

@[simp] theorem opposite_opposite (s : Side) : s.opposite.opposite = s := by cases s <;> rfl

end Side

/-- The id of a service on the wire. -/
structure ProxyId where
  val : UInt32
  deriving DecidableEq, Inhabited

namespace ProxyId

/-- The text of an id. -/
def text (p : ProxyId) : String := "#" ++ toString p.val.toNat

/-- The diagnostic text of an id. -/
def debug (p : ProxyId) : String := "ProxyId(" ++ toString p.val.toNat ++ ")"

end ProxyId

/-- The symbolic identity of a service. -/
structure Identifier where
  id : ProxyId
  side : Side
  name : String
  deriving DecidableEq, Inhabited

namespace Identifier

/-- The side and the name of an identifier, which tell it from all others of a table. -/
def path (i : Identifier) : String := i.side.name ++ "." ++ i.name

/-- The text of an identifier: side, name and id. -/
def text (i : Identifier) : String := i.path ++ i.id.text

end Identifier

/-- A table of identifiers in the order of their ids. -/
structure IdentifierTable where
  entries : List Identifier := []
  /-- The id that each name of a side was given, the last one first. -/
  index : List ((Side × String) × ProxyId) := []
  deriving Inhabited

namespace IdentifierTable

/-- The table without entries. -/
def empty : IdentifierTable := {}

/-- The number of entries. -/
def size (t : IdentifierTable) : Nat := t.entries.length

/-- The entry with this id. -/
def lookup? (t : IdentifierTable) (id : ProxyId) : Option Identifier := t.entries[id.val.toNat]?

/-- The entry with this side and name. -/
def get? (t : IdentifierTable) (side : Side) (name : String) : Option Identifier :=
  (t.index.lookup (side, name)).bind t.lookup?

/-- The entry whose side and name are written so. -/
def find? (t : IdentifierTable) (path : String) : Option Identifier :=
  t.entries.find? fun i => i.path = path

/-- The table with one more entry, which takes the next id. -/
def push (t : IdentifierTable) (side : Side) (name : String) : IdentifierTable × Identifier :=
  let i : Identifier := ⟨⟨.ofNat t.size⟩, side, name⟩
  (⟨t.entries ++ [i], ((side, name), i.id) :: t.index⟩, i)

/-- Defines a name for a side. A name that is already defined there is refused with its text. -/
def define (t : IdentifierTable) (side : Side) (name : String) :
    Except String (IdentifierTable × Identifier) :=
  if (t.index.lookup (side, name)).isSome then .error (side.name ++ "." ++ name)
  else .ok (t.push side name)

/-- The services that the main side of every host defines, in order. -/
def mainServices : List String :=
  ["commands", "status_bar", "message_dialogs", "terminals", "languages", "output_channels"]

/-- The services that the extension side of every host defines, in order. -/
def extServices : List String := ["commands", "terminals", "languages", "documents", "workspace"]

/-- The table that every host starts from: the main side's services, then the extension side's. -/
def wellKnown : IdentifierTable :=
  let t := mainServices.foldl (fun t name => (t.push .main name).1) empty
  extServices.foldl (fun t name => (t.push .ext name).1) t

end IdentifierTable

end PeerRpc
