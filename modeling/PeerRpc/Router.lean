import PeerRpc.Keyed
import PeerRpc.Text.Quoted

/-!
# PeerRpc.Router -- a service put together from methods

A router is a table of named methods. Each method says what it runs and whether a call of it is
aborted when its caller cancels. A later addition of a name replaces an earlier one in both.
-/

namespace PeerRpc

/-- A method of a router. -/
structure Method (α : Type) where
  /-- What the method runs. -/
  run : α
  /-- Whether a call is aborted when its caller cancels. -/
  cancellable : Bool

/-- A table of methods. -/
structure Router (α : Type) where
  methods : Keyed (Method α) := []

namespace Router

variable {α : Type}

/-- The router without methods. -/
def empty : Router α := {}

/-- The router with one more method. -/
def add (r : Router α) (name : String) (m : Method α) : Router α :=
  ⟨Keyed.insert name m r.methods⟩

/-- The router of methods that are added one after the other. -/
def ofList (additions : List (String × Method α)) : Router α :=
  additions.foldl (fun r (name, m) => r.add name m) empty

/-- The names of the methods in order. -/
def names (r : Router α) : List String := r.methods.map Prod.fst

/-- The method with this name. -/
def get? (r : Router α) (name : String) : Option (Method α) := Keyed.get? r.methods name

/-- Whether a call of this name is aborted when its caller cancels. -/
def isCancellable (r : Router α) (name : String) : Bool := (r.get? name).any (·.cancellable)

/-- The diagnostic text of a router: the names of its methods. -/
def debug (r : Router α) : String :=
  Quoted.record "MethodRouter" [("methods", Quoted.list (r.names.map Quoted.text))] false

end Router

end PeerRpc
