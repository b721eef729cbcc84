import PeerRpc.Identifier
import PeerRpc.Text.Quoted

/-!
# PeerRpc.Registry -- which handler serves which id

A registry maps the ids of services to their handlers. The handler that was registered last under
an id serves it (`get?_register`, `get?_unregister`); `register` and `unregister` hand back the
handler they displace. The entries stand in ascending order of ids.
-/

namespace PeerRpc

/-- The handlers of services by their ids. -/
structure Registry (η : Type) where
  entries : List (ProxyId × η) := []
  deriving Inhabited

namespace Registry

variable {η : Type}

/-- The registry without handlers. -/
def empty : Registry η := {}

/-- The number of handlers. -/
def size (r : Registry η) : Nat := r.entries.length

/-- The handler that serves an id. -/
def get? (r : Registry η) (id : ProxyId) : Option η :=
  (r.entries.find? fun e => e.1 = id).map Prod.snd

/-- Whether a handler serves an id. -/
def contains (r : Registry η) (id : ProxyId) : Bool := (r.get? id).isSome

/-- The entries with `h` under `id`, in its place in the order of ids. -/
def insertEntry (id : ProxyId) (h : η) : List (ProxyId × η) → List (ProxyId × η)
  | [] => [(id, h)]
  | (k, g) :: rest =>
    if id = k then (id, h) :: rest
    else if id.val < k.val then (id, h) :: (k, g) :: rest
    else (k, g) :: insertEntry id h rest

/-- Lets a handler serve an id, and hands back the one that did. -/
def register (r : Registry η) (id : ProxyId) (h : η) : Registry η × Option η :=
  (⟨insertEntry id h r.entries⟩, r.get? id)

/-- Lets no handler serve an id, and hands back the one that did. -/
def unregister (r : Registry η) (id : ProxyId) : Registry η × Option η :=
  (⟨r.entries.filter fun e => e.1 ≠ id⟩, r.get? id)

/-- What an id is bound to after an entry has been put in. -/
theorem find?_insertEntry (id id' : ProxyId) (h : η) (entries : List (ProxyId × η)) :
    (insertEntry id h entries).find? (fun e => e.1 = id') =
      if id = id' then some (id, h) else entries.find? fun e => e.1 = id' := by
  induction entries with
  | nil => by_cases hid : id = id' <;> simp [insertEntry, hid]
  | cons e rest ih =>
    obtain ⟨k, g⟩ := e
    rw [insertEntry]
    split
    · next hk =>
      subst hk
      by_cases hid : id = id' <;> simp [hid]
    · next hk =>
      split
      · by_cases hid : id = id' <;> simp [hid]
      · by_cases hid : id = id'
        · subst hid
          simp [Ne.symm hk, ih]
        · simp [List.find?_cons, hid, ih]

/-- The handler that is registered under an id serves it, and other ids are served as before. -/
theorem get?_register (r : Registry η) (id id' : ProxyId) (h : η) :
    (r.register id h).1.get? id' = if id = id' then some h else r.get? id' := by
  rw [register, get?, find?_insertEntry]
  split
  · rfl
  · rfl

/-- An id that is unregistered is served no longer, and other ids are served as before. -/
theorem get?_unregister (r : Registry η) (id id' : ProxyId) :
    (r.unregister id).1.get? id' = if id = id' then none else r.get? id' := by
  rw [unregister, get?, List.find?_filter, get?]
  by_cases hid : id = id'
  · subst hid
    simp
  · have same (e : ProxyId × η) : (e.1 ≠ id ∧ e.1 = id') ↔ e.1 = id' :=
      ⟨And.right, fun h => ⟨fun h' => hid (h' ▸ h), h⟩⟩
    simp only [decide_eq_true_eq, same, if_neg hid]

/-- The diagnostic text of a registry: the ids that are served. -/
def debug (r : Registry η) : String :=
  Quoted.record "ServiceRegistry" [("ids", Quoted.list (r.entries.map fun e => e.1.debug))] false

end Registry

end PeerRpc
