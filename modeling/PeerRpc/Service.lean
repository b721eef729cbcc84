import PeerRpc.Activity
import PeerRpc.Router

/-!
# PeerRpc.Service -- what an endpoint hosts

A service is a behaviour under a label. Either it is put together from methods by a router, which
knows the methods and refuses all others, or it is one behaviour for every method, none of which is
aborted when a caller cancels.
-/

namespace PeerRpc

/-- What a service runs. -/
inductive ServiceBody where
  | methods (r : Router Behaviour)
  | whole (b : Behaviour)

/-- Something that an endpoint hosts. -/
structure Service where
  label : String
  body : ServiceBody

namespace Service

/-- What a call of a method does. -/
def run (s : Service) (c : CallContext) (args : List Value) : Activity :=
  match s.body with
  | .whole b => b c args
  | .methods r =>
    match r.get? c.method with
    | some m => m.run c args
    | none => .fail (.noSuchMethod c.method)

/-- Whether a call of a method is aborted when its caller cancels. -/
def isCancellable (s : Service) (method : String) : Bool :=
  match s.body with
  | .whole _ => false
  | .methods r => r.isCancellable method

instance : Handler Service := ⟨isCancellable⟩

/-- A service whose methods answer with fixed values, each with its name and whether it is aborted
when its caller cancels. -/
def ofReplies (label : String) (replies : List (String × Bool × Value)) : Service :=
  ⟨label, .methods (.ofList (replies.map fun (name, cancellable, v) =>
    (name, ⟨fun _ _ => .reply v, cancellable⟩)))⟩

end Service

end PeerRpc
