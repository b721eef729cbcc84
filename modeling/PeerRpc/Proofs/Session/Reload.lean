import PeerRpc.Proofs.Host.Services
import PeerRpc.Proofs.Session.Performance

/-!
# PeerRpc.Proofs.Session.Reload -- services are replaced while they work

Services may be registered, replaced and removed at any time. Three things make that safe. At an
endpoint a message is served by the handler that was registered last when it arrived, and the run
that begins then keeps this handler (`Chronicle.services`). The task that works on the run does what
this handler does with the call, and nothing else, until it ends (`Session.Reached.performs`). And a
handler that is put together from methods finds the method that was added last under a name, with
its own say on whether a call is aborted (`Service.routed`). `Session.served_by_registered` states
all three.

The one message that nobody serves and that is not answered either is a request whose id is still
being worked on (`Session.repeated_is_dropped`).
-/

namespace PeerRpc

namespace Router

variable {α : Type}

/-- **The last addition of a name wins.** -/
theorem get?_ofList (additions : List (String × Method α)) (name : String) :
    (ofList additions).get? name =
      (additions.reverse.find? fun x => x.1 = name).map Prod.snd := by
  induction additions using List.reverseRecOn with
  | nil => rfl
  | append_singleton additions x ih =>
      have hlast : ofList (additions ++ [x]) = (ofList additions).add x.1 x.2 := by
        simp only [ofList, List.foldl_append, List.foldl_cons, List.foldl_nil]
      rw [hlast, List.reverse_append, List.reverse_singleton, List.singleton_append,
        List.find?_cons]
      refine (Keyed.get?_insert x.1 name x.2 _).trans ?_
      by_cases hname : x.1 = name
      · simp [hname]
      · simp only [hname, if_false, decide_false]
        exact ih

end Router

namespace Service

/-- What a service does for a call, and whether it lets the call be aborted, when its methods were
added one after the other: both come from the last method that was added under the name. -/
def Routed (additions : List (String × Method Behaviour)) (s : Service) : Prop :=
  ∀ c args, match additions.reverse.find? fun x => x.1 = c.method with
    | some (_, m) => s.run c args = m.run c args ∧ s.isCancellable c.method = m.cancellable
    | none => s.run c args = .fail (.noSuchMethod c.method) ∧ s.isCancellable c.method = false

theorem routed (label : String) (additions : List (String × Method Behaviour)) :
    Routed additions ⟨label, .methods (.ofList additions)⟩ := by
  intro c args
  simp only [run, isCancellable, Router.isCancellable, Router.get?_ofList]
  cases additions.reverse.find? fun x => x.1 = c.method with
  | none => exact ⟨rfl, rfl⟩
  | some x => exact ⟨rfl, rfl⟩

end Service

namespace Session

/-- **The handler that serves a message is the one that was registered last when it arrived.** It
decides whether the call may be aborted, works on it to its end, and provides the answer, whatever
is registered or removed meanwhile. -/
theorem served_by_registered :
    (∀ (η : Type) [Handler η] (c : Config) (acts : List (Act η)),
      ((Chronicle.ofConfig c).run acts).Services) ∧
    (∀ link configs w, Reached link configs w → w.Performs) ∧
    ∀ label additions, Service.Routed additions ⟨label, .methods (.ofList additions)⟩ :=
  ⟨fun _ _ => Chronicle.services, fun _ _ _ => Reached.performs, Service.routed⟩

/-! ## A service that is replaced while it works -/

/-- The name of the service. -/
def commands : Identifier := ⟨⟨6⟩, .ext, "commands"⟩

/-- A peer has called a method that waits at a gate. -/
def working : Session :=
  (hosting.peerSend .ext (Cbor.encodeMessage
    (.request ⟨1⟩ commands.id "gated" [.string "g"]))).1.settle

/-- Another service has taken the place of the one that works. -/
def replaced : Session :=
  match working.set .ext commands (.bare "new") with
  | .ok (w, _) => w
  | .error _ => working

theorem reached_replaced : Reached (.memoryPair {}) [.ofSide .ext] replaced := by
  have hworking : Reached (.memoryPair {}) [.ofSide .ext] working :=
    (reached_hosting.peerSend .ext _).next .settle
  unfold replaced
  split
  · next w old hset => exact hworking.next (.set hset)
  · exact hworking

theorem served_by_registered_replaced :
    Reached (.memoryPair {}) [.ofSide .ext] replaced ∧
      ((replaced.endpoint? .ext).map fun e =>
        (e.runs.map fun r => r.handler.label, (e.registry.get? commands.id).map Service.label)) =
          some (["kit"], some "new") ∧
        replaced.Performs :=
  ⟨reached_replaced, by decide +kernel, served_by_registered.2.1 _ _ _ reached_replaced⟩

/-- A request whose id is still being worked on is neither served nor answered, even if nothing is
registered under the id of its service. -/
theorem repeated_is_dropped :
    let again := Cbor.encodeMessage (.request ⟨1⟩ commands.id "echo" [])
    let x := (Chronicle.ofConfig { side := .ext } : Chronicle Service).run [
      .op (.set commands (.kit "kit")),
      .receive (Cbor.encodeMessage (.request ⟨1⟩ commands.id "never" [])),
      .op (.unset commands)]
    (x.host.receives? (.receive again)).isSome = true ∧
      (x.host.endpoint.registry.get? commands.id).isNone = true ∧
        (x.host.step (.receive again)).2.isEmpty = true := by
  decide +kernel

end Session

end PeerRpc
