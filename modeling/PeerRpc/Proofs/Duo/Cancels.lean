import PeerRpc.Proofs.Duo.Simulation
import PeerRpc.Proofs.Wire.Recalled
import PeerRpc.Service

/-!
# PeerRpc.Proofs.Duo.Cancels -- what a cancel can and cannot do on a pair

A cancel names a request by a number that the other side uses too, for requests of its own, and it
may be overtaken by the answer or by the end of either endpoint. It tells the run for its own call
to stop and no other one, and what that run answers is never heard (`Duo.cancels_targeted`).
-/

namespace PeerRpc

variable {η : Type} [Handler η]

namespace Duo

/-- **A cancel on a pair reaches the run for its call and nothing else.** Whatever happens at both
endpoints and however their loops take turns, as long as no handler fires the signal of its own
call: a run that has been told to stop by an open endpoint works on a call that its caller has
cancelled, found late or let go of. No call is ever settled by an answer that says that its handler
was aborted. -/
theorem cancels_targeted (l : ChannelLimits) (c : Side → Config) (moves : List (Move η))
    (hmax : l.maxMessageSize < 2 ^ 64)
    (hmoves : ∀ m ∈ moves, m.Meets fun o => ∀ serial, o ≠ .stop serial) (s : Side) :
    Wire.Targeted (((ofConfigs l c).run moves).desk s).chronicle
      (((ofConfigs l c).run moves).desk s.opposite).chronicle := by
  obtain ⟨w, hw, h⟩ := exists_wire l c (fun _ => nofun) hmoves
  have htargeted := hw.targeted (fun _ ho => ho) hmax s
  rw [(h.tied s).chronicle, (h.tied s.opposite).chronicle] at htargeted
  exact htargeted

/-- Both sides call each other, so both requests have the number one, and the main side cancels its
call. The run for it is aborted and answers. -/
def crossCancel : List (Move Service) :=
  [.op .main (.register ⟨7⟩ (.ofReplies "slow" [("wait", true, .null)])),
    .op .ext (.register ⟨7⟩ (.ofReplies "slow" [("wait", true, .null)])),
    .op .main (.request ⟨7⟩ "wait" []), .op .ext (.request ⟨7⟩ "wait" []),
    .write .main, .write .main, .write .ext, .write .ext, .read .main, .read .ext,
    .op .main (.cancel 0), .write .main, .write .main, .read .ext]

set_option maxRecDepth 10000 in
/-- Only the run for the call that was cancelled has been told to stop. -/
theorem cancels_targeted_crossCancel :
    let d : Duo Service := (ofConfigs {} .ofSide).run crossCancel
    ((d.host .main).calls.map (fun q => (q.call.id, q.call.delivered)) =
        [(some ⟨1⟩, some (.error .cancelled))] ∧
      (d.host .ext).endpoint.runs.map (fun r => (r.request, r.fired)) = [(some ⟨1⟩, true)] ∧
      (d.host .main).endpoint.runs.map (fun r => (r.request, r.fired)) = [(some ⟨1⟩, false)]) ∧
    ∀ s, Wire.Targeted (d.desk s).chronicle (d.desk s.opposite).chronicle := by
  intro d
  refine ⟨⟨rfl, rfl, rfl⟩, cancels_targeted {} .ofSide crossCancel (by decide) ?_⟩
  simp [crossCancel, Move.Meets]

end Duo

end PeerRpc
