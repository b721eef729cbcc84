import PeerRpc.Proofs.Duo.Simulation
import PeerRpc.Proofs.Wire.Faithful
import PeerRpc.Service

/-!
# PeerRpc.Proofs.Duo.Calls -- what callers on a pair can rely on

Requests of both sides carry the same numbers, share their queues with notifications, answers and
cancels, and answers overtake one another. Nevertheless the caller and the run for its call agree on
what was asked and on what came of it (`Duo.calls_faithful`).
-/

namespace PeerRpc

variable {η : Type} [Handler η]

namespace Duo

/-- **A call on a pair gets what its own run came to.** Whatever happens at both endpoints and
however their loops take turns: one run at most begins for a call, with what the caller passed, and
a call that an answer settles has the image of the outcome of that run, or learns that there was no
service, which it does exactly if there was none. -/
theorem calls_faithful (l : ChannelLimits) (c : Side → Config) (moves : List (Move η))
    (hmin : 256 ≤ l.maxMessageSize) (hmax : l.maxMessageSize < 2 ^ 64)
    (hmoves : ∀ m ∈ moves, m.Meets fun o => ∀ serial, o ≠ .stop serial) (s : Side) :
    Wire.Faithful l.maxMessageSize (((ofConfigs l c).run moves).desk s).chronicle
      (((ofConfigs l c).run moves).desk s.opposite).chronicle := by
  obtain ⟨w, hw, h⟩ := exists_wire l c (fun _ => nofun) hmoves
  have hfaithful := hw.faithful (fun _ ho => ho) hmin hmax s
  rw [(h.tied s).chronicle, (h.tied s.opposite).chronicle] at hfaithful
  exact hfaithful

/-- Both sides call at the same time, so both requests have the number one. The service of the
extension side breaks down, and the main side has none. -/
def crossing : List (Move Service) :=
  [.op .ext (.register ⟨7⟩ ⟨"broken", .whole fun _ _ => .panic "gone"⟩),
    .op .main (.request ⟨7⟩ "go" []), .op .ext (.request ⟨8⟩ "go" []),
    .write .main, .write .main, .write .ext, .write .ext, .read .ext, .read .main,
    .op .ext (.conclude 0 (.panicked "gone")), .op .ext (.reap 0),
    .write .ext, .write .ext, .write .main, .write .main, .read .main, .read .ext]

set_option maxRecDepth 10000 in
/-- Each caller learns what became of its own request. -/
theorem calls_faithful_crossing :
    let d : Duo Service := (ofConfigs {} .ofSide).run crossing
    (((d.host .main).calls.map fun q => (q.call.id, q.call.delivered)) =
        [(some ⟨1⟩, some (.error (.remote (.panicked "gone"))))] ∧
      ((d.host .ext).calls.map fun q => (q.call.id, q.call.delivered)) =
        [(some ⟨1⟩, some (.error (.noSuchProxy ⟨8⟩)))]) ∧
    ∀ s, Wire.Faithful 10485760 (d.desk s).chronicle (d.desk s.opposite).chronicle := by
  intro d
  refine ⟨⟨rfl, rfl⟩, calls_faithful {} .ofSide crossing (by decide) (by decide) ?_⟩
  simp [crossing, Move.Meets]

end Duo

end PeerRpc
