import Mathlib.Data.List.TakeWhile
import PeerRpc.Proofs.Bench.Ledger

/-!
# PeerRpc.Proofs.Bench.Receipts -- what an end has received

The messages that the tasks on an end have received are those of the frames that the end has taken
of the octets that have arrived, in the order in which they arrived (`Desk.Reads`). Any number of
tasks may receive, and any of them may be taken back while it waits: what has been read and not taken
stays with the end.

`Reads.closed` says what it means that a receive finds the end closed, and `Reads.received_of_framed`
what is received where the octets that arrive come from an end that writes frames.
-/

namespace PeerRpc

namespace Frame

/-- Whether a frame carries a message. -/
def isMessage (f : Frame) : Bool := f.type = .message

/-- The messages that frames carry. -/
def messages (frames : List Frame) : List Bytes := (frames.filter isMessage).map payload

theorem messages_append (fs gs : List Frame) : messages (fs ++ gs) = messages fs ++ messages gs := by
  simp [messages]

theorem messages_prefix {fs gs : List Frame} (h : fs <+: gs) : messages fs <+: messages gs := by
  obtain ⟨rest, rfl⟩ := h
  rw [messages_append]
  exact List.prefix_append _ _

theorem messages_of_message {f : Frame} (h : f.type = .message) : messages [f] = [f.payload] := by
  simp [messages, isMessage, h]

theorem messages_of_close {f : Frame} (h : f.type = .close) : messages [f] = [] := by
  simp [messages, isMessage, h]

/-- The messages in front of the first frame that carries none. -/
def leading (frames : List Frame) : List Bytes := (frames.takeWhile isMessage).map payload

theorem leading_prefix (frames : List Frame) : leading frames <+: messages frames := by
  have hsplit := List.takeWhile_append_dropWhile (p := isMessage) (l := frames)
  have hall : (frames.takeWhile isMessage).filter isMessage = frames.takeWhile isMessage :=
    List.filter_eq_self.mpr fun f hf => List.mem_takeWhile_imp hf
  have hleading : leading frames = messages (frames.takeWhile isMessage) := by
    rw [leading, messages, hall]
  rw [hleading]
  exact messages_prefix ⟨_, hsplit⟩

/-- Nothing behind a frame without a message counts. -/
theorem leading_append_of_close {fs gs : List Frame} {f : Frame} (h : f.type = .close) :
    leading (fs ++ f :: gs) <+: messages fs := by
  have hf : isMessage f = false := by simp [isMessage, h]
  have hsame : leading (fs ++ f :: gs) = leading fs := by
    induction fs with
    | nil => simp [leading, hf]
    | cons g fs ih =>
        unfold leading at ih ⊢
        rw [List.cons_append, List.takeWhile_cons, List.takeWhile_cons]
        split
        · rw [List.map_cons, List.map_cons, ih]
        · rfl
  rw [hsame]
  exact leading_prefix fs

end Frame

namespace Bench

namespace Desk

variable {d : Desk} {taken : List Frame} {t : Ticket} {w : Stream.Work}

/-- The frames `taken` are what an end has taken of all that has arrived, and their messages have
been received. -/
structure Reads (d : Desk) (taken : List Frame) : Prop where
  follows : Stream.Follows d.arrived taken d.fin
  received : d.received = Frame.messages taken
  fault : d.fin.fault = none

theorem reads_ofLimits (l : ChannelLimits) (capacity : Nat) : (ofLimits l capacity).Reads [] where
  follows := Stream.follows_ofLimits l capacity
  received := rfl
  fault := rfl

/-- A turn adds at most one message to those that were received. -/
theorem received_tried (d : Desk) (t : Ticket) (w : Stream.Work) :
    (d.tried t w).received =
      d.received ++ ((w.result? d.now t d.fin).bind Result.message?).toList := by
  show (((w.result? d.now t d.fin).map fun r => (t, r)).toList ++ d.results).reverse.filterMap
    (fun x => x.2.message?) = _
  rw [List.reverse_append, List.filterMap_append]
  refine congrArg (d.received ++ ·) ?_
  cases w.result? d.now t d.fin with
  | none => rfl
  | some r => cases hr : r.message? <;> simp [hr]

/-- A turn that receives nothing and reads nothing. -/
theorem Reads.keeps (h : d.Reads taken)
    (hnone : (w.result? d.now t d.fin).bind Result.message? = none)
    (hin : (w.attempt d.now t d.fin).state.incoming = d.fin.incoming) :
    (d.tried t w).Reads taken where
  follows := h.follows.congr (congrArg Stream.Incoming.limits hin)
    (congrArg Stream.Incoming.input hin) (congrArg Stream.Incoming.readable hin)
    (congrArg Stream.Incoming.ended hin) (congrArg Stream.Incoming.failed hin)
    (congrArg (fun x => x.pipe.content) hin)
    (fun hcut => (congrArg (fun x => x.pipe.cut) hin).trans hcut)
  received := by
    rw [received_tried, hnone, h.received]
    exact List.append_nil _
  fault := (congrArg Stream.Incoming.fault hin).trans h.fault

theorem Reads.sends (h : d.Reads taken) (op : Stream.Sending) :
    (d.tried t (.send op)).Reads taken := by
  refine h.keeps ?_ ?_
  · rw [Stream.Work.result?_send]
    cases (Stream.send t op d.fin).progress with
    | pending op' => rfl
    | done r => cases r <;> rfl
  · cases (Stream.posted d.now t op d.fin).1 with
    | keeps moved moves => exact moves.rest
    | posts op' e₁ goes isOpen fits moved moves => exact moves.rest

theorem Reads.closes (h : d.Reads taken) (op : Stream.Closing) :
    (d.tried t (.close op)).Reads taken := by
  refine h.keeps ?_ ?_
  · rw [Stream.Work.result?_close]
    cases (Stream.close d.now t op d.fin).progress <;> rfl
  · cases Stream.departed d.now t op d.fin with
    | already fresh fired same => exact congrArg Stream.End.incoming same
    | queued first moves => exact moves.rest
    | feeds f deadline e₁ goes moved moves => exact moves.rest
    | puts op' deadline e₁ goes moved moves => exact moves.rest

/-- **A turn of a receive** takes at most one frame, the next one. -/
theorem Reads.receives (h : d.Reads taken) (op : Stream.Receiving) :
    ∃ taken', (d.tried t (.recv op)).Reads taken' := by
  obtain ⟨hfault, taken', hfollows, htook⟩ := Stream.took h.follows h.fault t op
  refine ⟨taken', hfollows, ?_, hfault⟩
  rw [received_tried, Stream.Work.result?_recv, h.received]
  generalize (Stream.recv t op d.fin).progress = r at htook ⊢
  cases htook with
  | nothing op' same =>
      rw [same]
      exact List.append_nil _
  | message f type one =>
      rw [one, Frame.messages_append, Frame.messages_of_message type]
      rfl
  | close f type one =>
      rw [one, Frame.messages_append, Frame.messages_of_close type]
      rfl
  | all same =>
      rw [same]
      exact List.append_nil _
  | entry fresh fired same =>
      rw [same]
      exact List.append_nil _
  | broken e same =>
      rw [same]
      exact List.append_nil _

/-- **When a receive finds the end closed.** Either the end was closed when the receive came, or
every message in front of the first close frame and of the first octets that are no frame has been
received. -/
theorem Reads.closed (h : d.Reads taken) {op : Stream.Receiving}
    (hclosed : (Stream.Work.recv op).result? d.now t d.fin = some (.error .closed)) :
    op = .fresh ∧ d.fin.closed.fired = true ∨
      Frame.leading (d.fin.drain d.arrived).frames <+: d.received := by
  obtain ⟨-, taken', hfollows, htook⟩ := Stream.took h.follows h.fault t op
  have hlimits : (Stream.recv t op d.fin).state.limits = d.fin.limits :=
    congrArg Stream.Outgoing.limits (Stream.outgoing_recv t op d.fin)
  have hdrain : (Stream.recv t op d.fin).state.drain = d.fin.drain := by
    unfold Stream.End.drain
    rw [hlimits]
  rw [Stream.Work.result?_recv] at hclosed
  rw [h.received]
  generalize (Stream.recv t op d.fin).progress = r at htook hclosed
  cases htook with
  | nothing op' same => cases hclosed
  | message f type one => cases hclosed
  | close f type one =>
      right
      rw [one] at hfollows
      cases hfollows with
      | sound frames waiting ended failed =>
          rw [hdrain] at frames
          rw [frames, List.append_assoc]
          exact Frame.leading_append_of_close type
      | spent frames e refused =>
          rw [hdrain] at frames
          have hmessages := Frame.messages_prefix frames
          rw [Frame.messages_append, Frame.messages_of_close type, List.append_nil] at hmessages
          exact (Frame.leading_prefix _).trans hmessages
  | all same all =>
      right
      exact (Frame.leading_prefix _).trans (Frame.messages_prefix all)
  | entry fresh fired same => exact Or.inl ⟨fresh, fired⟩
  | broken e same => cases hclosed

/-! ## Every step -/

/-- **What an end has received is what has arrived**, as far as it has been taken, as long as no look
at what arrives fails. -/
theorem Reads.step {severs : Prop} {d' : Desk} (h : d.Reads taken)
    (hstep : Step severs False d d') : ∃ taken', d'.Reads taken' := by
  cases hstep with
  | begins t job fresh stays => exact ⟨taken, h.follows, h.received, h.fault⟩
  | tries t w runs =>
      cases w with
      | send op => exact ⟨taken, h.sends op⟩
      | recv op => exact h.receives op
      | close op => exact ⟨taken, h.closes op⟩
  | leaves t w runs =>
      refine ⟨taken, ?_, h.received, ?_⟩
      · cases w <;> exact h.follows.congr rfl rfl rfl rfl rfl rfl id
      · cases w <;> exact h.fault
  | falls idle =>
      exact ⟨taken, h.follows.congr rfl rfl rfl rfl rfl rfl fun _ => rfl, h.received, h.fault⟩
  | around e bs haround =>
      refine ⟨taken, h.follows.arrive haround.same haround.inbound, h.received, ?_⟩
      show e.fault = none
      rw [haround.same]
      exact h.fault
  | severs hs => exact ⟨taken, h.follows.congr rfl rfl rfl rfl rfl rfl id, h.received, h.fault⟩
  | spoils hs text => exact hs.elim
  | waits ms => exact ⟨taken, h.follows, h.received, h.fault⟩

/-! ## From end to end -/

/-- The octets of messages, and then those of a close frame or none, are read as what they are. -/
theorem drain_framed {max : Nat} {admitted : List (Ticket × Bytes)} {farewell : Bytes}
    (hmax : max < 2 ^ 32) (hsize : ∀ a ∈ admitted, a.2.length ≤ max)
    (hfarewell : farewell = [] ∨ farewell = Frame.close.toBytes) :
    ∃ frames, Frame.drain max (framed admitted ++ farewell) = ⟨frames, .ok []⟩ ∧
      Frame.messages frames = admitted.map Prod.snd := by
  have hwritable : ∀ f ∈ admitted.map fun a => Frame.message a.2, f.Writable max := by
    intro f hf
    obtain ⟨a, ha, rfl⟩ := List.mem_map.mp hf
    exact ⟨rfl, hsize a ha, Nat.lt_of_le_of_lt (hsize a ha) hmax⟩
  have hmessages : Frame.messages (admitted.map fun a => Frame.message a.2) =
      admitted.map Prod.snd := by
    unfold Frame.messages
    rw [List.filter_eq_self.mpr]
    · rw [List.map_map]
      rfl
    · intro f hf
      obtain ⟨a, -, rfl⟩ := List.mem_map.mp hf
      rfl
  have hframed : framed admitted =
      ((admitted.map fun a => Frame.message a.2).map Frame.toBytes).flatten := by
    rw [List.map_map]
    rfl
  rcases hfarewell with rfl | rfl
  · refine ⟨_, ?_, hmessages⟩
    rw [List.append_nil, hframed, Frame.drain_toBytes hwritable]
  · refine ⟨(admitted.map fun a => Frame.message a.2) ++ [Frame.close], ?_, ?_⟩
    · have hall : ∀ f ∈ (admitted.map fun a => Frame.message a.2) ++ [Frame.close],
          f.Writable max := by
        intro f hf
        rcases List.mem_append.mp hf with hf | hf
        · exact hwritable f hf
        · rw [List.mem_singleton.mp hf]
          exact ⟨rfl, Nat.zero_le _, by decide⟩
      have hdrain := Frame.drain_toBytes hall
      rw [List.map_append, List.flatten_append, ← hframed] at hdrain
      exact hdrain
    · rw [Frame.messages_append, hmessages, Frame.messages_of_close rfl, List.append_nil]

/-- **What is received is what was admitted**, in the same order, where what arrives is a beginning
of what another end writes. -/
theorem Reads.received_of_framed (h : d.Reads taken) {admitted : List (Ticket × Bytes)}
    {farewell rest : Bytes} (hmax : d.fin.limits.maxMessageSize < 2 ^ 32)
    (hsize : ∀ a ∈ admitted, a.2.length ≤ d.fin.limits.maxMessageSize)
    (hfarewell : farewell = [] ∨ farewell = Frame.close.toBytes)
    (harrived : d.arrived ++ rest = framed admitted ++ farewell) :
    d.received <+: admitted.map Prod.snd := by
  obtain ⟨frames, hdrain, hmessages⟩ := drain_framed hmax hsize hfarewell
  rw [← harrived, Frame.drain_append, Frame.Intake.feed] at hdrain
  rw [h.received, ← hmessages]
  refine Frame.messages_prefix ?_
  have hframes : (d.fin.drain d.arrived).frames <+: frames ∧
      ∀ e, (d.fin.drain d.arrived).kept ≠ .error e := by
    unfold Stream.End.drain
    cases hkept : (Frame.drain d.fin.limits.maxMessageSize d.arrived).kept with
    | error e =>
        rw [hkept] at hdrain
        cases congrArg Frame.Intake.kept hdrain
    | ok left =>
        rw [hkept] at hdrain
        refine ⟨⟨_, congrArg Frame.Intake.frames hdrain⟩, fun e he => ?_⟩
        cases he
  cases h.follows with
  | sound frames' waiting ended failed =>
      refine List.IsPrefix.trans ?_ hframes.1
      rw [frames']
      exact List.prefix_append _ _
  | spent frames' e refused => exact absurd refused (hframes.2 e)

end Desk

end Bench

end PeerRpc
