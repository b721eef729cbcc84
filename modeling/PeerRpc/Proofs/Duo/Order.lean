import PeerRpc.Proofs.Duo.Simulation
import PeerRpc.Proofs.Host.Discipline

/-!
# PeerRpc.Proofs.Duo.Order -- a pair keeps the order of messages

What has arrived at one side of a pair, what is in the queue, and what the writer of the other side
has not offered yet are together what that writer has been handed and the channel has not refused
(`Duo.Follows`). Only the writer's last message can be missing, once the writer has ended. So a
pair delivers messages in the order in which they were handed over, and every move keeps it that way
(`Duo.Ordered.move`).
-/

namespace PeerRpc

variable {η : Type}

/-- The frame that arrives with an act. -/
def Act.frame? : Act η → Option Bytes
  | .receive frame => some frame
  | _ => none

/-- The frames that have arrived, in order. -/
def Chronicle.frames (x : Chronicle η) : List Bytes := x.past.filterMap fun m => m.act.frame?

theorem Chronicle.frames_act [Handler η] (x : Chronicle η) (a : Act η) :
    (x.act a).frames = x.frames ++ a.frame?.toList := by
  simp only [frames, past_act, List.filterMap_append]
  cases hf : a.frame? <;> simp [hf]

namespace Duo

/-! ## The invariant -/

/-- The octets that were sent to the other side: those that have arrived there, in `frames`, those
in the queue, and those that the writer has not offered to it. -/
def underway (frames : List Bytes) (k : Desk η) (q : Memory.Queue) : List Bytes :=
  frames ++ (q.contents ++ k.unsent.map Outbound.bytes)

/-- How the frames that have arrived at the other side follow the messages of this one. -/
structure Follows (limit : Nat) (frames : List Bytes) (k : Desk η) (q : Memory.Queue) : Prop where
  order : underway frames k q <+: k.chronicle.entrusted.map Outbound.bytes
  whole : k.writing ≠ .ended → underway frames k q = k.chronicle.entrusted.map Outbound.bytes
  small : ∀ frame ∈ frames, frame.length ≤ limit

section

variable {limit : Nat} {frames : List Bytes} {k k' : Desk η} {q q' : Memory.Queue}

/-- Nothing that matters to the order has changed. -/
theorem Follows.same (h : Follows limit frames k q)
    (hunder : underway frames k' q' = underway frames k q)
    (hsent : k'.chronicle.entrusted = k.chronicle.entrusted)
    (hended : k'.writing ≠ .ended → k.writing ≠ .ended) : Follows limit frames k' q' where
  order := by
    rw [hunder, hsent]
    exact h.order
  whole := fun hw => by rw [hunder, hsent, h.whole (hended hw)]
  small := h.small

/-- The queue keeps its messages. -/
theorem Follows.queue (h : Follows limit frames k q) (hq : q'.contents = q.contents) :
    Follows limit frames k q' :=
  h.same (by simp only [underway, hq]) rfl id

/-- An act at the sending side that has nothing to do with its writer. -/
theorem Follows.act [Handler η] (h : Follows limit frames k q) {a : Act η}
    (hs : (k.host.step a).1.sending = k.host.sending) (hoff : k.host.offers? a = none)
    (hb : k.host.bounced? a = none) :
    Follows limit frames { k with chronicle := k.chronicle.act a } q := by
  refine h.same ?_ (Chronicle.entrusted_of_none hoff hb) id
  have hunsent : Desk.unsent { k with chronicle := k.chronicle.act a } = k.unsent := by
    unfold Desk.unsent
    dsimp only
    split
    · exact congrArg Option.toList hs
    · rfl
  rw [underway, hunsent]
  rfl

/-- The first message of the queue arrives. -/
theorem Follows.arrive (h : Follows limit frames k q) {msg : Bytes}
    (hq : q.contents = msg :: q'.contents) (hsize : msg.length ≤ limit) :
    Follows limit (frames ++ [msg]) k q' := by
  have hunder : underway (frames ++ [msg]) k q' = underway frames k q := by
    simp only [underway, hq, List.append_assoc, List.cons_append, List.nil_append]
  refine ⟨hunder ▸ h.order, fun hw => hunder.trans (h.whole hw), fun frame hf => ?_⟩
  rcases List.mem_append.mp hf with hf | hf
  · exact h.small frame hf
  · rw [List.mem_singleton.mp hf]
    exact hsize

/-- The writer takes a message. -/
theorem Follows.take [Handler η] (h : Follows limit frames k q) {o : Outbound} {rest : List Outbound}
    (hk : k.writing = .idle) (hs : k.host.sending = none) (hopen : k.host.endpoint.isOpen = true)
    (ho : k.host.endpoint.outbound = o :: rest) :
    Follows limit frames
      { k with chronicle := k.chronicle.act .take, writing := .sending (.fresh o.bytes) } q := by
  have hoff : k.host.offers? .take = some o := Host.offers?_eq_some.mpr ⟨rfl, hs, hopen, rest, ho⟩
  have hold := h.whole (hk ▸ nofun)
  have htaken : (k.chronicle.act .take).host.sending = some o :=
    congrArg (fun x => x.1.sending) (Host.step_take hs hopen ho)
  have heq : underway frames
      { k with chronicle := k.chronicle.act .take, writing := .sending (.fresh o.bytes) } q =
      (k.chronicle.act .take).entrusted.map Outbound.bytes := by
    rw [Chronicle.entrusted_of_offers hoff, List.map_append, ← hold]
    simp only [underway, Desk.unsent, Desk.host, htaken, hk]
    simp
  exact ⟨heq ▸ List.prefix_rfl, fun _ => heq, h.small⟩

/-- The queue, or those who wait beside it, take the message that the writer offers. -/
theorem Follows.offer (h : Follows limit frames k q) {o : Outbound} {x : Chronicle η}
    {writing : Writing} (hk : k.writing = .sending (.fresh o.bytes))
    (hs : k.host.sending = some o) (hq : q'.contents = q.contents ++ [o.bytes])
    (hsent : x.entrusted = k.chronicle.entrusted)
    (hwriting : ∀ msg, writing ≠ .sending (.fresh msg)) :
    Follows limit frames { k with chronicle := x, writing := writing } q' := by
  have hnone : Desk.unsent { k with chronicle := x, writing := writing } = [] := by
    unfold Desk.unsent
    split
    · next msg hw => exact absurd hw (hwriting msg)
    · rfl
  have hone : k.unsent = [o] := by
    simp only [Desk.unsent, hk, hs, Option.toList_some]
  refine h.same ?_ hsent fun _ => hk ▸ nofun
  simp only [underway, hnone, hone, hq, List.map_cons, List.map_nil, List.append_nil]

/-- The channel refuses the message that the writer offers. -/
theorem Follows.refuse [Handler η] (h : Follows limit frames k q) {o : Outbound} {err : TransportError}
    (hk : k.writing = .sending (.fresh o.bytes)) (hs : k.host.sending = some o)
    (hb : k.host.bounced? (.sent (.error err)) = some (o, err)) :
    Follows limit frames
      { k with chronicle := k.chronicle.act (.sent (.error err)), writing := .idle } q := by
  have hold := h.whole (hk ▸ nofun)
  have hone : k.unsent = [o] := by
    simp only [Desk.unsent, hk, hs, Option.toList_some]
  have heq : underway frames
      { k with chronicle := k.chronicle.act (.sent (.error err)), writing := .idle } q =
      (k.chronicle.act (.sent (.error err))).entrusted.map Outbound.bytes := by
    rw [Chronicle.entrusted_of_bounced hb, List.map_dropLast, ← hold]
    simp only [underway, hone, List.map_cons, List.map_nil, ← List.append_assoc,
      List.dropLast_concat]
    exact List.append_nil _
  exact ⟨heq ▸ List.prefix_rfl, fun _ => heq, h.small⟩

/-- A writer that has ended has handed nothing more over. -/
theorem Follows.finish (h : Follows limit frames k q) {x : Chronicle η}
    (hsent : x.entrusted = k.chronicle.entrusted) (hq : q'.contents <+: q.contents) :
    Follows limit frames { k with chronicle := x, writing := .ended } q' := by
  refine ⟨?_, fun hw => absurd rfl hw, h.small⟩
  show frames ++ (q'.contents ++ []) <+: x.entrusted.map Outbound.bytes
  rw [hsent, List.append_nil]
  refine List.IsPrefix.trans ?_ h.order
  exact (List.prefix_append_right_inj frames).mpr (hq.trans (List.prefix_append _ _))

end

/-- Both sides follow each other. -/
def Ordered (l : ChannelLimits) (d : Duo η) : Prop :=
  ∀ s : Side, Follows l.maxMessageSize (d.desk s.opposite).chronicle.frames (d.desk s)
    (d.pair.outgoing s)

/-! ## Moves -/

section

variable [Handler η] {l : ChannelLimits} {d : Duo η} {w : Wire η} {s : Side}

omit [Handler η] in
/-- The order after a move of one side. -/
theorem Ordered.put {p : Memory.Pair} {k : Desk η}
    (hself : Follows l.maxMessageSize (d.desk s.opposite).chronicle.frames k (p.outgoing s))
    (hother : Follows l.maxMessageSize k.chronicle.frames (d.desk s.opposite)
      (p.outgoing s.opposite)) : Ordered l (d.put s p k) := by
  intro s'
  rcases Wire.eq_or_opposite s s' with rfl | rfl
  · rw [desk_put, d.desk_put_ne (Wire.opposite_ne _), pair_put]
    exact hself
  · rw [Side.opposite_opposite, desk_put, d.desk_put_ne (Wire.opposite_ne s), pair_put]
    exact hother

theorem Ordered.op (h : Ordered l d) (s : Side) (o : Op η) : Ordered l (d.move (.op s o)) := by
  have hother := h s.opposite
  refine .put (s := s) ((h s).act (a := .op o) ((d.host s).posts_operate o).sending rfl rfl) ?_
  rw [Side.opposite_opposite] at hother
  rw [Chronicle.frames_act]
  exact (List.append_nil _).symm ▸ hother

/-- The turn of a reader. -/
theorem Ordered.read (h : Ordered l d) (hw : Linked l d w) (s : Side) : Ordered l (d.read s) := by
  have hother := h s.opposite
  rw [Side.opposite_opposite] at hother
  have hturn := d.readTurn s
  generalize d.read s = d' at hturn ⊢
  cases hturn with
  | ended reading => exact h
  | hangsUp reading =>
      refine .put ?_ ?_
      · rw [Memory.Pair.outgoing_close]
        exact (h s).same rfl rfl id
      · rw [Memory.Pair.outgoing_close]
        exact hother
  | stops op p reading closed drained contents =>
      refine .put ?_ (hother.queue contents)
      rw [drained.outgoing]
      exact (h s).same rfl rfl id
  | waits op op' p reading isOpen drained whole empty contents =>
      refine .put ?_ (hother.queue contents)
      rw [drained.outgoing]
      exact (h s).same rfl rfl id
  | fails op p reading isOpen drained contents =>
      refine .put ?_ ?_
      · rw [drained.outgoing]
        exact ((h s).act (a := .op .close) ((d.host s).posts_operate .close).sending rfl
          rfl).same rfl rfl id
      · rw [Chronicle.frames_act]
        exact (List.append_nil _).symm ▸ hother.queue contents
  | receives op p msg reading isOpen drained contents =>
      refine .put ?_ ?_
      · rw [drained.outgoing]
        exact ((h s).act (a := .receive msg) ((d.host s).posts_receive msg).sending rfl
          rfl).same rfl rfl id
      · rw [Chronicle.frames_act]
        refine hother.arrive contents ((hw.tied s.opposite).small msg ?_)
        rw [show d.pair.outgoing s.opposite = d.pair.incoming s from rfl, contents]
        exact List.mem_cons_self

omit [Handler η] in
/-- The turn of a writer leaves the other direction alone. -/
theorem Ordered.put_write (h : Ordered l d) {p : Memory.Pair} {k : Desk η}
    (hp : p.outgoing s.opposite = d.pair.outgoing s.opposite)
    (hk : k.chronicle.frames = (d.desk s).chronicle.frames)
    (hself : Follows l.maxMessageSize (d.desk s.opposite).chronicle.frames k (p.outgoing s)) :
    Ordered l (d.put s p k) := by
  have hother := h s.opposite
  rw [Side.opposite_opposite, ← hk, ← hp] at hother
  exact .put hself hother

theorem frames_sent (x : Chronicle η) (r : Except TransportError Unit) :
    (x.act (.sent r)).frames = x.frames := by
  rw [Chronicle.frames_act]
  exact List.append_nil _

omit [Handler η] in
theorem bounced?_sent {h : Host η} {o : Outbound} (hs : h.sending = some o) {err : TransportError}
    (herr : err.isTerminal = false) : h.bounced? (.sent (.error err)) = some (o, err) := by
  simp only [Host.bounced?, herr, hs]
  rfl

/-- A writer offers its message. -/
theorem Ordered.write_of_offer (h : Ordered l d) (hw : Linked l d w) {o : Outbound}
    (hk : (d.desk s).writing = .sending (.fresh o.bytes)) (hs : (d.desk s).host.sending = some o) :
    Ordered l (d.write s) := by
  have hsenders : (d.pair.outgoing s).senders = [] := (hw.tied s).senders_eq_nil (hk ▸ nofun)
  obtain ⟨hfed, hoffered⟩ := Memory.offered_send s (writerTicket s) o.bytes hsenders
  cases hoffered with
  | accepted progress size contents senders =>
      rw [write_of_sent hk progress]
      refine h.put_write hfed.incoming (frames_sent _ _) ?_
      exact (h s).offer hk hs contents (Chronicle.entrusted_of_none rfl rfl) nofun
  | blocked progress size contents senders =>
      rw [write_of_pending hk progress]
      exact h.put_write hfed.incoming rfl ((h s).offer hk hs contents rfl nofun)
  | tooLong size progress state =>
      rw [write_of_error hk progress, state]
      exact h.put_write rfl (frames_sent _ _) ((h s).refuse hk hs (bounced?_sent hs rfl))
  | broken broken progress state =>
      rw [write_of_error hk progress, state]
      refine h.put_write rfl (frames_sent _ _) ?_
      exact (h s).finish (Chronicle.entrusted_of_none rfl rfl) List.prefix_rfl

/-- A writer whose message waits looks whether it has found room. -/
theorem Ordered.write_of_blocked (h : Ordered l d) (hw : Linked l d w)
    (hk : (d.desk s).writing = .sending .blocked) : Ordered l (d.write s) := by
  obtain ⟨hfed, hresumed⟩ := Memory.resumed_send s (writerTicket s) d.pair
  cases hresumed with
  | done progress outgoing waits =>
      rw [write_of_sent hk progress]
      refine h.put_write hfed.incoming (frames_sent _ _) ?_
      rw [outgoing]
      refine (h s).same ?_ (Chronicle.entrusted_of_none rfl rfl) fun _ => hk ▸ nofun
      simp only [underway, Desk.unsent, hk]
  | broken broken progress outgoing =>
      rw [write_of_error hk progress]
      refine h.put_write hfed.incoming (frames_sent _ _) ?_
      rw [outgoing]
      refine (h s).finish (Chronicle.entrusted_of_none rfl rfl) ?_
      -- what has found room stays, and nobody else waits
      unfold Memory.Queue.contents
      rw [(hw.tied s).senders_withdraw]
      exact (List.append_nil _).symm ▸ List.prefix_append _ _
  | waits progress state waits =>
      rw [write_of_pending hk progress, state]
      refine h.put_write rfl rfl ((h s).same ?_ rfl fun _ => hk ▸ nofun)
      simp only [underway, Desk.unsent, hk]

/-- The turn of a writer. -/
theorem Ordered.write (h : Ordered l d) (hw : Linked l d w) (s : Side) : Ordered l (d.write s) := by
  have hwriting := (hw.tied s).writing
  unfold Desk.Writes at hwriting
  cases hk : (d.desk s).writing with
  | ended =>
      rw [write_of_ended hk]
      exact h
  | idle =>
      rw [hk] at hwriting
      cases hopen : (d.host s).endpoint.isOpen with
      | false =>
          rw [write_of_closed hk hopen]
          exact h.put_write rfl rfl ((h s).finish rfl List.prefix_rfl)
      | true =>
          cases hfirst : (d.host s).endpoint.outbound with
          | nil =>
              rw [write_of_none hk hopen hfirst]
              exact h
          | cons o rest =>
              rw [write_of_first hk hopen hfirst]
              refine h.put_write rfl ?_ ((h s).take hk hwriting hopen hfirst)
              rw [Chronicle.frames_act]
              exact List.append_nil _
  | sending op =>
      rw [hk] at hwriting
      cases op with
      | fresh msg =>
          obtain ⟨o, hs, rfl⟩ := hwriting
          exact h.write_of_offer hw hk hs
      | blocked => exact h.write_of_blocked hw hk

theorem Ordered.move (h : Ordered l d) (hw : Linked l d w) (m : Move η) :
    Ordered l (d.move m) := by
  cases m with
  | op s o => exact h.op s o
  | read s => exact h.read hw s
  | write s => exact h.write hw s
  | shut s =>
      simp only [Duo.move]
      split
      · exact h
      · exact fun s' => (h s').queue (by rw [Memory.Pair.outgoing_close])
  | release s =>
      simp only [Duo.move]
      split
      · exact fun s' => (h s').queue ((Memory.kept_drop s d.pair).2.2 s').1
      · exact h

end

theorem ordered_ofConfigs (l : ChannelLimits) (c : Side → Config) :
    Ordered l (ofConfigs l c : Duo η) := by
  intro s
  have hqueue : ((Memory.Pair.ofLimits l).outgoing s).contents = [] := by cases s <;> rfl
  refine ⟨?_, fun _ => ?_, fun _ hf => absurd hf List.not_mem_nil⟩
  · show [] ++ (((Memory.Pair.ofLimits l).outgoing s).contents ++ []) <+: []
    rw [hqueue]
    exact List.prefix_rfl
  · show [] ++ (((Memory.Pair.ofLimits l).outgoing s).contents ++ []) = []
    rw [hqueue]
    rfl

end Duo

end PeerRpc
