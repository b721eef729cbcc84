import Mathlib.Data.List.Basic
import PeerRpc.Channel.Link

/-!
# PeerRpc.Proofs.Memory.Contents -- what is in the queues of a pair

`Queue.contents` is everything that has been sent into a queue and has not been received, whether it
has found room or its sender still waits. For each operation of a pair there is one theorem that
says what can come of it: `Memory.received_recv`, `Memory.offered_send`, `Memory.resumed_send`.
Messages leave a queue in the order in which they entered it, and only a pair that has closed loses
any.
-/

namespace PeerRpc

/-- What a send on a link is on a pair. -/
def Link.Sending.onPair : Link.Sending → Memory.Sending
  | fresh msg => .fresh msg
  | memory op => op
  | stream _ => .blocked

/-- What a receive on a link is on a pair. -/
def Link.Receiving.onPair : Link.Receiving → Memory.Receiving
  | memory op => op
  | _ => .fresh

namespace Memory

/-! ## One queue -/

namespace Queue

/-- Everything that has been sent into a queue and not been received, the first to arrive first. -/
def contents (q : Queue) : List Bytes := q.messages ++ q.senders.map Prod.snd

theorem contents_letIn (extra : Nat) (q : Queue) : (q.letIn extra).1.contents = q.contents := by
  unfold letIn contents
  rw [List.append_assoc, ← List.map_append, List.take_append_drop]

/-- A queue after its first message, if there is one, has been taken. -/
structure Taken (q q' : Queue) (msg? : Option Bytes) : Prop where
  contents : q.contents = msg?.toList ++ q'.contents
  empty : msg? = none → q'.contents = []
  senders : ∀ x ∈ q'.senders, x ∈ q.senders
  cut : q'.cut = q.cut

/-- Where nobody is let in, nobody waits. -/
theorem contents_eq_nil {q : Queue} (h : (q.letIn 1).1.messages = []) :
    (q.letIn 1).1.contents = [] := by
  have hmoved : q.messages ++ (q.senders.take (q.capacity + 1 - q.messages.length)).map
      Prod.snd = [] := h
  obtain ⟨hm, hs⟩ := List.append_eq_nil_iff.mp hmoved
  -- one sender at least would be let in
  have hq : q.senders = [] := by
    rw [hm, List.map_eq_nil_iff, List.take_eq_nil_iff] at hs
    rcases hs with hs | hs
    · simp at hs
    · exact hs
  rw [contents_letIn, contents, hm, hq]
  rfl

theorem taken_take (q : Queue) : Taken q q.take.1 q.take.2.2 := by
  -- letting senders in moves messages inside the queue and changes nothing else
  have hcontents := contents_letIn 1 q
  have hsenders : ∀ x ∈ (q.letIn 1).1.senders, x ∈ q.senders :=
    fun x hx => List.mem_of_mem_drop hx
  have hcut : (q.letIn 1).1.cut = q.cut := rfl
  have hnil := contents_eq_nil (q := q)
  unfold take
  generalize q.letIn 1 = moved at hcontents hsenders hcut hnil
  obtain ⟨q', wakes⟩ := moved
  dsimp only at hcontents hsenders hcut hnil ⊢
  cases hm : q'.messages with
  | nil =>
      have hempty := hnil hm
      refine ⟨?_, fun _ => hempty, hsenders, hcut⟩
      exact hcontents.symm
  | cons msg rest =>
      refine ⟨?_, nofun, hsenders, hcut⟩
      rw [← hcontents, contents, hm]
      rfl

theorem contents_dismiss (q : Queue) (t : Ticket) (told : Bool) :
    (q.dismiss t told).1.contents = q.contents ∧ (q.dismiss t told).1.senders = q.senders ∧
      (q.dismiss t told).1.cut = q.cut := by
  unfold dismiss
  dsimp only
  split <;> exact ⟨rfl, rfl, rfl⟩

theorem contents_disconnect (q : Queue) :
    q.disconnect.1.contents = q.contents ∧ q.disconnect.1.cut = true ∧
      ∀ x ∈ q.disconnect.1.senders, x ∈ q.senders := by
  unfold disconnect
  split
  · next hcut => exact ⟨rfl, hcut, fun _ hx => hx⟩
  · exact ⟨contents_letIn 0 q, rfl, fun x hx => List.mem_of_mem_drop hx⟩

end Queue

/-! ## The pair -/

namespace Pair

@[simp] theorem outgoing_setOutgoing (p : Pair) (e : Side) (q : Queue) :
    (p.setOutgoing e q).outgoing e = q := by cases e <;> rfl

theorem outgoing_setOutgoing_ne (p : Pair) {e e' : Side} (h : e' ≠ e) (q : Queue) :
    (p.setOutgoing e q).outgoing e' = p.outgoing e' := by
  cases e <;> cases e' <;> first | rfl | exact absurd rfl h

@[simp] theorem limits_setOutgoing (p : Pair) (e : Side) (q : Queue) :
    (p.setOutgoing e q).limits = p.limits := by cases e <;> rfl

@[simp] theorem closed_setOutgoing (p : Pair) (e : Side) (q : Queue) :
    (p.setOutgoing e q).closed = p.closed := by cases e <;> rfl

@[simp] theorem outgoing_watch (p : Pair) (t : Ticket) (e : Side) :
    (p.watch t).outgoing e = p.outgoing e := by cases e <;> rfl

@[simp] theorem outgoing_unwatch (p : Pair) (t : Ticket) (e : Side) :
    (p.unwatch t).outgoing e = p.outgoing e := by cases e <;> rfl

@[simp] theorem outgoing_close (p : Pair) (e : Side) : p.close.1.outgoing e = p.outgoing e := by
  cases e <;> rfl

@[simp] theorem fired_watch (p : Pair) (t : Ticket) :
    (p.watch t).closed.fired = p.closed.fired := by
  unfold watch Latch.wait
  dsimp only
  split <;> rfl

@[simp] theorem fired_unwatch (p : Pair) (t : Ticket) :
    (p.unwatch t).closed.fired = p.closed.fired := rfl

@[simp] theorem fired_close (p : Pair) : p.close.1.closed.fired = true := rfl

@[simp] theorem limits_watch (p : Pair) (t : Ticket) : (p.watch t).limits = p.limits := rfl

@[simp] theorem limits_unwatch (p : Pair) (t : Ticket) : (p.unwatch t).limits = p.limits := rfl

@[simp] theorem limits_close (p : Pair) : p.close.1.limits = p.limits := rfl

theorem opposite_ne (e : Side) : e.opposite ≠ e := by cases e <;> decide

@[simp] theorem outgoing_setIncoming (p : Pair) (e : Side) (q : Queue) :
    (p.setIncoming e q).outgoing e = p.outgoing e :=
  p.outgoing_setOutgoing_ne (opposite_ne e).symm q

@[simp] theorem incoming_setIncoming (p : Pair) (e : Side) (q : Queue) :
    (p.setIncoming e q).incoming e = q := p.outgoing_setOutgoing e.opposite q

@[simp] theorem limits_setIncoming (p : Pair) (e : Side) (q : Queue) :
    (p.setIncoming e q).limits = p.limits := p.limits_setOutgoing e.opposite q

@[simp] theorem closed_setIncoming (p : Pair) (e : Side) (q : Queue) :
    (p.setIncoming e q).closed = p.closed := p.closed_setOutgoing e.opposite q

@[simp] theorem incoming_setOutgoing (p : Pair) (e : Side) (q : Queue) :
    (p.setOutgoing e q).incoming e = p.incoming e :=
  p.outgoing_setOutgoing_ne (opposite_ne e) q

@[simp] theorem incoming_watch (p : Pair) (t : Ticket) (e : Side) :
    (p.watch t).incoming e = p.incoming e := p.outgoing_watch t e.opposite

@[simp] theorem incoming_unwatch (p : Pair) (t : Ticket) (e : Side) :
    (p.unwatch t).incoming e = p.incoming e := p.outgoing_unwatch t e.opposite

@[simp] theorem incoming_close (p : Pair) (e : Side) : p.close.1.incoming e = p.incoming e :=
  p.outgoing_close e.opposite

end Pair

/-! ## Receiving -/

/-- A pair after a receiver at the end `e` has taken its turn. -/
structure Drained (e : Side) (p p' : Pair) : Prop where
  limits : p'.limits = p.limits
  outgoing : p'.outgoing e = p.outgoing e
  senders : ∀ x ∈ (p'.incoming e).senders, x ∈ (p.incoming e).senders
  cut : (p'.incoming e).cut = (p.incoming e).cut
  /-- The pair closes only if the other end has gone. -/
  fired : p'.closed.fired = p.closed.fired ∨ p'.closed.fired = true ∧ (p.incoming e).cut = true

/-- What can come of a receive. -/
inductive Received (e : Side) (p : Pair) (r : Try Pair Receiving (Except TransportError Bytes)) :
    Prop
  /-- The first message is received. -/
  | message (msg : Bytes) (progress : r.progress = .done (.ok msg))
      (contents : (p.incoming e).contents = msg :: (r.state.incoming e).contents)
  /-- The pair has closed, and there is no message left. -/
  | failed (err : TransportError) (progress : r.progress = .done (.error err))
      (broken : p.closed.fired = true ∨ (p.incoming e).cut = true)
      (contents : (r.state.incoming e).contents = (p.incoming e).contents)
  /-- There is no message. -/
  | waits (op : Receiving) (progress : r.progress = .pending op)
      (whole : p.closed.fired = false) (empty : (p.incoming e).contents = [])
      (contents : (r.state.incoming e).contents = (p.incoming e).contents)

theorem received_recv (e : Side) (t : Ticket) (op : Receiving) (p : Pair) :
    Drained e p (recv e t op p).state ∧ Received e p (recv e t op p) := by
  have htaken := (p.incoming e).taken_take
  unfold recv
  generalize (p.incoming e).take = taken at htaken
  obtain ⟨q, wakes, msg?⟩ := taken
  dsimp only at htaken ⊢
  obtain ⟨hcontents, hsenders, hcut⟩ := q.contents_dismiss t (op.isTold (p.incoming e) t)
  have hcut' := hcut.trans htaken.cut
  have hsenders' : ∀ x ∈ (q.dismiss t (op.isTold (p.incoming e) t)).1.senders,
      x ∈ (p.incoming e).senders := hsenders ▸ htaken.senders
  cases msg? with
  | some msg =>
      refine ⟨⟨by simp [Try.done], by simp [Try.done], ?_, ?_, Or.inl (by simp [Try.done])⟩,
        .message msg rfl ?_⟩
      · simpa [Try.done] using hsenders'
      · simpa [Try.done] using hcut'
      · simpa [Try.done, hcontents] using htaken.contents
  | none =>
      have hempty := htaken.empty rfl
      have hsame : q.contents = (p.incoming e).contents := htaken.contents.symm
      dsimp only
      -- an empty queue whose other end has gone is told apart from a pair that is closed
      by_cases hq : q.cut = true
      · have hbroken : (p.incoming e).cut = true := htaken.cut ▸ hq
        rw [if_pos hq]
        refine ⟨⟨by simp [Try.done], by simp [Try.done], ?_, ?_, Or.inr ⟨rfl, hbroken⟩⟩,
          .failed .closed rfl (Or.inr hbroken) ?_⟩
        · simpa [Try.done] using hsenders'
        · simpa [Try.done] using hcut'
        · simpa [Try.done, hcontents] using hsame
      · rw [if_neg hq]
        by_cases hfired : p.closed.fired = true
        · rw [if_pos hfired]
          refine ⟨⟨by simp [Try.done], by simp [Try.done], ?_, ?_, Or.inl (by simp [Try.done])⟩,
            .failed .closed rfl (Or.inl hfired) ?_⟩
          · simpa [Try.done] using hsenders'
          · simpa [Try.done] using hcut'
          · simpa [Try.done, hcontents] using hsame
        · -- the receiver joins those that wait
          rw [if_neg hfired]
          refine ⟨⟨by simp [Try.pending], by simp [Try.pending], ?_, ?_,
            Or.inl (by simp [Try.pending])⟩,
            .waits _ rfl (Bool.eq_false_iff.mpr hfired) (hsame ▸ hempty) ?_⟩
          · simpa [Try.pending] using htaken.senders
          · simpa [Try.pending] using htaken.cut
          · simpa [Try.pending, Queue.contents] using hsame

theorem drained_abandonRecv (e : Side) (t : Ticket) (op : Receiving) (p : Pair) :
    Drained e p (abandonRecv e t op p).1 ∧
      ((abandonRecv e t op p).1.incoming e).contents = (p.incoming e).contents := by
  obtain ⟨hcontents, hsenders, hcut⟩ :=
    (p.incoming e).contents_dismiss t (op.isTold (p.incoming e) t)
  unfold abandonRecv
  dsimp only
  refine ⟨⟨by simp, by simp, ?_, ?_, Or.inl (by simp)⟩, ?_⟩
  · rw [Pair.incoming_unwatch, Pair.incoming_setIncoming, hsenders]
    exact fun x hx => hx
  · rw [Pair.incoming_unwatch, Pair.incoming_setIncoming, hcut]
  · rw [Pair.incoming_unwatch, Pair.incoming_setIncoming, hcontents]

/-! ## Sending -/

/-- A pair after a sender at the end `e` has taken its turn. -/
structure Fed (e : Side) (p p' : Pair) : Prop where
  limits : p'.limits = p.limits
  incoming : p'.incoming e = p.incoming e
  cut : (p'.outgoing e).cut = (p.outgoing e).cut
  fired : p'.closed.fired = p.closed.fired

/-- What can come of a message that is offered. -/
inductive Offered (e : Side) (t : Ticket) (msg : Bytes) (p : Pair)
    (r : Try Pair Sending (Except TransportError Unit)) : Prop
  /-- It finds room, or a receiver. -/
  | accepted (progress : r.progress = .done (.ok ())) (size : msg.length ≤ p.limits.maxMessageSize)
      (contents : (r.state.outgoing e).contents = (p.outgoing e).contents ++ [msg])
      (senders : (r.state.outgoing e).senders = [])
  /-- Its sender waits. -/
  | blocked (progress : r.progress = .pending .blocked)
      (size : msg.length ≤ p.limits.maxMessageSize)
      (contents : (r.state.outgoing e).contents = (p.outgoing e).contents ++ [msg])
      (senders : (r.state.outgoing e).senders = [(t, msg)])
  | tooLong (size : p.limits.maxMessageSize < msg.length)
      (progress : r.progress = .done (.error (.frameTooLarge msg.length p.limits.maxMessageSize)))
      (state : r.state = p)
  /-- The pair has closed. -/
  | broken (broken : p.closed.fired = true ∨ (p.outgoing e).cut = true)
      (progress : r.progress = .done (.error .closed)) (state : r.state = p)

/-- What can come of a message whose sender waits. -/
inductive Resumed (e : Side) (t : Ticket) (p : Pair)
    (r : Try Pair Sending (Except TransportError Unit)) : Prop
  /-- It has found room. -/
  | done (progress : r.progress = .done (.ok ())) (outgoing : r.state.outgoing e = p.outgoing e)
      (waits : (p.outgoing e).isWaiting t = false)
  /-- The pair has closed. -/
  | broken (broken : p.closed.fired = true ∨ (p.outgoing e).cut = true)
      (progress : r.progress = .done (.error .closed))
      (outgoing : r.state.outgoing e = (p.outgoing e).withdraw t)
  | waits (progress : r.progress = .pending .blocked) (state : r.state = p)
      (waits : (p.outgoing e).isWaiting t = true)

theorem offered_send (e : Side) (t : Ticket) (msg : Bytes) {p : Pair}
    (h : (p.outgoing e).senders = []) :
    Fed e p (send e t (.fresh msg) p).state ∧ Offered e t msg p (send e t (.fresh msg) p) := by
  have hsame : Fed e p p := ⟨rfl, rfl, rfl, rfl⟩
  -- a sender looks at the pair, the size of its message, the other end, and then for room
  unfold send
  dsimp only
  by_cases hfired : p.closed.fired = true
  · rw [if_pos hfired]
    exact ⟨hsame, .broken (Or.inl hfired) rfl rfl⟩
  · rw [if_neg hfired]
    unfold ChannelLimits.checkSize
    by_cases hsize : p.limits.maxMessageSize < msg.length
    · rw [if_pos hsize]
      exact ⟨hsame, .tooLong hsize rfl rfl⟩
    · rw [if_neg hsize]
      have hle := Nat.not_lt.mp hsize
      dsimp only
      unfold Queue.offer
      by_cases hcut : (p.outgoing e).cut = true
      · rw [if_pos hcut]
        exact ⟨hsame, .broken (Or.inr hcut) rfl rfl⟩
      · rw [if_neg hcut]
        cases hreceivers : (p.outgoing e).receivers with
        | cons r rest =>
            refine ⟨⟨by simp [Try.done], by simp [Try.done], by simp [Try.done],
              by simp [Try.done]⟩, .accepted rfl hle ?_ ?_⟩
            · simp [Try.done, Queue.contents, h]
            · simp [Try.done, h]
        | nil =>
            dsimp only
            by_cases hroom : (p.outgoing e).messages.length < (p.outgoing e).capacity
            · rw [if_pos hroom]
              refine ⟨⟨by simp [Try.done], by simp [Try.done], by simp [Try.done],
                by simp [Try.done]⟩, .accepted rfl hle ?_ ?_⟩
              · simp [Try.done, Queue.contents, h]
              · simp [Try.done, h]
            · rw [if_neg hroom]
              refine ⟨⟨by simp [Try.pending], by simp [Try.pending], by simp [Try.pending],
                by simp [Try.pending]⟩, .blocked rfl hle ?_ ?_⟩
              · simp [Try.pending, Queue.contents, h]
              · simp [Try.pending, h]

theorem resumed_send (e : Side) (t : Ticket) (p : Pair) :
    Fed e p (send e t .blocked p).state ∧ Resumed e t p (send e t .blocked p) := by
  have hwithdraw : ((p.outgoing e).withdraw t).cut = (p.outgoing e).cut := rfl
  unfold send
  dsimp only
  by_cases hfired : p.closed.fired = true
  · rw [if_pos hfired]
    refine ⟨⟨by simp [Try.done], by simp [Try.done], by simp [Try.done, hwithdraw],
      by simp [Try.done]⟩, .broken (Or.inl hfired) rfl (by simp [Try.done])⟩
  · rw [if_neg hfired]
    cases hwaits : (p.outgoing e).isWaiting t with
    | false =>
        -- a receiver has let it in
        refine ⟨⟨by simp [Try.done], by simp [Try.done], by simp [Try.done], by simp [Try.done]⟩,
          .done rfl (by simp [Try.done]) hwaits⟩
    | true =>
        simp only [Bool.not_true, Bool.false_eq_true, if_false]
        by_cases hcut : (p.outgoing e).cut = true
        · rw [if_pos hcut]
          refine ⟨⟨by simp [Try.done], by simp [Try.done], by simp [Try.done, hwithdraw],
            by simp [Try.done]⟩, .broken (Or.inr hcut) rfl (by simp [Try.done])⟩
        · rw [if_neg hcut]
          exact ⟨⟨rfl, rfl, rfl, rfl⟩, .waits rfl rfl hwaits⟩

/-! ## Letting go -/

/-- Letting go of an end closes the pair and takes no message away. -/
theorem kept_drop (e : Side) (p : Pair) :
    (p.drop e).1.limits = p.limits ∧ (p.drop e).1.closed.fired = true ∧
      ∀ e', ((p.drop e).1.outgoing e').contents = (p.outgoing e').contents ∧
        ∀ x ∈ ((p.drop e).1.outgoing e').senders, x ∈ (p.outgoing e').senders := by
  have hout : (p.drop e).1.outgoing e = (p.outgoing e).disconnect.1 := by simp [Pair.drop]
  have hinc : (p.drop e).1.incoming e = (p.incoming e).disconnect.1 := by simp [Pair.drop]
  refine ⟨by simp [Pair.drop], by simp [Pair.drop], fun e' => ?_⟩
  by_cases he : e' = e
  · subst he
    obtain ⟨hcontents, -, hsenders⟩ := (p.outgoing e').contents_disconnect
    rw [hout]
    exact ⟨hcontents, hsenders⟩
  · obtain rfl : e' = e.opposite := by
      cases e <;> cases e' <;> first | rfl | exact absurd rfl he
    obtain ⟨hcontents, -, hsenders⟩ := (p.incoming e).contents_disconnect
    have hinc' : (p.drop e).1.outgoing e.opposite = (p.incoming e).disconnect.1 := hinc
    rw [hinc']
    exact ⟨hcontents, hsenders⟩

end Memory

end PeerRpc
