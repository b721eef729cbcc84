import PeerRpc.Proofs.Memory.Contents

/-!
# PeerRpc.Proofs.Memory.Passage -- how messages pass through a queue

`Queue.Passes` is one go at a queue: some of the senders that wait are let in, from the front, and a
message is taken, also from the front. Whatever a task does to a queue is such a go, with other
senders waiting if one has come or left. The queue stays `Queue.Orderly`: senders wait for want of
room only, so nobody who comes later is let in before them, and a queue that is disconnected lets
nobody in any more.
-/

namespace PeerRpc

namespace Memory

/-! ## One queue -/

namespace Queue

variable {q q' q'' : Queue} {waiting moved : List (Ticket × Bytes)} {taken : Option Bytes}

/-- Senders wait for want of room, and not while a receiver waits. -/
def Orderly (q : Queue) : Prop :=
  q.senders ≠ [] → q.receivers = [] ∧ q.capacity ≤ q.messages.length

/-- One go at a queue. Of the senders that are waiting the first are moved in, and a message is
taken if there is one. -/
structure Passes (q : Queue) (waiting moved : List (Ticket × Bytes)) (taken : Option Bytes)
    (q' : Queue) : Prop where
  senders : waiting = moved ++ q'.senders
  messages : q.messages ++ moved.map Prod.snd = taken.toList ++ q'.messages
  orderly : q'.Orderly

/-- Two queues that differ in the receivers that wait, or in whether they are cut. -/
structure Alike (q q' : Queue) : Prop where
  capacity : q'.capacity = q.capacity
  messages : q'.messages = q.messages
  senders : q'.senders = q.senders
  receivers : q.receivers = [] → q'.receivers = []

theorem Alike.refl (q : Queue) : Alike q q := ⟨rfl, rfl, rfl, id⟩

theorem Alike.orderly (h : Alike q q') (hq : q.Orderly) : q'.Orderly := by
  intro hne
  rw [h.senders] at hne
  obtain ⟨hreceivers, hroom⟩ := hq hne
  rw [h.capacity, h.messages]
  exact ⟨h.receivers hreceivers, hroom⟩

/-- Nothing passes. -/
theorem Alike.passes (h : Alike q q') (hq : q.Orderly) : q.Passes q.senders [] none q' := by
  refine ⟨h.senders.symm, ?_, h.orderly hq⟩
  rw [h.messages]
  exact List.append_nil _

theorem Passes.alike (h : q.Passes waiting moved taken q') (hq : Alike q' q'') :
    q.Passes waiting moved taken q'' := by
  refine ⟨?_, ?_, hq.orderly h.orderly⟩
  · rw [hq.senders]
    exact h.senders
  · rw [hq.messages]
    exact h.messages

/-- Where nobody joins, leaves or is let in, and nothing is taken, the queue is as it was. -/
theorem Passes.same (h : q.Passes q.senders [] none q') :
    q'.messages = q.messages ∧ q'.senders = q.senders :=
  ⟨h.messages.symm.trans (List.append_nil _), h.senders.symm⟩

theorem alike_dismiss (q : Queue) (t : Ticket) (told : Bool) : Alike q (q.dismiss t told).1 := by
  have hfilter : q.receivers = [] → q.receivers.filter (· ≠ t) = [] := fun h => by rw [h]; rfl
  unfold dismiss
  dsimp only
  split
  · exact ⟨rfl, rfl, rfl, fun _ => rfl⟩
  · exact ⟨rfl, rfl, rfl, hfilter⟩

/-- There is no room for senders that wait. -/
theorem Orderly.letIn_zero (h : q.Orderly) : (q.letIn 0).1 = q := by
  have hmoved : q.senders.take (q.capacity + 0 - q.messages.length) = [] := by
    by_cases hs : q.senders = []
    · rw [hs, List.take_nil]
    · have hfull : q.capacity + 0 - q.messages.length = 0 := Nat.sub_eq_zero_of_le (h hs).2
      rw [hfull, List.take_zero]
  have hleft : q.senders.drop (q.capacity + 0 - q.messages.length) = q.senders := by
    have hwhole := List.take_append_drop (q.capacity + 0 - q.messages.length) q.senders
    rwa [hmoved, List.nil_append] at hwhole
  unfold letIn
  dsimp only
  rw [hmoved, hleft, List.map_nil, List.append_nil]

theorem alike_disconnect (h : q.Orderly) : Alike q q.disconnect.1 := by
  unfold disconnect
  split
  · exact .refl q
  · have hsame := h.letIn_zero
    generalize q.letIn 0 = r at hsame
    obtain ⟨q', wakes⟩ := r
    obtain rfl : q' = q := hsame
    exact ⟨rfl, rfl, rfl, id⟩

/-- A sender leaves. -/
theorem passes_withdraw (h : q.Orderly) (t : Ticket) :
    q.Passes (q.senders.filter fun x => x.1 ≠ t) [] none (q.withdraw t) := by
  refine ⟨rfl, List.append_nil _, fun hne => h fun hno => hne ?_⟩
  show q.senders.filter _ = []
  rw [hno, List.filter_nil]

/-- A queue with senders that still wait after one more than the capacity was let in is full. -/
theorem Orderly.letIn_one (h : q.Orderly) : (q.letIn 1).1.senders ≠ [] →
    q.receivers = [] ∧ q.capacity < (q.letIn 1).1.messages.length := by
  intro hne
  have hleft : q.senders.drop (q.capacity + 1 - q.messages.length) ≠ [] := hne
  have hmore : q.capacity + 1 - q.messages.length < q.senders.length := by
    by_contra hno
    exact hleft (List.drop_eq_nil_of_le (Nat.not_lt.mp hno))
  have hsenders : q.senders ≠ [] := List.ne_nil_of_length_pos (Nat.zero_lt_of_lt hmore)
  refine ⟨(h hsenders).1, ?_⟩
  show q.capacity < (q.messages ++ (q.senders.take _).map Prod.snd).length
  rw [List.length_append, List.length_map, List.length_take]
  omega

/-- The first message is taken. -/
theorem passes_take (h : q.Orderly) : ∃ moved, q.Passes q.senders moved q.take.2.2 q.take.1 := by
  refine ⟨q.senders.take (q.capacity + 1 - q.messages.length), ?_⟩
  have hsenders : q.senders.take (q.capacity + 1 - q.messages.length) ++ (q.letIn 1).1.senders =
      q.senders := List.take_append_drop _ _
  have hmessages : (q.letIn 1).1.messages =
      q.messages ++ (q.senders.take (q.capacity + 1 - q.messages.length)).map Prod.snd := rfl
  have hcapacity : (q.letIn 1).1.capacity = q.capacity := rfl
  have hreceivers : (q.letIn 1).1.receivers = q.receivers := rfl
  have hone := h.letIn_one
  unfold take
  generalize q.letIn 1 = r at hsenders hmessages hcapacity hreceivers hone
  obtain ⟨q', wakes⟩ := r
  dsimp only at hsenders hmessages hcapacity hreceivers hone ⊢
  cases hm : q'.messages with
  | nil =>
      refine ⟨hsenders.symm, hmessages.symm, fun hne => ?_⟩
      · obtain ⟨-, hfull⟩ := hone hne
        rw [hm] at hfull
        exact absurd hfull (Nat.not_lt_zero _)
  | cons msg rest =>
      refine ⟨hsenders.symm, ?_, fun hne => ?_⟩
      · rw [← hmessages, hm]
        rfl
      · obtain ⟨hnone, hfull⟩ := hone hne
        rw [hm] at hfull
        exact ⟨hreceivers.trans hnone, hcapacity.symm ▸ Nat.le_of_lt_succ hfull⟩

/-- What comes of an offer. Nobody waits when a message enters at once. -/
inductive Offers (q : Queue) (t : Ticket) (msg : Bytes) : Queue × List Ticket × Offer → Prop
  | refused (wakes : List Ticket) : Offers q t msg (q, wakes, .refused)
  | enters (q' : Queue) (wakes : List Ticket)
      (passes : q.Passes (q.senders ++ [(t, msg)]) (q.senders ++ [(t, msg)]) none q') :
      Offers q t msg (q', wakes, .accepted)
  | waits (q' : Queue) (wakes : List Ticket)
      (passes : q.Passes (q.senders ++ [(t, msg)]) [] none q') : Offers q t msg (q', wakes, .blocked)

theorem offers_offer (h : q.Orderly) (t : Ticket) (msg : Bytes) :
    q.Offers t msg (q.offer t msg) := by
  -- a message enters at once if a receiver waits or there is room, so if no sender waits
  have hfront {q' : Queue} (hs : q.senders = []) (hs' : q'.senders = q.senders)
      (hm' : q'.messages = q.messages ++ [msg]) :
      q.Passes (q.senders ++ [(t, msg)]) (q.senders ++ [(t, msg)]) none q' := by
    refine ⟨?_, ?_, fun hne => absurd (hs'.trans hs) hne⟩
    · rw [hs', hs]
      rfl
    · rw [hm', hs]
      rfl
  unfold offer
  split
  · exact .refused []
  · split
    · next r rest hreceivers =>
        refine .enters _ _ (hfront ?_ rfl rfl)
        by_contra hne
        have hnone := (h hne).1
        rw [hreceivers] at hnone
        cases hnone
    · next hreceivers =>
        split
        · next hroom =>
            refine .enters _ _ (hfront ?_ rfl rfl)
            by_contra hne
            exact absurd hroom (Nat.not_lt.mpr (h hne).2)
        · next hfull =>
            exact .waits _ _ ⟨rfl, List.append_nil _, fun _ => ⟨hreceivers, Nat.not_lt.mp hfull⟩⟩

end Queue

/-! ## The pair -/

variable {e : Side} {p : Pair}

/-- What can come of a message that is offered, others waiting or not. -/
inductive Sent (e : Side) (t : Ticket) (msg : Bytes) (p : Pair)
    (r : Try Pair Sending (Except TransportError Unit)) : Prop
  /-- Nothing happens to the pair. If it has closed, this is what the sender is told. -/
  | refused (err : TransportError) (progress : r.progress = .done (.error err))
      (state : r.state = p) (broken : p.closed.fired = true → err = .closed)
  /-- The message enters the queue. -/
  | enters (whole : p.closed.fired = false) (progress : r.progress = .done (.ok ()))
      (passes : (p.outgoing e).Passes ((p.outgoing e).senders ++ [(t, msg)])
        ((p.outgoing e).senders ++ [(t, msg)]) none (r.state.outgoing e))
  /-- The message waits behind those of others. -/
  | waits (whole : p.closed.fired = false) (progress : r.progress = .pending .blocked)
      (passes : (p.outgoing e).Passes ((p.outgoing e).senders ++ [(t, msg)]) [] none
        (r.state.outgoing e))

theorem sent_send (h : (p.outgoing e).Orderly) (t : Ticket) (msg : Bytes) :
    ((send e t (.fresh msg) p).state.incoming e = p.incoming e ∧
      (send e t (.fresh msg) p).state.closed.fired = p.closed.fired) ∧
      Sent e t msg p (send e t (.fresh msg) p) := by
  have hoffers := Queue.offers_offer h t msg
  unfold send
  dsimp only
  by_cases hfired : p.closed.fired = true
  · rw [if_pos hfired]
    exact ⟨⟨rfl, rfl⟩, .refused .closed rfl rfl fun _ => rfl⟩
  · rw [if_neg hfired]
    have hwhole := Bool.eq_false_iff.mpr hfired
    cases hsize : p.limits.checkSize msg.length with
    | error err => exact ⟨⟨rfl, rfl⟩, .refused err rfl rfl fun hno => absurd hno hfired⟩
    | ok =>
        dsimp only
        generalize (p.outgoing e).offer t msg = offered at hoffers
        cases hoffers with
        | refused wakes => exact ⟨⟨rfl, rfl⟩, .refused .closed rfl rfl fun _ => rfl⟩
        | enters q' wakes hpasses =>
            refine ⟨⟨by simp [Try.done], by simp [Try.done]⟩, .enters hwhole rfl ?_⟩
            simpa [Try.done] using hpasses
        | waits q' wakes hpasses =>
            refine ⟨⟨by simp [Try.pending], by simp [Try.pending]⟩, .waits hwhole rfl ?_⟩
            simpa [Try.pending] using hpasses

/-- What can come of a receive: a message, or else there is none, neither in the queue nor beside
it. -/
inductive Fetched (e : Side) (p : Pair) (r : Try Pair Receiving (Except TransportError Bytes)) :
    Prop
  | message (msg : Bytes) (moved : List (Ticket × Bytes)) (progress : r.progress = .done (.ok msg))
      (passes : (p.incoming e).Passes (p.incoming e).senders moved (some msg) (r.state.incoming e))
  | closed (progress : r.progress = .done (.error .closed)) (empty : (p.incoming e).contents = [])
      (passes : (p.incoming e).Passes (p.incoming e).senders [] none (r.state.incoming e))
  | waits (op : Receiving) (progress : r.progress = .pending op)
      (passes : (p.incoming e).Passes (p.incoming e).senders [] none (r.state.incoming e))

theorem fetched_recv (h : (p.incoming e).Orderly) (t : Ticket) (op : Receiving) :
    Fetched e p (recv e t op p) := by
  obtain ⟨moved, hpasses⟩ := Queue.passes_take h
  have htaken := (p.incoming e).taken_take
  unfold recv
  generalize (p.incoming e).take = taken at hpasses htaken
  obtain ⟨q, wakes, msg?⟩ := taken
  dsimp only at hpasses htaken ⊢
  have hdismissed := q.alike_dismiss t (op.isTold (p.incoming e) t)
  cases msg? with
  | some msg =>
      refine .message msg moved rfl ?_
      simpa [Try.done] using hpasses.alike hdismissed
  | none =>
      -- nobody was let in, for otherwise there would be a message
      have hempty : (p.incoming e).contents = [] := htaken.contents.trans (htaken.empty rfl)
      have hsenders : (p.incoming e).senders = [] :=
        List.map_eq_nil_iff.mp (List.append_eq_nil_iff.mp hempty).2
      obtain rfl : moved = [] := by
        have hnone := hpasses.senders
        rw [hsenders] at hnone
        exact (List.append_eq_nil_iff.mp hnone.symm).1
      dsimp only
      by_cases hq : q.cut = true
      · rw [if_pos hq]
        refine .closed rfl hempty ?_
        simpa [Try.done] using hpasses.alike hdismissed
      · rw [if_neg hq]
        by_cases hfired : p.closed.fired = true
        · rw [if_pos hfired]
          refine .closed rfl hempty ?_
          simpa [Try.done] using hpasses.alike hdismissed
        · rw [if_neg hfired]
          have hnobody : q.senders = [] := (hsenders ▸ hpasses.senders).symm
          refine .waits _ rfl ⟨?_, ?_, fun hne => ?_⟩
          · simpa [Try.pending] using hpasses.senders
          · simpa [Try.pending] using hpasses.messages
          · exact absurd (by simpa [Try.pending] using hnobody) hne

/-- A receive that is taken back. -/
theorem passes_abandonRecv (h : (p.incoming e).Orderly) (t : Ticket) (op : Receiving) :
    (p.incoming e).Passes (p.incoming e).senders [] none ((abandonRecv e t op p).1.incoming e) := by
  unfold abandonRecv
  dsimp only
  rw [Pair.incoming_unwatch, Pair.incoming_setIncoming]
  exact ((p.incoming e).alike_dismiss t _).passes h

/-- **A pair of which an end is let go of** keeps its messages, and lets nobody in. -/
theorem passes_drop (h : ∀ e, (p.outgoing e).Orderly) (e e' : Side) :
    (p.outgoing e').Passes (p.outgoing e').senders [] none ((p.drop e).1.outgoing e') := by
  have hout : (p.drop e).1.outgoing e = (p.outgoing e).disconnect.1 := by simp [Pair.drop]
  have hinc : (p.drop e).1.outgoing e.opposite = (p.outgoing e.opposite).disconnect.1 := by
    have hsame : (p.drop e).1.incoming e = (p.incoming e).disconnect.1 := by simp [Pair.drop]
    exact hsame
  refine Queue.Alike.passes ?_ (h e')
  by_cases he : e' = e
  · subst he
    rw [hout]
    exact Queue.alike_disconnect (h e')
  · obtain rfl : e' = e.opposite := by
      cases e <;> cases e' <;> first | rfl | exact absurd rfl he
    rw [hinc]
    exact Queue.alike_disconnect (h e.opposite)

end Memory

end PeerRpc
