import PeerRpc.Proofs.Endpoint.Regular

/-!
# PeerRpc.Proofs.Endpoint.Results -- the result that each operation gives to a call that waits

For an operation that settles calls there is one equation that says which call gets which result.
The others settle none (`resultFor?_of_silent`). A call takes the first result that there is for its
id (`Call.delivered_hears`).
-/

namespace PeerRpc

variable {η : Type}

/-- Events that settle nothing give no call a result. -/
theorem resultFor?_of_silent {events : List (Event η)} (h : settledIn events = [])
    (id : RequestId) : resultFor? events id = none := by
  rw [resultFor?_eq_none_iff, h]
  exact List.not_mem_nil

/-! ## What a call makes of events -/

@[simp] theorem Call.id_hear (c : Call) (x : Event η) : (c.hear x).id = c.id := by
  unfold Call.hear
  split
  · split <;> rfl
  · rfl

theorem Call.delivered_hear (c : Call) (x : Event η) :
    (c.hear x).delivered = c.delivered.or (c.id.bind fun id => x.settles? id) := by
  obtain ⟨cid, limit, started, delivered, settled⟩ := c
  cases x with
  | settled id r =>
      by_cases h : cid = some id
      · subst h
        simp [Call.hear, Call.deliver, Event.settles?]
      · have hnone : (cid.bind fun id' => (Event.settled id r : Event η).settles? id') = none := by
          cases cid with
          | none => rfl
          | some id' =>
              have h' : ¬ id = id' := fun hid => h (congrArg some hid.symm)
              simp [Event.settles?, h']
        simp only [hnone, Call.hear, if_neg h]
        cases delivered <;> rfl
  | _ => cases delivered <;> cases cid <;> rfl

/-- A call keeps its id, whatever happens. -/
@[simp] theorem Call.id_hears (c : Call) (events : List (Event η)) :
    (events.foldl Call.hear c).id = c.id := by
  induction events generalizing c with
  | nil => rfl
  | cons x rest ih => exact (ih (c.hear x)).trans (c.id_hear x)

theorem resultFor?_cons (x : Event η) (rest : List (Event η)) (id : RequestId) :
    resultFor? (x :: rest) id = (x.settles? id).or (resultFor? rest id) := by
  unfold resultFor?
  rw [List.findSome?_cons]
  cases x.settles? id <;> rfl

/-- A call that has no result gets the first one that the events have for its id. -/
theorem Call.delivered_hears (c : Call) (events : List (Event η)) :
    (events.foldl Call.hear c).delivered = c.delivered.or (c.id.bind (resultFor? events)) := by
  induction events generalizing c with
  | nil =>
      obtain ⟨cid, limit, started, delivered, settled⟩ := c
      cases cid <;> cases delivered <;> rfl
  | cons x rest ih =>
      rw [List.foldl_cons, ih, c.delivered_hear, c.id_hear]
      cases c.id with
      | none => cases c.delivered <;> rfl
      | some id =>
          simp only [Option.bind_some, resultFor?_cons]
          cases c.delivered <;> cases x.settles? id <;> rfl

/-! ## The operations -/

namespace Endpoint

@[simp] theorem settledIn_enqueue (e : Endpoint η) (o : Outbound) :
    settledIn (e.enqueue o).2 = [] := by
  rw [enqueue_snd]
  split <;> rfl

@[simp] theorem settledIn_fire (e : Endpoint η) (serial : Nat) :
    settledIn (e.fire serial).2 = [] := by
  rcases fire_snd e serial with h | h <;> rw [h] <;> rfl

@[simp] theorem settledIn_finish (e : Endpoint η) (serial : Nat) (o : Outcome) :
    settledIn (e.finish serial o).2 = [] := by
  rcases e.finish_cases serial o with heq | ⟨id, heq⟩
  · rw [heq]
    rfl
  · rw [heq]
    exact settledIn_enqueue _ _

theorem settledIn_notifyProxy {e : Endpoint η} {proxy : ProxyId} {method : String}
    {args : List Value} {s : Step η} (h : e.notifyProxy proxy method args = .ok s) :
    settledIn s.2 = [] := by
  obtain ⟨-, rfl⟩ := notifyProxy_eq_ok h
  exact settledIn_enqueue _ _

theorem settledIn_notify {e : Endpoint η} {i : Identifier} {method : String}
    {args : List Value} {s : Step η} (h : e.notify i method args = .ok s) :
    settledIn s.2 = [] :=
  settledIn_notifyProxy (notify_eq_ok h)

section Waiting

variable {e : Endpoint η} {id : RequestId} {proxy : ProxyId}
  (hfind : e.pending.find? (fun p => p.1 = id) = some (id, proxy))

include hfind

theorem mem_waiting_of_find? : id ∈ e.waiting := by
  rw [← find?_pending_isSome, hfind]
  rfl

/-- A call that waits gets the result with which its id is settled. -/
theorem resultFor?_settle_of_find? (id' : RequestId) (r : ProxyId → CallResult) :
    resultFor? (e.settle id' r).2 id = if id' = id then some (r proxy) else none := by
  rw [resultFor?_settle]
  by_cases h : id' = id
  · subst h
    rw [if_pos rfl, if_pos rfl, hfind]
    rfl
  · rw [if_neg h, if_neg h]

theorem resultFor?_cancelRequest (id' : RequestId) (reason : CallError) :
    resultFor? (e.cancelRequest id' reason).2.2 id =
      if id' = id then some (.error reason) else none := by
  by_cases h : id' ∈ e.waiting
  · rw [cancelRequest_of_waiting h]
    show resultFor? ((e.settle id' fun _ => .error reason).2 ++
      ((e.settle id' fun _ => .error reason).1.enqueue { message := .cancel id' }).2) id = _
    rw [resultFor?_append, resultFor?_settle_of_find? hfind,
      resultFor?_of_silent (settledIn_enqueue _ _), Option.or_none]
  · -- a call that does not wait is another one
    have hne : ¬ id' = id := fun heq => h (heq ▸ mem_waiting_of_find? hfind)
    rw [cancelRequest_of_not_waiting h, if_neg hne]
    rfl

theorem resultFor?_cancelWith (c : Call) (reason : CallError) :
    resultFor? (c.cancelWith reason e).2.2 id =
      if c.id = some id then some (.error reason) else none := by
  unfold Call.cancelWith
  cases hc : c.id with
  | none => rfl
  | some id' =>
      dsimp only
      rw [resultFor?_cancelRequest hfind]
      simp only [Option.some.injEq]

/-- Letting go of a call cancels it, unless its result was returned. -/
theorem resultFor?_drop (c : Call) :
    resultFor? (c.drop e).2 id =
      if c.id = some id then if c.settled then none else some (.error .cancelled) else none := by
  unfold Call.drop
  split
  · split <;> rfl
  · exact resultFor?_cancelWith hfind c .cancelled

/-- Looking for a result ends a call that has none and whose time is over. -/
theorem resultFor?_poll (c : Call) (now : Nat) :
    resultFor? (c.poll now e).2.2.2 id =
      if c.id = some id then
        match c.delivered, c.limit with
        | none, some d =>
          if c.started + d.ticks ≤ now then some (.error (.timeout d)) else none
        | _, _ => none
      else none := by
  obtain ⟨cid, limit, started, delivered, settled⟩ := c
  cases delivered with
  | some r => exact (ite_self none).symm
  | none =>
      cases limit with
      | none => exact (ite_self none).symm
      | some d =>
          simp only [Call.poll, Call.deadline?, Option.map_some]
          by_cases h : started + d.ticks ≤ now
          · rw [if_pos h, if_pos h]
            exact resultFor?_cancelWith hfind _ (.timeout d)
          · rw [if_neg h, if_neg h]
            exact (ite_self none).symm

theorem resultFor?_undeliverable (o : Outbound) (err : TransportError) :
    resultFor? (e.undeliverable o err).2 id =
      match o.message with
      | .request id' .. => if id' = id then some (.error (.transport err)) else none
      | _ => none := by
  unfold undeliverable undeliverable.inform
  split
  · next id' _ _ _ hm =>
      rw [hm]
      exact resultFor?_settle_of_find? hfind _ _
  · next id' _ hm =>
      rw [hm]
      split
      · rfl
      · exact resultFor?_of_silent (settledIn_enqueue _ _) id
  · next id' _ hm =>
      rw [hm]
      split
      · rfl
      · exact resultFor?_of_silent (settledIn_enqueue _ _) id
  · next h₁ h₂ h₃ =>
      cases hm : o.message with
      | request id' proxy method args => exact absurd hm (h₁ id' proxy method args)
      | _ => rfl

/-- Only the two kinds of replies settle a call. -/
theorem resultFor?_dispatch [Handler η] (m : Message) :
    resultFor? (e.dispatch m).2 id =
      match m with
      | .reply id' v => if id' = id then some (.ok v) else none
      | .replyErr id' err => if id' = id then some (.error (.ofRemote proxy err)) else none
      | _ => none := by
  cases m with
  | request id' proxy method args =>
      simp only [dispatch]
      split
      · rfl
      · split
        · exact resultFor?_of_silent (settledIn_enqueue _ _) id
        · rfl
  | notification proxy method args =>
      simp only [dispatch]
      split <;> rfl
  | reply id' v => exact resultFor?_settle_of_find? hfind id' fun _ => .ok v
  | replyErr id' err =>
      exact resultFor?_settle_of_find? hfind id' fun proxy => .error (.ofRemote proxy err)
  | cancel id' =>
      simp only [dispatch]
      split
      · rfl
      · exact resultFor?_of_silent (settledIn_fire _ _) id

end Waiting

end Endpoint

end PeerRpc
