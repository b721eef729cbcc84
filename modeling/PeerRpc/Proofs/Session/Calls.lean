import PeerRpc.Proofs.Session.Tasks

/-!
# PeerRpc.Proofs.Session.Calls -- the calls of a session are the calls of a duo

Whoever makes a call in a session, a user or a handler, makes it at the endpoint of its side, and
keeps a `Call` of its own. The host keeps one as well, with the same id and on the same terms
(`Host.Knows`). So to cancel a call, to let go of it, or to find that its time has come is the same
operation of the host, or none if the call no longer waits (`Shows.cancelWith`).
-/

namespace PeerRpc

namespace Duo

variable {η : Type} [Handler η]

/-- Nothing is said of a duo with an endpoint that has used up its ids. -/
theorem Leads.spent {d : Duo η} {P : Duo η → Prop} {s : Side}
    (h : (d.host s).endpoint.nextId = 0) : d.Leads P :=
  ⟨[], fun _ hm => absurd hm List.not_mem_nil, Or.inr ⟨s, h⟩⟩

end Duo

/-- A call of the host takes part in a step. -/
theorem Host.onCall_eq {η : Type} {h : Host η} {k : Nat} {q : Asked} (hq : h.calls[k]? = some q)
    (f : Call → Call × Endpoint.Step η) :
    h.onCall k f =
      ({ h with calls := h.calls.set k { q with call := (f q.call).1 } } : Host η).follow
        (f q.call).2 := by
  unfold Host.onCall
  rw [hq]

namespace Session

variable {w w' : Session} {d : Duo Service} {s : Side} {call : Call}

/-! ## Steps that users ask for -/

/-- An operation of the host as a step of the endpoint. -/
theorem Shows.operate (h : w.Shows d) (o : Op Service) (step : Endpoint.Step Service)
    (hendpoint : ((d.host s).operate o).1.endpoint = step.1)
    (hevents : ((d.host s).operate o).2 = step.2)
    (hnow : ((d.host s).operate o).1.now = (d.host s).now)
    (hsending : ((d.host s).operate o).1.sending = (d.host s).sending)
    (hconcluded : ((d.host s).operate o).1.concluded = (d.host s).concluded) :
    (w.take s step).Shows (d.move (.op s o)) :=
  h.take (.op o) step hendpoint hevents hnow hsending hconcluded

/-- A step that changes nothing. -/
theorem Shows.idle (h : w.Shows d) (s : Side) :
    (w.take s ((d.host s).endpoint, [])).Shows d :=
  h.same (same_setEndpoint (h.sides s).endpoint)

/-- **A call is made.** Whoever made it holds a call that the host knows. -/
theorem Shows.request (h : w.Shows d) (s : Side) (proxy : ProxyId) (method : String)
    (args : List Value) :
    d.Leads fun d' => (w.request s proxy method args).1.Shows d' ∧
      (d'.host s).Knows (w.request s proxy method args).2 := by
  -- a host that has used up its ids makes no call, which a session does not know
  by_cases hspent : (d.host s).endpoint.nextId = 0
  · exact Duo.Leads.spent hspent
  apply Duo.Leads.move (.op s (.request proxy method args)) trivial
  apply Duo.Leads.here
  have hop : (d.host s).operate (.request proxy method args) =
      (d.host s).begin proxy method args ((d.host s).endpoint.request proxy method args) :=
    if_neg hspent
  obtain ⟨p, hp, he⟩ := h.exists_party s
  unfold Session.request
  rw [hp]
  dsimp only
  rw [he, ← (h.sides s).now]
  refine ⟨?_, ?_⟩
  · apply h.operate <;> rw [hop] <;> rfl
  · -- the host has put the same call at the end of its own
    show Host.Knows ((d.put s _ _).desk s).host _
    rw [Duo.desk_put]
    show Host.Knows ((d.host s).operate (.request proxy method args)).1 _
    rw [hop]
    intro id _
    refine ⟨_, List.mem_map_of_mem (List.mem_append_right _ List.mem_cons_self), ?_⟩
    exact Call.Alike.refl _

theorem Shows.invoke (h : w.Shows d) (s : Side) (i : Identifier) (method : String)
    (args : List Value) :
    d.Leads fun d' => (w.invoke s i method args).1.Shows d' ∧
      (d'.host s).Knows (w.invoke s i method args).2 := by
  have hfailed : ∀ err, (d.host s).Knows (.failed err) := by
    intro err id hid
    cases hid
  unfold Session.invoke
  cases hp : w.party? s with
  | none => exact Duo.Leads.here ⟨h, hfailed _⟩
  | some p =>
      dsimp only
      cases hproxy : p.endpoint.proxyFor i with
      | error err => exact Duo.Leads.here ⟨h, hfailed err⟩
      | ok proxy => exact h.request s proxy method args

/-! ## Calls that are taken back -/

/-- An operation of the host on one of its calls. -/
theorem Shows.onCall (h : w.Shows d) {k : Nat} {q : Asked}
    (hq : (d.host s).calls[k]? = some q) {o : Op Service}
    {f : Call → Call × Endpoint.Step Service}
    (ho : (d.host s).operate o = (d.host s).onCall k f) :
    (w.take s (f q.call).2).Shows (d.move (.op s o)) := by
  rw [Host.onCall_eq hq] at ho
  apply h.operate <;> rw [ho] <;> rfl

/-- **A call is ended by its caller**: it is cancelled, or its time has come. -/
theorem Shows.cancelWith (h : w.Shows d) (hk : (d.host s).Knows call) {reason : CallError}
    (hreason : reason = .cancelled ∨ ∃ limit, call.limit = some limit ∧
      call.started + limit.ticks ≤ (d.host s).now ∧ reason = .timeout limit) :
    d.Leads (w.take s (call.cancelWith reason (d.host s).endpoint).2).Shows := by
  cases hid : call.id with
  | none =>
      apply Duo.Leads.here
      unfold Call.cancelWith
      rw [hid]
      exact h.idle s
  | some id =>
      -- what is asked of the endpoint depends on the id only, and matters only while the call waits
      by_cases hwaits : id ∈ (d.host s).endpoint.waiting
      · obtain ⟨q, hq, hlike⟩ := hk id hid
        obtain ⟨k, hk⟩ := List.mem_iff_getElem?.mp hq
        have hqid : q.call.id = some id := hlike.id.symm.trans hid
        have hsame : q.call.cancelWith reason (d.host s).endpoint =
            call.cancelWith reason (d.host s).endpoint := by
          unfold Call.cancelWith
          rw [hid, hqid]
        rcases hreason with rfl | ⟨limit, hlimit, hlate, rfl⟩
        · apply Duo.Leads.move (.op s (.cancel k)) trivial
          apply Duo.Leads.here
          have hcancel := h.onCall hk (o := .cancel k)
            (f := fun c => (c, (c.cancel (d.host s).endpoint).2)) rfl
          rw [← hsame]
          exact hcancel
        · -- the host has no result for the call either, and the same deadline
          apply Duo.Leads.move (.op s (.poll k)) trivial
          apply Duo.Leads.here
          have hpoll := h.onCall hk (o := .poll k)
            (f := fun c => (c.poll (d.host s).now (d.host s).endpoint).2) rfl
          have hnone := ((h.sides s).sound.mem_waiting_iff hq hqid).mp hwaits
          have hstep : (q.call.poll (d.host s).now (d.host s).endpoint).2.2 =
              (q.call.cancelWith (.timeout limit) (d.host s).endpoint).2 := by
            rw [Call.poll_of_late hnone (hlike.limit ▸ hlimit) (hlike.started ▸ hlate)]
          rw [← hsame, ← hstep]
          exact hpoll
      · apply Duo.Leads.here
        have hany : ((d.host s).endpoint.pending.any fun p => p.1 = id) = false := by
          rw [← Bool.not_eq_true, Endpoint.any_pending]
          exact hwaits
        have hnothing : (call.cancelWith reason (d.host s).endpoint).2 =
            ((d.host s).endpoint, []) := by
          unfold Call.cancelWith Endpoint.cancelRequest
          rw [hid]
          dsimp only
          rw [hany]
          rfl
        rw [hnothing]
        exact h.idle s

/-- **A call is looked at.** -/
theorem Shows.pollCall (h : w.Shows d) (hk : (d.host s).Knows call) :
    d.Leads fun d' => (w.pollCall s call).1.Shows d' ∧
      (d'.host s).Knows (w.pollCall s call).2.1 := by
  obtain ⟨p, hp, he⟩ := h.exists_party s
  unfold Session.pollCall
  rw [hp]
  dsimp only
  have hnow : (d.host s).now = w.now := (h.sides s).now
  rw [he, ← hnow]
  have hpolled := hk.alike (.poll call (d.host s).now (d.host s).endpoint)
  refine Duo.Leads.keep (Q := fun h => h.Knows _) ?_ (fun _ a _ hc => hc.step a) hpolled
  cases call.polled (d.host s).now (d.host s).endpoint with
  | delivered r hd poll =>
      rw [poll]
      exact Duo.Leads.here (h.idle s)
  | late limit hn hlimit late poll =>
      rw [poll]
      exact h.cancelWith hk (Or.inr ⟨limit, hlimit, late, rfl⟩)
  | early hn poll =>
      rw [poll]
      exact Duo.Leads.here (h.idle s)

theorem Shows.cancel (h : w.Shows d) (hk : (d.host s).Knows call) :
    d.Leads (w.take s (call.cancel (d.host s).endpoint).2).Shows :=
  h.cancelWith hk (Or.inl rfl)

/-- **A call is let go of.** -/
theorem Shows.dropCall (h : w.Shows d) (hk : (d.host s).Knows call) :
    d.Leads (w.dropCall s call).Shows := by
  unfold Session.dropCall
  rw [h.atEndpoint_eq]
  unfold Call.drop
  split
  · exact Duo.Leads.here (h.idle s)
  · exact h.cancel hk

end Session

end PeerRpc
