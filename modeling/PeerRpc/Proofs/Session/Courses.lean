import PeerRpc.Proofs.Course.Closing
import PeerRpc.Proofs.Schedule
import PeerRpc.Session.Control

/-!
# PeerRpc.Proofs.Session.Courses -- a session takes the endpoints on a link along courses

Whatever is done in a session, by its users, by its tasks and by a peer, an endpoint changes by
deeds only: `Session.Leads` says so of two sessions, and there is one lemma for each operation.
`Session.Covers` is what a relation of sessions needs to cover the runs of handlers as well. The
loops of an endpoint are the reader and the writer of its course, and the link is the channel. Hence
what is true of every course of an endpoint is true of the endpoints in every session
(`Session.Reached.course`), on any link.
-/

namespace PeerRpc

/-- An endpoint after some deeds. -/
def Endpoint.does {η : Type} [Handler η] (deeds : List (Deed η)) (e : Endpoint η) : Endpoint η :=
  deeds.foldl (fun e d => (d.step e).1) e

theorem Course.endpoint_run {η : Type} [Handler η] (c : Course η) (deeds : List (Deed η)) :
    (c.run deeds).endpoint = c.endpoint.does deeds := by
  induction deeds generalizing c with
  | nil => rfl
  | cons d rest ih => exact ih (c.act d)

namespace Session

/-- The endpoint of a side. -/
def endpoint? (w : Session) (s : Side) : Option (Endpoint Service) :=
  (w.party? s).map (·.endpoint)

/-- On each side a session has the endpoint of an earlier one after some deeds. -/
def Leads (w w' : Session) : Prop :=
  ∀ s, ∃ deeds, w'.endpoint? s = (w.endpoint? s).map (Endpoint.does deeds)

variable {w w' w'' : Session} {s : Side} {t : Ticket}

/-- A session with the same endpoints. -/
theorem Leads.of_eq (h : ∀ s, w'.endpoint? s = w.endpoint? s) : w.Leads w' := by
  intro s
  refine ⟨[], (h s).trans ?_⟩
  cases w.endpoint? s <;> rfl

theorem Leads.refl (w : Session) : w.Leads w := .of_eq fun _ => rfl

theorem Leads.trans (h : w.Leads w') (h' : w'.Leads w'') : w.Leads w'' := by
  intro s
  obtain ⟨xs, hxs⟩ := h s
  obtain ⟨ys, hys⟩ := h' s
  refine ⟨xs ++ ys, ?_⟩
  have happend : Endpoint.does (xs ++ ys) = Endpoint.does (η := Service) ys ∘ Endpoint.does xs := by
    funext e
    exact List.foldl_append
  rw [hys, hxs, happend, Option.map_map]

/-! ## Steps of endpoints -/

theorem endpoint?_modifyParty (w : Session) (s s' : Side) (f : Party → Party) :
    (w.modifyParty s f).endpoint? s' =
      if s' = s then (w.party? s).map fun p => (f p).endpoint else w.endpoint? s' := by
  cases s <;> cases s' <;> simp [endpoint?, modifyParty, party?, Function.comp_def]

/-- Whoever counts its holders leaves an endpoint alone. -/
theorem leads_modifyParty (w : Session) (s : Side) {f : Party → Party}
    (hf : ∀ p, (f p).endpoint = p.endpoint) : w.Leads (w.modifyParty s f) := by
  refine .of_eq fun s' => ?_
  rw [endpoint?_modifyParty]
  split
  · next hs =>
      subst hs
      simp only [hf]
      rfl
  · rfl

/-- Those who are told of an event do nothing at an endpoint yet. -/
theorem endpoint?_hear (s : Side) (w : Session) (x : Event Service) (s' : Side) :
    (hear s w x).endpoint? s' = w.endpoint? s' := by
  cases x <;> cases s' <;> rfl

theorem endpoint?_take (s : Side) (step : Endpoint.Step Service) (w : Session) (s' : Side) :
    (w.take s step).endpoint? s' = (w.setEndpoint s step.1).endpoint? s' := by
  obtain ⟨e, events⟩ := step
  show (events.foldl (hear s) (w.setEndpoint s e)).endpoint? s' = _
  generalize w.setEndpoint s e = w₀
  induction events generalizing w₀ with
  | nil => rfl
  | cons x rest ih => exact (ih (hear s w₀ x)).trans (endpoint?_hear s w₀ x s')

theorem leads_setEndpoint {p : Party} (hp : w.party? s = some p) {e : Endpoint Service}
    (h : ∃ deeds, e = p.endpoint.does deeds) : w.Leads (w.setEndpoint s e) := by
  obtain ⟨deeds, rfl⟩ := h
  intro s'
  by_cases hs : s' = s
  · refine ⟨deeds, ?_⟩
    subst hs
    rw [setEndpoint, endpoint?_modifyParty, if_pos rfl, endpoint?, hp]
    rfl
  · refine ⟨[], ?_⟩
    rw [setEndpoint, endpoint?_modifyParty, if_neg hs]
    cases w.endpoint? s' <;> rfl

theorem leads_take {p : Party} (hp : w.party? s = some p) {step : Endpoint.Step Service}
    (h : ∃ deeds, step.1 = p.endpoint.does deeds) : w.Leads (w.take s step) :=
  (leads_setEndpoint hp h).trans (.of_eq fun s' => endpoint?_take s step w s')

theorem leads_atEndpoint (w : Session) (s : Side)
    {f : Endpoint Service → Endpoint.Step Service} (hf : ∀ e, ∃ deeds, (f e).1 = e.does deeds) :
    w.Leads (w.atEndpoint s f) := by
  unfold atEndpoint
  cases hp : w.party? s with
  | none => exact .refl w
  | some p => exact leads_take hp (hf p.endpoint)

theorem leads_close (w : Session) (s : Side) : w.Leads (w.atEndpoint s Endpoint.close) :=
  leads_atEndpoint w s fun _ => ⟨[.close], rfl⟩

/-- An endpoint that nobody holds is closed. -/
theorem leads_release (w : Session) (s : Side) : w.Leads (w.release s) := by
  unfold release
  split
  · exact .refl w
  · have hclose : w.Leads (w.atEndpoint s Endpoint.close) :=
      leads_atEndpoint w s fun _ => ⟨[.letGo], rfl⟩
    refine hclose.trans ?_
    generalize w.atEndpoint s Endpoint.close = w₁
    dsimp only
    split
    · exact .refl w₁
    · split
      · exact .refl w₁
      · have hreleased : w₁.Leads (w₁.modifyParty s fun p => { p with released := true }) :=
          leads_modifyParty w₁ s fun _ => rfl
        exact hreleased.trans (.of_eq fun s' => by cases s' <;> rfl)

theorem leads_endTask (w : Session) (t : Ticket) (s : Side) : w.Leads (w.endTask t s) := by
  have hrelease := leads_release { w with tasks := w.tasks.filter fun x => x.1 ≠ t } s
  unfold endTask
  dsimp only
  split
  · exact hrelease
  · exact hrelease.trans (.of_eq fun s' => by cases s' <;> rfl)

/-! ## Calls -/

/-- Whoever ends a call cancels it, unless it has no id. -/
theorem does_cancelWith (call : Call) (reason : CallError) (e : Endpoint Service) :
    ∃ deeds, (call.cancelWith reason e).2.1 = e.does deeds := by
  unfold Call.cancelWith
  cases call.id with
  | none => exact ⟨[], rfl⟩
  | some id => exact ⟨[.cancel id reason], rfl⟩

theorem does_drop (call : Call) (e : Endpoint Service) :
    ∃ deeds, (call.drop e).1 = e.does deeds := by
  unfold Call.drop
  split
  · exact ⟨[], rfl⟩
  · exact does_cancelWith call .cancelled e

theorem does_poll (call : Call) (now : Nat) (e : Endpoint Service) :
    ∃ deeds, (call.poll now e).2.2.1 = e.does deeds := by
  cases call.polled now e with
  | delivered r hd poll => exact ⟨[], by rw [poll]; rfl⟩
  | late d hn limit late poll => exact poll ▸ does_cancelWith call _ e
  | early hn poll => exact ⟨[], by rw [poll]; rfl⟩

theorem leads_request (w : Session) (s : Side) (proxy : ProxyId) (method : String)
    (args : List Value) : w.Leads (w.request s proxy method args).1 := by
  unfold request
  cases hp : w.party? s with
  | none => exact .refl w
  | some p => exact leads_take hp ⟨[.request proxy method args], rfl⟩

theorem leads_invoke (w : Session) (s : Side) (i : Identifier) (method : String)
    (args : List Value) : w.Leads (w.invoke s i method args).1 := by
  unfold invoke
  split
  · exact .refl w
  · split
    · exact .refl w
    · exact leads_request w s _ method args

theorem leads_pollCall (w : Session) (s : Side) (call : Call) :
    w.Leads (w.pollCall s call).1 := by
  unfold pollCall
  cases hp : w.party? s with
  | none => exact .refl w
  | some p => exact leads_take hp (does_poll call w.now p.endpoint)

theorem leads_dropCall (w : Session) (s : Side) (call : Call) : w.Leads (w.dropCall s call) :=
  leads_atEndpoint w s (does_drop call)

/-! ## Runs of handlers -/

/-- A relation of sessions that covers whatever the handlers of a side ask for. -/
structure Covers (s : Side) (R : Session → Session → Prop) : Prop where
  refl : ∀ w, R w w
  trans : ∀ {w w' w''}, R w w' → R w' w'' → R w w''
  log : ∀ w line, R w (w.writeLog line)
  permits : ∀ w name p, R w (w.setPermits name p)
  wakes : ∀ w ts, R w (w.wake ts)
  holds : ∀ w t, R w (w.modifyTask t fun task => { task with holds := true })
  invoke : ∀ w target method args, R w (w.invoke s target method args).1
  poll : ∀ w call, R w (w.pollCall s call).1
  drop : ∀ w call, R w (w.dropCall s call)

namespace Covers

variable {R : Session → Session → Prop}

/-- It covers what a handler does until it waits, -/
theorem perform (h : Covers s R) (t : Ticket) (serial : Nat) (a : Activity) (w : Session) :
    R w (Session.perform t s serial a w).1 := by
  induction a generalizing w with
  | finish result => cases result <;> exact h.refl w
  | panic message => exact h.refl w
  | log line next ih => exact h.trans (h.log w line) (ih _)
  | askStopped next ih => exact ih _ w
  | untilStopped next ih =>
      unfold Session.perform
      split
      · exact ih w
      · exact h.refl w
  | forever => exact h.refl w
  | sleep ms next ih =>
      unfold Session.perform
      split
      · exact ih w
      · exact h.refl w
  | gate name next ih =>
      unfold Session.perform
      split
      · next p _ => exact h.trans (h.permits w name p) (ih _)
      · next p _ => exact h.permits w name p
  | takeHandle next ih =>
      unfold Session.perform
      split
      · exact h.trans (h.holds w t) (ih true _)
      · exact ih false w
  | call target method args next ih =>
      have hcall := h.invoke w target method args
      have hpoll := h.poll (w.invoke s target method args).1 (w.invoke s target method args).2
      unfold Session.perform
      dsimp only
      split
      · next w₂ _ r heq =>
          rw [heq] at hpoll
          exact h.trans (h.trans hcall hpoll) (ih r w₂)
      · next w₂ _ heq =>
          rw [heq] at hpoll
          exact h.trans hcall hpoll

/-- how it goes on, -/
theorem resume (h : Covers s R) (t : Ticket) (serial : Nat) (pause : Pause) (w : Session) :
    R w (w.resume t s serial pause).1 := by
  cases pause with
  | fresh a => exact h.perform t serial a w
  | untilStopped next => exact h.perform t serial (.untilStopped next) w
  | forever => exact h.refl w
  | sleeping wakeAt next =>
      unfold Session.resume
      dsimp only
      split
      · exact h.perform t serial next w
      · exact h.refl w
  | gate name next => exact h.perform t serial (.gate name next) w
  | reply call next =>
      have hpoll := h.poll w call
      unfold Session.resume
      dsimp only
      split
      · next w₂ _ r heq =>
          rw [heq] at hpoll
          exact h.trans hpoll (h.perform t serial (next r) w₂)
      · next w₂ _ heq =>
          rw [heq] at hpoll
          exact hpoll

/-- and what it leaves behind. -/
theorem abandon (h : Covers s R) (t : Ticket) (pause : Pause) (w : Session) :
    R w (w.abandon t s pause) := by
  cases pause with
  | gate name next => exact h.trans (h.permits w name _) (h.wakes _ _)
  | reply call next => exact h.drop w call
  | _ => exact h.refl w

end Covers

/-- What a handler asks for changes endpoints by its calls only. -/
theorem covers_leads (s : Side) : Covers s Leads where
  refl := .refl
  trans := .trans
  log _ _ := .of_eq fun s' => by cases s' <;> rfl
  permits _ _ _ := .of_eq fun s' => by cases s' <;> rfl
  wakes _ _ := .of_eq fun s' => by cases s' <;> rfl
  holds _ _ := .of_eq fun s' => by cases s' <;> rfl
  invoke w := leads_invoke w s
  poll w := leads_pollCall w s
  drop w := leads_dropCall w s

/-- A run that ends gives its handle back before it answers. -/
theorem leads_endRun (t : Ticket) (s : Side) (serial : Nat) (o : Outcome) (w : Session) :
    w.Leads (w.endRun t s serial o) := by
  have hback : w.Leads (w.modifyTask t fun task => { task with holds := false }) :=
    .of_eq fun s' => by cases s' <;> rfl
  refine (hback.trans (leads_release _ s)).trans ?_
  refine (leads_atEndpoint _ s ?_).trans (leads_endTask _ t s)
  intro e
  exact ⟨[.finish serial o], rfl⟩

theorem leads_handleTurn (t : Ticket) (s : Side) (run : Run Service) (pause : Pause)
    (w : Session) : w.Leads (w.handleTurn t s run pause) := by
  have hresume := (covers_leads s).resume t run.serial pause w
  unfold handleTurn
  split
  · next w₁ outcome heq =>
      rw [heq] at hresume
      exact hresume.trans (leads_endRun t s run.serial outcome w₁)
  · next w₁ pause' heq =>
      rw [heq] at hresume
      refine hresume.trans ?_
      split
      · exact ((covers_leads s).abandon t pause' w₁).trans (leads_endRun t s run.serial .aborted _)
      · exact .of_eq fun s' => by cases s' <;> rfl

/-! ## The loops of an endpoint -/

theorem leads_closeChannel (t : Ticket) (s : Side) (op : Link.Closing) (w : Session) :
    w.Leads (w.closeChannel t s op).1 := by
  refine .of_eq fun s' => ?_
  unfold closeChannel
  dsimp only
  split <;> cases s' <;> rfl

theorem leads_hangUpTurn (t : Ticket) (s : Side) (op : Link.Closing) (w : Session) :
    w.Leads (w.hangUpTurn t s op) := by
  have hclose := leads_closeChannel t s op w
  unfold hangUpTurn
  split
  · next w₁ op' heq =>
      rw [heq] at hclose
      exact hclose.trans (.of_eq fun s' => by cases s' <;> rfl)
  · next w₁ heq =>
      rw [heq] at hclose
      exact hclose.trans (leads_endTask w₁ t s)

/-- **The reader.** What the link has for it is looked at only if the endpoint is open. -/
theorem leads_readTurn (t : Ticket) (s : Side) (op : Link.Receiving) (w : Session) :
    w.Leads (w.readTurn t s op) := by
  unfold readTurn
  split
  · dsimp only
    have hlink : w.Leads (w.setLink (w.link.recv s t op).state (w.link.recv s t op).wakes) :=
      .of_eq fun s' => by cases s' <;> rfl
    refine hlink.trans ?_
    generalize w.setLink (w.link.recv s t op).state (w.link.recv s t op).wakes = w₁
    split
    · exact .of_eq fun s' => by cases s' <;> rfl
    · next frame _ =>
        have hwork : w₁.Leads (w₁.setWork t (.read .fresh)) :=
          .of_eq fun s' => by cases s' <;> rfl
        refine hwork.trans ?_
        refine (leads_atEndpoint _ s ?_).trans (.of_eq fun s' => by cases s' <;> rfl)
        intro e
        refine ⟨[.read (some (.ok frame))], ?_⟩
        -- the endpoint would not act on a frame if it were closed
        cases hopen : e.isOpen with
        | true => simp only [Endpoint.does, List.foldl_cons, List.foldl_nil, Deed.step, hopen, if_true]
        | false => simp [Endpoint.does, Deed.step, Endpoint.receive, hopen]
    · exact (leads_close w₁ s).trans (leads_hangUpTurn t s .fresh _)
  · dsimp only
    refine Leads.trans ?_ (leads_hangUpTurn t s .fresh _)
    exact .of_eq fun s' => by cases s' <;> rfl

/-- **The writer** learns what the link has made of a message. -/
theorem leads_sendTurn (t : Ticket) (s : Side) (o : Outbound) (op : Link.Sending) (w : Session) :
    w.Leads (w.sendTurn t s o op) := by
  unfold sendTurn
  dsimp only
  have hlink : w.Leads (w.setLink (w.link.send s t op).state (w.link.send s t op).wakes) :=
    .of_eq fun s' => by cases s' <;> rfl
  refine hlink.trans ?_
  generalize w.setLink (w.link.send s t op).state (w.link.send s t op).wakes = w₁
  split
  · exact .of_eq fun s' => by cases s' <;> rfl
  · exact .of_eq fun s' => by cases s' <;> rfl
  · next err _ =>
      split
      · exact (leads_close w₁ s).trans (leads_endTask _ t s)
      · next hterm =>
          have hwork : w₁.Leads (w₁.setWork t (.write none)) :=
            .of_eq fun s' => by cases s' <;> rfl
          refine hwork.trans ?_
          refine (leads_atEndpoint _ s ?_).trans (.of_eq fun s' => by cases s' <;> rfl)
          intro e
          exact ⟨[.sent o (.error err)], (congrArg Prod.fst (if_neg hterm)).symm⟩

/-- **The writer** hands the next message to the link. -/
theorem leads_writeTurn (t : Ticket) (s : Side) (w : Session) : w.Leads (w.writeTurn t s) := by
  unfold writeTurn
  cases hp : w.party? s with
  | none => exact leads_endTask w t s
  | some p =>
      dsimp only
      cases hd : p.endpoint.dequeue with
      | none =>
          dsimp only
          split
          · exact .refl w
          · exact leads_endTask w t s
      | some x =>
          obtain ⟨o, e⟩ := x
          refine (leads_setEndpoint hp ⟨[.hand], ?_⟩).trans (leads_sendTurn t s o _ _)
          simp only [Endpoint.does, List.foldl_cons, List.foldl_nil, Deed.step, hd]

/-! ## Those who wait -/

theorem leads_endLabelled (t : Ticket) (s : Side) (label : String) (x : Ending) (w : Session) :
    w.Leads (w.endLabelled t s label x) := by
  have hnote : w.Leads (w.noteEnding label x) := .of_eq fun s' => by cases s' <;> rfl
  exact hnote.trans (leads_endTask _ t s)

theorem leads_closeTurn (t : Ticket) (s : Side) (op : Link.Closing) (w : Session) :
    w.Leads (w.closeTurn t s op) := by
  have hclose := (leads_close w s).trans (leads_closeChannel t s op _)
  unfold closeTurn
  split
  · next w₁ op' heq =>
      rw [heq] at hclose
      exact hclose.trans (.of_eq fun s' => by cases s' <;> rfl)
  · next w₁ heq =>
      rw [heq] at hclose
      exact hclose.trans (leads_endLabelled t s _ _ w₁)

theorem leads_awaitCallTurn (t : Ticket) (s : Side) (i : Nat) (dropped : Bool) (w : Session) :
    w.Leads (w.awaitCallTurn t s i dropped) := by
  unfold awaitCallTurn
  split
  · exact leads_endTask w t s
  · next c _ =>
      split
      · exact (leads_dropCall w s c.call).trans (leads_endTask _ t s)
      · have hpoll := leads_pollCall w s c.call
        split
        · next w₁ call r heq =>
            rw [heq] at hpoll
            have hset : w₁.Leads (w₁.setCall i call false) :=
              .of_eq fun s' => by cases s' <;> rfl
            exact (hpoll.trans hset).trans (leads_endLabelled t s _ _ _)
        · next w₁ call heq =>
            rw [heq] at hpoll
            exact hpoll.trans (.of_eq fun s' => by cases s' <;> rfl)

/-- **A turn of a task** is a course, whoever takes it. -/
theorem leads_turn (t : Ticket) (w : Session) : w.Leads (w.turn t) := by
  unfold turn
  split
  · exact .refl w
  · next task _ =>
      split
      · exact leads_readTurn t task.side _ w
      · exact leads_hangUpTurn t task.side _ w
      · exact leads_writeTurn t task.side w
      · exact leads_sendTurn t task.side _ _ w
      · exact leads_handleTurn t task.side _ _ w
      · exact leads_closeTurn t task.side _ w
      · unfold awaitClosedTurn
        split
        · exact .refl w
        · exact leads_endLabelled t task.side _ _ w
      · unfold awaitEndTurn
        split
        · exact .refl w
        · exact leads_endLabelled t task.side _ _ w
      · exact leads_awaitCallTurn t task.side _ _ w

/-- A schedule lets tasks take turns, and those are courses. -/
theorem keeps_leads (w : Session) : schedule.Keeps w.Leads where
  turn t _ h := h.trans (leads_turn t _)
  ready _ _ h := h.trans (.of_eq fun s' => by cases s' <;> rfl)

theorem leads_settle (w : Session) : w.Leads w.settle := (keeps_leads w).settle (.refl w)

theorem leads_advance (ms : Nat) (w : Session) : w.Leads (w.advance ms) := by
  have hclock : ∀ (n : Nat) (w₁ : Session), w.Leads w₁ → w.Leads (schedule.setNow w₁ n) :=
    fun _ _ h => h.trans (.of_eq fun s' => by cases s' <;> rfl)
  refine (keeps_leads w).advanceTo _ ?_ ?_ _ (leads_settle w)
  · exact fun n w₁ _ h => hclock _ w₁ h
  · exact fun w₁ h => hclock _ w₁ h

/-! ## The users of a session -/

/-- Where there is an endpoint, a service that is set is one that it hosts. -/
theorem set_eq_ok {i : Identifier} {service : Service} {old : Option Service}
    (h : w.set s i service = .ok (w', old)) : w' = w ∨ ∃ p registry, w.party? s = some p ∧
      w' = w.setEndpoint s { p.endpoint with registry := registry } := by
  unfold set at h
  cases hp : w.party? s with
  | none =>
      rw [hp] at h
      exact Or.inl (Prod.mk.inj (Except.ok.inj h)).1.symm
  | some p =>
      rw [hp] at h
      dsimp only [Endpoint.set] at h
      split at h
      · cases h
      · exact Or.inr ⟨p, _, rfl, (Prod.mk.inj (Except.ok.inj h)).1.symm⟩

theorem leads_set {i : Identifier} {service : Service} {old : Option Service}
    (h : w.set s i service = .ok (w', old)) : w.Leads w' := by
  rcases set_eq_ok h with rfl | ⟨p, registry, hp, rfl⟩
  · exact .refl w'
  · exact leads_setEndpoint hp ⟨[.serve registry], rfl⟩

theorem leads_unset (w : Session) (s : Side) (i : Identifier) : w.Leads (w.unset s i).1 := by
  unfold unset
  cases hp : w.party? s with
  | none => exact .refl w
  | some p => exact leads_setEndpoint hp ⟨[.serve _], rfl⟩

theorem leads_releaseBoth (w : Session) : w.Leads ((release .main w).release .ext) :=
  (leads_release w .main).trans (leads_release _ .ext)

theorem leads_putProxy (w : Session) (name : String) (proxy : Side × Identifier) :
    w.Leads (w.putProxy name proxy) := by
  have hnamed : w.Leads { w with proxies := Keyed.insert name proxy w.proxies } :=
    .of_eq fun s' => by cases s' <;> rfl
  exact hnamed.trans (leads_releaseBoth _)

/-- Where there is an endpoint, a proxy that is taken is put under its name. -/
theorem takeProxy_eq_ok {name : String} {i : Identifier} (h : w.takeProxy name s i = .ok w') :
    w' = w ∨ w' = w.putProxy name (s, i) := by
  unfold takeProxy at h
  cases hp : w.party? s with
  | none =>
      rw [hp] at h
      exact Or.inl (Except.ok.inj h).symm
  | some p =>
      rw [hp] at h
      dsimp only at h
      cases hproxy : p.endpoint.proxyFor i with
      | error err => rw [hproxy] at h; cases h
      | ok proxy =>
          rw [hproxy] at h
          exact Or.inr (Except.ok.inj h).symm

theorem leads_takeProxy {name : String} {i : Identifier} (h : w.takeProxy name s i = .ok w') :
    w.Leads w' := by
  rcases takeProxy_eq_ok h with rfl | rfl
  · exact .refl _
  · exact leads_putProxy w name (s, i)

theorem leads_dropHeld (w : Session) (i : Nat) (c : Caller) : w.Leads (w.dropHeld i c) := by
  unfold dropHeld
  split
  · have hset : w.Leads (w.setCall i c.call false) := .of_eq fun s' => by cases s' <;> rfl
    exact hset.trans (leads_dropCall _ c.side c.call)
  · exact .refl w

/-- A call that had the label before is let go of after the new one has been noted. -/
theorem leads_former {former : Option (Nat × Caller)}
    (h : ∀ s', w'.endpoint? s' = w.endpoint? s') :
    w.Leads (match former with
      | some (j, c) => w'.dropHeld j c
      | none => w') := by
  refine (Leads.of_eq h).trans ?_
  cases former with
  | none => exact .refl w'
  | some x => exact leads_dropHeld w' x.1 x.2

theorem leads_call (w : Session) (target : Target) (label : String) (shape : Shape) (hold : Bool)
    (method : String) (args : List Value) :
    w.Leads (w.call target label shape hold method args).1 := by
  unfold Session.call
  cases target with
  | proxy s i =>
      refine (leads_request w s i.id method args).trans (leads_former ?_)
      intro s'
      cases hold <;> cases s' <;> rfl
  | service s i =>
      refine (leads_invoke w s i method args).trans (leads_former ?_)
      intro s'
      cases hold <;> cases s' <;> rfl

/-- A notification comes down to the id of a service, whichever kind of target it has. -/
theorem notify_eq_ok {target : Target} {method : String} {args : List Value}
    (h : w.notify target method args = .ok w') : ∃ p proxy step,
      w.party? target.side = some p ∧ p.endpoint.notifyProxy proxy method args = .ok step ∧
        w.take target.side step = w' := by
  unfold notify at h
  cases hp : w.party? target.side with
  | none => rw [hp] at h; cases h
  | some p =>
      rw [hp] at h
      dsimp only at h
      cases target with
      | proxy s i =>
          dsimp only at h
          cases hstep : p.endpoint.notifyProxy i.id method args with
          | error err => rw [hstep] at h; cases h
          | ok step =>
              rw [hstep] at h
              exact ⟨p, i.id, step, rfl, hstep, Except.ok.inj h⟩
      | service s i =>
          dsimp only at h
          cases hstep : p.endpoint.notify i method args with
          | error err => rw [hstep] at h; cases h
          | ok step =>
              rw [hstep] at h
              exact ⟨p, i.id, step, rfl, Endpoint.notify_eq_ok hstep, Except.ok.inj h⟩

theorem leads_notify {target : Target} {method : String} {args : List Value}
    (h : w.notify target method args = .ok w') : w.Leads w' := by
  obtain ⟨p, proxy, step, hp, hstep, rfl⟩ := notify_eq_ok h
  refine leads_take hp ⟨[.notify proxy method args], ?_⟩
  simp only [Endpoint.does, List.foldl_cons, List.foldl_nil, Deed.step, hstep]

theorem leads_await (w : Session) (label : String) : w.Leads (w.await label) := by
  unfold Session.await
  split
  · split
    · exact .of_eq fun s' => by cases s' <;> rfl
    · exact .refl w
  · exact .refl w

theorem leads_cancel (w : Session) (label : String) : w.Leads (w.cancel label).1 := by
  unfold cancel
  split
  · exact .refl w
  · next c _ =>
      cases hp : w.party? c.side with
      | none => exact .refl w
      | some p => exact leads_take hp (does_cancelWith c.call .cancelled p.endpoint)

theorem leads_dropCaller (w : Session) (label : String) : w.Leads (w.dropCaller label) := by
  unfold dropCaller
  split
  · exact .refl w
  · next i c _ =>
      split
      · exact leads_dropHeld w i c
      · dsimp only
        generalize w.tasks.filter _ = waiting
        refine .of_eq fun s' => ?_
        -- the tasks that wait for the call are told one after the other
        suffices h : ∀ w₁ : Session, (waiting.foldl
            (fun w (x : Ticket × Task) => wake [x.1] (w.setWork x.1 (.awaitCall i true)))
              w₁).endpoint? s' = w₁.endpoint? s' from h w
        induction waiting with
        | nil => exact fun _ => rfl
        | cons x rest ih =>
            intro w₁
            exact (ih _).trans (by cases s' <;> rfl)

/-! ## Sessions -/

/-- One thing that users do in a session. Tasks take turns in any order. -/
inductive Next : Session → Session → Prop where
  | set {w w' : Session} {s i service old} (h : set s i service w = .ok (w', old)) : Next w w'
  | unset {w : Session} (s i) : Next w (w.unset s i).1
  | cloneHandle {w : Session} (s) : Next w (w.cloneHandle s)
  | dropHandle {w : Session} (s) : Next w (w.dropHandle s)
  | takeProxy {w w' : Session} {name s i} (h : w.takeProxy name s i = .ok w') : Next w w'
  | cloneProxy {w : Session} (source name) : Next w (w.cloneProxy source name)
  | dropProxy {w : Session} (name) : Next w (w.dropProxy name)
  | call {w : Session} (target label shape hold method args) :
      Next w (w.call target label shape hold method args).1
  | notify {w w' : Session} {target method args} (h : w.notify target method args = .ok w') : Next w w'
  | await {w : Session} (label) : Next w (w.await label)
  | cancel {w : Session} (label) : Next w (w.cancel label).1
  | dropCaller {w : Session} (label) : Next w (w.dropCaller label)
  | startClose {w : Session} (s) : Next w (w.startClose s)
  | startAwaitClosed {w : Session} (s) : Next w (w.startAwaitClosed s)
  | startAwaitEnd {w : Session} (s) : Next w (w.startAwaitEnd s)
  | openGate {w : Session} (name) : Next w (w.openGate name)
  | newRecord {w : Session} : Next w w.newRecord
  | turn {w : Session} (t) : Next w (w.turn t)
  | settle {w : Session} : Next w w.settle
  | advance {w : Session} (ms) : Next w (w.advance ms)

/-- **Whatever users do in a session is a course of each of its endpoints.** -/
theorem Next.leads (h : Next w w') : w.Leads w' := by
  cases h with
  | set h => exact leads_set h
  | unset s i => exact leads_unset w s i
  | cloneHandle s => exact leads_modifyParty w s fun _ => rfl
  | dropHandle s =>
      have hback : w.Leads (w.modifyParty s fun p => { p with handles := p.handles - 1 }) :=
        leads_modifyParty w s fun _ => rfl
      exact hback.trans (leads_release _ s)
  | takeProxy h => exact leads_takeProxy h
  | cloneProxy source name =>
      unfold Session.cloneProxy
      split
      · exact .refl w
      · exact leads_putProxy w name _
  | dropProxy name =>
      have hback : w.Leads { w with proxies := w.proxies.filter fun p => p.1 ≠ name } :=
        .of_eq fun s' => by cases s' <;> rfl
      exact hback.trans (leads_releaseBoth _)
  | call target label shape hold method args => exact leads_call w target label shape hold method args
  | notify h => exact leads_notify h
  | await label => exact leads_await w label
  | cancel label => exact leads_cancel w label
  | dropCaller label => exact leads_dropCaller w label
  | turn t => exact leads_turn t w
  | settle => exact leads_settle w
  | advance ms => exact leads_advance ms w
  | _ => exact .of_eq fun s' => by cases s' <;> rfl

/-- The sessions that come of a link with endpoints that have just been opened. The clock may stand
anywhere, and the link may come into any state by itself or through a peer. -/
inductive Reached (link : Link) (configs : List Config) : Session → Prop where
  | start : Reached link configs (ofLink link configs)
  | next {w w' : Session} (h : Reached link configs w) (h' : Next w w') : Reached link configs w'
  | clock {w : Session} (h : Reached link configs w) (now) :
      Reached link configs { w with now := now }
  | change {w : Session} (h : Reached link configs w) (link' wakes) :
      Reached link configs (w.setLink link' wakes)

/-- Each endpoint of a session is on a course. -/
def OnCourse (w : Session) : Prop :=
  ∀ s, ∀ e ∈ w.endpoint? s, ∃ config deeds, e = ((Course.ofConfig config).run deeds).endpoint

theorem OnCourse.leads (h : w.OnCourse) (h' : w.Leads w') : w'.OnCourse := by
  intro s e he
  obtain ⟨deeds, hdeeds⟩ := h' s
  rw [hdeeds] at he
  obtain ⟨e₀, he₀, rfl⟩ := Option.map_eq_some_iff.mp he
  obtain ⟨config, before, rfl⟩ := h s e₀ he₀
  refine ⟨config, before ++ deeds, ?_⟩
  rw [Course.run_append, Course.endpoint_run (Course.run before _)]

theorem onCourse_openSide (c : Config) (h : w.OnCourse) : (w.openSide c).OnCourse := by
  intro s e he
  by_cases hs : s = c.side
  · refine ⟨c, [], ?_⟩
    have hnew : (w.openSide c).endpoint? s = some (.ofConfig c) := by
      unfold openSide
      subst hs
      cases c.side <;> rfl
    rw [hnew] at he
    exact (Option.some.inj he).symm
  · refine h s e ?_
    have hold : (w.openSide c).endpoint? s = w.endpoint? s := by
      unfold openSide
      revert hs
      cases c.side <;> cases s <;> intro hs
      · exact absurd rfl hs
      · rfl
      · rfl
      · exact absurd rfl hs
    rw [← hold]
    exact he

/-- What holds of a bare link, and is kept when a side is opened, holds of every new session. -/
theorem ofLink_induction {P : Session → Prop} {link : Link} (bare : P { link := link })
    (opened : ∀ w c, P w → P (w.openSide c)) (configs : List Config) :
    P (ofLink link configs) := by
  unfold ofLink
  generalize ({ link := link } : Session) = w₀ at bare
  induction configs generalizing w₀ with
  | nil => exact bare
  | cons c rest ih => exact ih _ (opened w₀ c bare)

theorem onCourse_ofLink (link : Link) (configs : List Config) :
    (ofLink link configs).OnCourse := by
  refine ofLink_induction (fun s e he => ?_) (fun _ c h => onCourse_openSide c h) configs
  cases s <;> cases he

/-- **Every endpoint of every session is on a course**, whatever its link is and whatever its users,
its tasks and its peer do. -/
theorem Reached.course {link : Link} {configs : List Config} (h : Reached link configs w) :
    w.OnCourse := by
  induction h with
  | start => exact onCourse_ofLink link configs
  | next _ h' ih => exact ih.leads h'.leads
  | clock _ now ih => exact ih.leads (.of_eq fun s' => by cases s' <;> rfl)
  | change _ link' wakes ih => exact ih.leads (.of_eq fun s' => by cases s' <;> rfl)

/-- An endpoint that is found closed in a session has no call that waits and no run that has not
been told to stop. -/
theorem Reached.isOver {link : Link} {configs : List Config} (h : Reached link configs w)
    {e : Endpoint Service} (he : e ∈ w.endpoint? s) (hclosed : e.isOpen = false) : e.Over := by
  obtain ⟨config, deeds, rfl⟩ := h.course s e he
  exact (Course.kept_run config deeds).isOver hclosed

end Session

end PeerRpc
