import PeerRpc.Proofs.Duo.Basic
import PeerRpc.Proofs.Host.Custody
import PeerRpc.Proofs.Memory.Contents
import PeerRpc.Proofs.Wire.Basic

/-!
# PeerRpc.Proofs.Duo.Simulation -- a pair in one process is a wire

Every move of a `Duo` is matched by steps of a `Wire` (`Duo.Linked.move`), so what holds of every
wire that can be reached holds of two endpoints on a pair, whatever the capacity of its queues and
the order of turns. A message is on a line as soon as a writer takes it; it may sit in a queue, wait
beside a full one, or be in the hands of the writer. `Duo.Tied` says how the line of a side and the
rest of it fit together.
-/

namespace PeerRpc

variable {η : Type}

/-- The message that the writer has taken and not offered to its queue. -/
def Desk.unsent (k : Desk η) : List Outbound :=
  match k.writing with
  | .sending (.fresh _) => k.host.sending.toList
  | _ => []

/-- Whether the writer and the endpoint agree about the message that is being sent. -/
def Desk.Writes (k : Desk η) : Prop :=
  match k.writing with
  | .idle => k.host.sending = none
  | .sending (.fresh msg) => ∃ o, k.host.sending = some o ∧ o.bytes = msg
  | .sending .blocked => k.host.sending ≠ none
  | .ended => k.host.sending = none ∧ k.host.endpoint.isOpen = false

namespace Duo

/-- How a side with its queue and the line of a wire fit together. `fired` says whether the pair is
closed. -/
structure Tied (limit : Nat) (s : Side) (k : Desk η) (q : Memory.Queue) (fired : Bool)
    (x : Chronicle η) (flight : List Outbound) : Prop where
  chronicle : x = k.chronicle
  /-- The line holds what is in the queue, and behind it what the writer has not offered yet. -/
  flight : ∃ fl, flight = fl ++ k.unsent ∧ fl.map Outbound.bytes = q.contents
  /-- A reader stops receiving once its endpoint is closed. -/
  reading : (∀ op, k.reading ≠ .receiving op) → k.host.endpoint.isOpen = false
  hung : k.reading = .ended → fired = true
  writing : k.Writes
  /-- Nobody but the writer waits for room. -/
  senders : ∀ x ∈ q.senders, x.1 = writerTicket s ∧ k.writing = .sending .blocked
  small : ∀ msg ∈ q.contents, msg.length ≤ limit
  cut : q.cut = true → fired = true

/-- A duo and the wire that it is. -/
structure Linked (l : ChannelLimits) (d : Duo η) (w : Wire η) : Prop where
  limits : d.pair.limits = l
  tied : ∀ s, Tied l.maxMessageSize s (d.desk s) (d.pair.outgoing s) d.pair.closed.fired
    (w.chronicle s) (w.flight s)
  /-- The pair is closed only if an endpoint is. -/
  broken : d.pair.closed.fired = true → ¬w.Up

variable {limit : Nat} {s : Side} {k : Desk η} {q : Memory.Queue} {fired : Bool}
  {x : Chronicle η} {flight : List Outbound}

theorem Tied.fire (h : Tied limit s k q fired x flight) {fired' : Bool}
    (hf : fired = true → fired' = true) : Tied limit s k q fired' x flight :=
  { h with
    hung := fun hr => hf (h.hung hr)
    cut := fun hc => hf (h.cut hc) }

theorem Tied.senders_eq_nil (h : Tied limit s k q fired x flight)
    (hk : k.writing ≠ .sending .blocked) : q.senders = [] :=
  List.eq_nil_iff_forall_not_mem.mpr fun x hx => hk (h.senders x hx).2

/-- A queue with the same contents does as well. -/
theorem Tied.queue (h : Tied limit s k q fired x flight) {q' : Memory.Queue}
    (hc : q'.contents = q.contents) (hs : ∀ x ∈ q'.senders, x ∈ q.senders)
    (hcut : q'.cut = true → fired = true) : Tied limit s k q' fired x flight :=
  { h with
    flight := hc ▸ h.flight
    senders := fun x hx => h.senders x (hs x hx)
    small := hc ▸ h.small
    cut := hcut }

variable [Handler η]

/-- An act that has nothing to do with the message that is being sent. -/
theorem Tied.act (h : Tied limit s k q fired x flight) {a : Act η}
    (hs : (x.host.step a).1.sending = x.host.sending) :
    Tied limit s { k with chronicle := k.chronicle.act a } q fired (x.act a) flight := by
  obtain ⟨rfl, hflight, hreading, hung, hwriting, hsenders, hsmall, hcut⟩ := h
  have hs' : (k.host.step a).1.sending = k.host.sending := hs
  refine ⟨rfl, ?_, fun hr => Host.isOpen_step_of_closed (hreading hr) a, hung, ?_, hsenders, hsmall,
    hcut⟩
  · have hunsent : Desk.unsent { k with chronicle := k.chronicle.act a } = k.unsent := by
      unfold Desk.unsent Desk.host
      dsimp only
      rw [Chronicle.host_act]
      split
      · rw [show (k.chronicle.host.step a).1.sending = k.chronicle.host.sending from hs]
      · rfl
    rw [hunsent]
    exact hflight
  · unfold Desk.Writes Desk.host at hwriting ⊢
    dsimp only at hwriting ⊢
    rw [Chronicle.host_act, show (k.chronicle.host.step a).1.sending = k.chronicle.host.sending from hs]
    split at hwriting
    · exact hwriting
    · exact hwriting
    · exact hwriting
    · exact ⟨hwriting.1, Host.isOpen_step_of_closed hwriting.2 a⟩

/-! ## Putting sides together -/

variable {l : ChannelLimits} {d : Duo η} {w w' : Wire η}

omit [Handler η] in
/-- Two sides make a duo. -/
theorem Linked.put {p : Memory.Pair} (hl : p.limits = l)
    (hself : Tied l.maxMessageSize s k (p.outgoing s) p.closed.fired (w'.chronicle s) (w'.flight s))
    (hother : Tied l.maxMessageSize s.opposite (d.desk s.opposite) (p.outgoing s.opposite)
      p.closed.fired (w'.chronicle s.opposite) (w'.flight s.opposite))
    (hb : p.closed.fired = true → ¬w'.Up) : Linked l (d.put s p k) w' where
  limits := hl
  tied s' := by
    rcases Wire.eq_or_opposite s s' with rfl | rfl
    · rw [desk_put]
      exact hself
    · rw [d.desk_put_ne (Wire.opposite_ne s)]
      exact hother
  broken := hb

/-- An act leaves a closed endpoint closed, so a wire that is down stays down. -/
theorem not_up_act {a : Act η} (h : ¬w.Up) : ¬(w.act s a).Up := by
  intro hup
  refine h fun s' => ?_
  have hopen := hup s'
  by_cases hs : s' = s
  · subst hs
    rw [Wire.host_act_same] at hopen
    exact Host.isOpen_of_step _ a hopen
  · rwa [Wire.host_act_ne _ hs] at hopen

omit [Handler η] in
theorem not_up_of_closed (h : (w.host s).endpoint.isOpen = false) : ¬w.Up := by
  intro hup
  rw [hup s] at h
  cases h

omit [Handler η] in
theorem Linked.host_eq (h : Linked l d w) (s : Side) : w.host s = d.host s :=
  congrArg Chronicle.host (h.tied s).chronicle

/-! ## The turn of a reader -/

/-- All that the turn of a reader comes to. -/
inductive ReadTurn (d : Duo η) (s : Side) : Duo η → Prop
  | ended (reading : (d.desk s).reading = .ended) : ReadTurn d s d
  /-- It closes the pair. -/
  | hangsUp (reading : (d.desk s).reading = .hangingUp) :
      ReadTurn d s (d.put s d.pair.close.1 { d.desk s with reading := .ended })
  /-- It finds its endpoint closed. -/
  | stops (op : Memory.Receiving) (p : Memory.Pair) (reading : (d.desk s).reading = .receiving op)
      (closed : (d.host s).endpoint.isOpen = false) (drained : Memory.Drained s d.pair p)
      (contents : (p.incoming s).contents = (d.pair.incoming s).contents) :
      ReadTurn d s (d.put s p { d.desk s with reading := .hangingUp })
  /-- There is no message. -/
  | waits (op op' : Memory.Receiving) (p : Memory.Pair)
      (reading : (d.desk s).reading = .receiving op)
      (isOpen : (d.host s).endpoint.isOpen = true) (drained : Memory.Drained s d.pair p)
      (whole : d.pair.closed.fired = false) (empty : (d.pair.incoming s).contents = [])
      (contents : (p.incoming s).contents = (d.pair.incoming s).contents) :
      ReadTurn d s (d.put s p { d.desk s with reading := .receiving op' })
  /-- It finds the pair closed, and closes its endpoint. -/
  | fails (op : Memory.Receiving) (p : Memory.Pair) (reading : (d.desk s).reading = .receiving op)
      (isOpen : (d.host s).endpoint.isOpen = true) (drained : Memory.Drained s d.pair p)
      (contents : (p.incoming s).contents = (d.pair.incoming s).contents) :
      ReadTurn d s (d.put s p { d.desk s with
        chronicle := (d.desk s).chronicle.act (.op .close), reading := .hangingUp })
  /-- It receives the first message. -/
  | receives (op : Memory.Receiving) (p : Memory.Pair) (msg : Bytes)
      (reading : (d.desk s).reading = .receiving op)
      (isOpen : (d.host s).endpoint.isOpen = true) (drained : Memory.Drained s d.pair p)
      (contents : (d.pair.incoming s).contents = msg :: (p.incoming s).contents) :
      ReadTurn d s (d.put s p { d.desk s with
        chronicle := (d.desk s).chronicle.act (.receive msg), reading := .receiving .fresh })

theorem readTurn (d : Duo η) (s : Side) : ReadTurn d s (d.read s) := by
  cases hk : (d.desk s).reading with
  | ended =>
      rw [read_of_ended hk]
      exact .ended hk
  | hangingUp =>
      rw [read_of_hangingUp hk]
      exact .hangsUp hk
  | receiving op =>
      cases hopen : (d.host s).endpoint.isOpen with
      | false =>
          obtain ⟨hdrain, hcontents⟩ := Memory.drained_abandonRecv s (readerTicket s) op d.pair
          rw [read_of_closed hk hopen]
          exact .stops op _ hk hopen hdrain hcontents
      | true =>
          obtain ⟨hdrain, hreceived⟩ := Memory.received_recv s (readerTicket s) op d.pair
          cases hreceived with
          | waits op' progress whole empty contents =>
              rw [read_of_pending hk hopen progress]
              exact .waits op op' _ hk hopen hdrain whole empty contents
          | failed err progress broken contents =>
              rw [read_of_error hk hopen progress]
              exact .fails op _ hk hopen hdrain contents
          | message msg progress contents =>
              rw [read_of_message hk hopen progress]
              exact .receives op _ msg hk hopen hdrain contents

/-! ## Moves -/

variable {ok : Op η → Prop} {c : Side → Config}

/-- What is done at an endpoint is done at the endpoint of the wire. -/
theorem Linked.op (h : Linked l d w) (s : Side) {o : Op η} (ho : ok o) :
    ∃ w', Wire.Steps l.maxMessageSize ok w w' ∧ Linked l (d.move (.op s o)) w' := by
  refine ⟨w.act s (.op o), .single (.op s o ho), ?_⟩
  have hsending := ((w.host s).posts_operate o).sending
  refine .put h.limits ?_ ?_ fun hf => not_up_act (h.broken hf)
  · rw [Wire.chronicle_act_same, Wire.flight_act]
    exact (h.tied s).act hsending
  · rw [w.chronicle_act_ne (Wire.opposite_ne s), Wire.flight_act]
    exact h.tied s.opposite

omit [Handler η] in
/-- A pair that is closed because the other end has gone was closed before. -/
theorem Linked.fired_of_drained (h : Linked l d w) {p : Memory.Pair}
    (hdrain : Memory.Drained s d.pair p) : p.closed.fired = d.pair.closed.fired := by
  rcases hdrain.fired with heq | ⟨heq, hcut⟩
  · exact heq
  · rw [heq, (h.tied s.opposite).cut hcut]

omit [Handler η] in
/-- A receiver that takes no message leaves the other side as it is. -/
theorem Linked.tied_of_drained (h : Linked l d w) {p : Memory.Pair}
    (hdrain : Memory.Drained s d.pair p)
    (hcontents : (p.incoming s).contents = (d.pair.incoming s).contents) :
    Tied l.maxMessageSize s.opposite (d.desk s.opposite) (p.outgoing s.opposite)
      d.pair.closed.fired (w.chronicle s.opposite) (w.flight s.opposite) :=
  (h.tied s.opposite).queue hcontents hdrain.senders fun hcut =>
    (h.tied s.opposite).cut (hdrain.cut ▸ hcut)

omit [Handler η] in
/-- A reader that takes no message does nothing at its endpoint. -/
theorem Linked.drained (h : Linked l d w) {p : Memory.Pair} (hdrain : Memory.Drained s d.pair p)
    (hcontents : (p.incoming s).contents = (d.pair.incoming s).contents) {r : Reading}
    (hr : (∀ op, r ≠ .receiving op) → (d.host s).endpoint.isOpen = false) (hended : r ≠ .ended) :
    Linked l (d.put s p { d.desk s with reading := r }) w := by
  have hfired := h.fired_of_drained hdrain
  refine .put (hdrain.limits.trans h.limits) ?_ ?_ fun hf => h.broken (hfired ▸ hf)
  · rw [hfired, hdrain.outgoing]
    exact { h.tied s with
      reading := hr
      hung := fun he => absurd he hended }
  · rw [hfired]
    exact h.tied_of_drained hdrain hcontents

/-- A reader that finds the pair closed closes its endpoint. -/
theorem Linked.failed (h : Linked l d w) (hclose : ok .close) {p : Memory.Pair}
    (hdrain : Memory.Drained s d.pair p)
    (hcontents : (p.incoming s).contents = (d.pair.incoming s).contents) :
    ∃ w', Wire.Steps l.maxMessageSize ok w w' ∧ Linked l (d.put s p { d.desk s with
      chronicle := (d.desk s).chronicle.act (.op .close), reading := .hangingUp }) w' := by
  have hfired := h.fired_of_drained hdrain
  refine ⟨w.act s (.op .close), .single (.op s .close hclose),
    .put (hdrain.limits.trans h.limits) ?_ ?_ fun hf => not_up_act (h.broken (hfired ▸ hf))⟩
  · rw [hfired, hdrain.outgoing, Wire.chronicle_act_same, Wire.flight_act]
    have hsending : ((w.chronicle s).host.step (.op .close)).1.sending =
        (w.chronicle s).host.sending := ((w.host s).posts_operate .close).sending
    exact { (h.tied s).act hsending with
      reading := fun _ => Endpoint.isOpen_close _
      hung := nofun }
  · rw [hfired, w.chronicle_act_ne (Wire.opposite_ne s), Wire.flight_act]
    exact h.tied_of_drained hdrain hcontents

/-- What a reader receives was the first message in flight. -/
theorem Linked.received (h : Linked l d w) {p : Memory.Pair}
    (hdrain : Memory.Drained s d.pair p) {msg : Bytes}
    (hcontents : (d.pair.incoming s).contents = msg :: (p.incoming s).contents) :
    ∃ w', Wire.Steps l.maxMessageSize ok w w' ∧ Linked l (d.put s p { d.desk s with
      chronicle := (d.desk s).chronicle.act (.receive msg), reading := .receiving .fresh }) w' := by
  have hfired := h.fired_of_drained hdrain
  have hother := h.tied s.opposite
  have hqueue : (d.pair.outgoing s.opposite).contents =
      msg :: (p.outgoing s.opposite).contents := hcontents
  obtain ⟨fl, hflight, hbytes⟩ := hother.flight
  rw [hqueue] at hbytes
  obtain ⟨o, fl, rfl, rfl, hrest⟩ := List.map_eq_cons_iff.mp hbytes
  have hsize : o.bytes.length ≤ l.maxMessageSize := by
    refine hother.small _ ?_
    rw [hqueue]
    exact List.mem_cons_self
  have hstep : Wire.Step l.maxMessageSize ok w _ :=
    .receive s.opposite o (fl ++ (d.desk s.opposite).unsent) hflight hsize
  rw [Side.opposite_opposite] at hstep
  refine ⟨_, .single hstep, .put (hdrain.limits.trans h.limits) ?_ ?_ ?_⟩
  · rw [hfired, hdrain.outgoing, Wire.chronicle_setFlight, Wire.chronicle_act_same,
      Wire.flight_setFlight_ne _ (Wire.opposite_ne s).symm, Wire.flight_act]
    have hsending : ((w.chronicle s).host.step (.receive o.bytes)).1.sending =
        (w.chronicle s).host.sending := ((w.host s).posts_receive o.bytes).sending
    exact { (h.tied s).act hsending with
      reading := fun hr => absurd rfl (hr .fresh)
      hung := nofun }
  · rw [hfired, Wire.chronicle_setFlight, w.chronicle_act_ne (Wire.opposite_ne s),
      Wire.flight_setFlight_same]
    exact { hother with
      flight := ⟨fl, rfl, hrest⟩
      senders := fun x hx => hother.senders x (hdrain.senders x hx)
      small := fun m hm => hother.small m (hqueue ▸ List.mem_cons_of_mem _ hm)
      cut := fun hcut => hother.cut (hdrain.cut ▸ hcut) }
  · intro hf hup
    exact not_up_act (h.broken (hfired ▸ hf)) hup

/-- The turn of a reader is a message that arrives, or the end of its endpoint, or nothing. -/
theorem Linked.read (h : Linked l d w) (hclose : ok .close) (s : Side) :
    ∃ w', Wire.Steps l.maxMessageSize ok w w' ∧ Linked l (d.read s) w' := by
  have hself := h.tied s
  have hturn := d.readTurn s
  generalize d.read s = d' at hturn ⊢
  cases hturn with
  | ended reading => exact ⟨w, .refl, h⟩
  | hangsUp reading =>
      have hclosed := hself.reading (by rw [reading]; nofun)
      refine ⟨w, .refl, .put h.limits ?_ ?_ fun _ => not_up_of_closed (s := s) ?_⟩
      · rw [Memory.Pair.outgoing_close]
        exact { hself.fire (fun _ => rfl) with
          reading := fun _ => hclosed
          hung := fun _ => rfl }
      · rw [Memory.Pair.outgoing_close]
        exact (h.tied s.opposite).fire fun _ => rfl
      · rw [h.host_eq]
        exact hclosed
  | stops op p reading closed drained contents =>
      exact ⟨w, .refl, h.drained drained contents (fun _ => closed) nofun⟩
  | waits op op' p reading isOpen drained whole empty contents =>
      exact ⟨w, .refl, h.drained drained contents (fun hr => absurd rfl (hr op')) nofun⟩
  | fails op p reading isOpen drained contents => exact h.failed hclose drained contents
  | receives op p msg reading isOpen drained contents => exact h.received drained contents

omit [Handler η] in
/-- A sender leaves the queue of the other side as it is. -/
theorem Linked.tied_of_fed (h : Linked l d w) {p : Memory.Pair} (hfed : Memory.Fed s d.pair p) :
    Tied l.maxMessageSize s.opposite (d.desk s.opposite) (p.outgoing s.opposite)
      p.closed.fired (w.chronicle s.opposite) (w.flight s.opposite) := by
  have hqueue : p.outgoing s.opposite = d.pair.outgoing s.opposite := hfed.incoming
  rw [hqueue, hfed.fired]
  exact h.tied s.opposite

omit [Handler η] in
/-- Whoever finds the pair closed when it sends has a reason to. -/
theorem Linked.down (h : Linked l d w) (s : Side)
    (hbroken : d.pair.closed.fired = true ∨ (d.pair.outgoing s).cut = true) : ¬w.Up := by
  rcases hbroken with hf | hcut
  · exact h.broken hf
  · exact h.broken ((h.tied s).cut hcut)

/-- A writer that has sent its message, or has been refused, is idle. -/
theorem Tied.answered (h : Tied limit s k q fired x flight) {r : Except TransportError Unit}
    {q' : Memory.Queue} {fl : List Outbound} {writing : Writing}
    (hidle : (x.host.step (.sent r)).1.sending = none)
    (hwriting : writing = .idle ∨
      writing = .ended ∧ (x.host.step (.sent r)).1.endpoint.isOpen = false)
    (hbytes : fl.map Outbound.bytes = q'.contents) (hs : q'.senders = [])
    (hsmall : ∀ msg ∈ q'.contents, msg.length ≤ limit) (hcut : q'.cut = true → fired = true) :
    Tied limit s
      { k with chronicle := k.chronicle.act (.sent r), writing := writing } q' fired
      (x.act (.sent r)) fl := by
  obtain ⟨rfl, -, hreading, hung, -, -, -, -⟩ := h
  refine ⟨rfl, ⟨fl, ?_, hbytes⟩, fun hr => Host.isOpen_step_of_closed (hreading hr) _, hung, ?_, ?_,
    hsmall, hcut⟩
  · rcases hwriting with rfl | ⟨rfl, -⟩ <;> exact (List.append_nil fl).symm
  · rcases hwriting with rfl | ⟨rfl, hclosed⟩
    · exact hidle
    · exact ⟨hidle, hclosed⟩
  · intro y hy
    rw [hs] at hy
    cases hy

/-- A writer that finds its line broken may lose messages. -/
theorem steps_broken (hdown : ¬w.Up) {s : Side} {fl : List Outbound}
    (hsub : fl.Sublist (w.flight s)) :
    Wire.Steps l.maxMessageSize ok w ((w.setFlight s fl).act s (.sent (.error .closed))) :=
  .tail (.single (.lose s fl hdown hsub)) (.broken s hdown)

omit [Handler η] in
theorem Linked.cut_of_fed (h : Linked l d w) {p : Memory.Pair} (hfed : Memory.Fed s d.pair p)
    (hcut : (p.outgoing s).cut = true) : p.closed.fired = true :=
  hfed.fired.trans ((h.tied s).cut (hfed.cut ▸ hcut))

/-- The line has taken the message of a writer. -/
theorem Linked.sent (h : Linked l d w) {p : Memory.Pair} (hfed : Memory.Fed s d.pair p)
    (hbytes : (w.flight s).map Outbound.bytes = (p.outgoing s).contents)
    (hsenders : (p.outgoing s).senders = [])
    (hsmall : ∀ msg ∈ (p.outgoing s).contents, msg.length ≤ l.maxMessageSize) :
    ∃ w', Wire.Steps l.maxMessageSize ok w w' ∧ Linked l (d.put s p { d.desk s with
      chronicle := (d.desk s).chronicle.act (.sent (.ok ())), writing := .idle }) w' := by
  refine ⟨_, .single (.sent s), .put (hfed.limits.trans h.limits) ?_ ?_ ?_⟩
  · rw [Wire.chronicle_act_same, Wire.flight_act]
    refine ((h.tied s).fire fun hf => hfed.fired.trans hf).answered ?_ (Or.inl rfl) hbytes hsenders
      hsmall (h.cut_of_fed hfed)
    rw [Host.step_sent_ok]
  · rw [w.chronicle_act_ne (Wire.opposite_ne s), Wire.flight_act]
    exact h.tied_of_fed hfed
  · exact fun hf => not_up_act (h.broken (hfed.fired ▸ hf))

/-- A writer finds its line broken. What it has not handed over is lost. -/
theorem Linked.lost (h : Linked l d w) (hdown : ¬w.Up) {o : Outbound}
    (hsending : (w.host s).sending = some o) {fl : List Outbound} (hsub : fl.Sublist (w.flight s))
    {p : Memory.Pair} (hfed : Memory.Fed s d.pair p)
    (hbytes : fl.map Outbound.bytes = (p.outgoing s).contents)
    (hsenders : (p.outgoing s).senders = [])
    (hsmall : ∀ msg ∈ (p.outgoing s).contents, msg.length ≤ l.maxMessageSize) :
    ∃ w', Wire.Steps l.maxMessageSize ok w w' ∧ Linked l (d.put s p { d.desk s with
      chronicle := (d.desk s).chronicle.act (.sent (.error .closed)), writing := .ended }) w' := by
  refine ⟨_, steps_broken hdown hsub, .put (hfed.limits.trans h.limits) ?_ ?_
    fun _ => not_up_act hdown⟩
  · rw [Wire.chronicle_act_same, Wire.chronicle_setFlight, Wire.flight_act,
      Wire.flight_setFlight_same]
    refine ((h.tied s).fire fun hf => hfed.fired.trans hf).answered ?_ (Or.inr ⟨rfl, ?_⟩) hbytes
      hsenders hsmall (h.cut_of_fed hfed)
    · exact ((w.host s).posts_sent_error _).sending
    · exact Host.isOpen_of_broken hsending
  · rw [Wire.chronicle_act_ne _ (Wire.opposite_ne s), Wire.chronicle_setFlight, Wire.flight_act,
      Wire.flight_setFlight_ne _ (Wire.opposite_ne s)]
    exact h.tied_of_fed hfed

/-- A writer offers its message. -/
theorem Linked.write_of_offer (h : Linked l d w) {s : Side} {o : Outbound} {fl : List Outbound}
    (hk : (d.desk s).writing = .sending (.fresh o.bytes))
    (hsending : (d.desk s).host.sending = some o) (hflight : w.flight s = fl ++ [o])
    (hbytes : fl.map Outbound.bytes = (d.pair.outgoing s).contents) :
    ∃ w', Wire.Steps l.maxMessageSize ok w w' ∧ Linked l (d.write s) w' := by
  have hself := h.tied s
  have hsending' : (w.host s).sending = some o := by
    rw [h.host_eq]
    exact hsending
  have hsenders : (d.pair.outgoing s).senders = [] := hself.senders_eq_nil (hk ▸ nofun)
  obtain ⟨hfed, hoffered⟩ := Memory.offered_send s (writerTicket s) o.bytes hsenders
  have hall : (w.flight s).map Outbound.bytes = (d.pair.outgoing s).contents ++ [o.bytes] := by
    rw [hflight, List.map_append, hbytes]
    rfl
  -- the queue with the message behind all others
  have hsmall : o.bytes.length ≤ d.pair.limits.maxMessageSize →
      ∀ msg ∈ (d.pair.outgoing s).contents ++ [o.bytes], msg.length ≤ l.maxMessageSize := by
    intro hsize msg hmsg
    rcases List.mem_append.mp hmsg with hmsg | hmsg
    · exact hself.small msg hmsg
    · rw [List.mem_singleton.mp hmsg, ← h.limits]
      exact hsize
  cases hoffered with
  | accepted progress size contents senders =>
      rw [write_of_sent hk progress]
      exact h.sent hfed (hall.trans contents.symm) senders (contents ▸ hsmall size)
  | blocked progress size contents senders =>
      rw [write_of_pending hk progress]
      refine ⟨w, .refl, .put (hfed.limits.trans h.limits) ?_ (h.tied_of_fed hfed)
        fun hf => h.broken (hfed.fired ▸ hf)⟩
      exact { hself.fire fun hf => hfed.fired.trans hf with
        flight := ⟨w.flight s, (List.append_nil _).symm, hall.trans contents.symm⟩
        writing := by
          show (d.desk s).host.sending ≠ none
          rw [hsending]
          nofun
        senders := by
          intro x hx
          rw [senders] at hx
          rw [List.mem_singleton.mp hx]
          exact ⟨rfl, rfl⟩
        small := contents ▸ hsmall size
        cut := h.cut_of_fed hfed }
  | tooLong size progress state =>
      rw [write_of_error hk progress, state]
      rw [h.limits] at size ⊢
      refine ⟨_, .single (.refuse s o fl hsending' hflight size), .put h.limits ?_ ?_ ?_⟩
      · rw [Wire.chronicle_setFlight, Wire.chronicle_act_same, Wire.flight_setFlight_same]
        refine hself.answered ?_ (Or.inl rfl) hbytes hsenders hself.small hself.cut
        exact ((w.host s).posts_sent_error _).sending
      · rw [Wire.chronicle_setFlight, w.chronicle_act_ne (Wire.opposite_ne s),
          Wire.flight_setFlight_ne _ (Wire.opposite_ne s), Wire.flight_act]
        exact h.tied s.opposite
      · exact fun hf hup => not_up_act (h.broken hf) hup
  | broken broken progress state =>
      rw [write_of_error hk progress]
      have hsub : fl.Sublist (w.flight s) := by
        rw [hflight]
        exact List.sublist_append_left fl [o]
      refine h.lost (h.down s broken) hsending' hsub hfed ?_ ?_ ?_
      · rw [state]
        exact hbytes
      · rw [state]
        exact hsenders
      · rw [state]
        exact hself.small

omit [Handler η] in
/-- Nobody but the writer waits in its queue, so nobody waits once the writer has withdrawn. -/
theorem Tied.senders_withdraw (h : Tied limit s k q fired x flight) :
    (q.withdraw (writerTicket s)).senders = [] := by
  refine List.filter_eq_nil_iff.mpr fun x hx => ?_
  simp [(h.senders x hx).1]

/-- A writer whose message waits looks whether it has found room. -/
theorem Linked.write_of_blocked (h : Linked l d w) {s : Side} {o : Outbound}
    (hk : (d.desk s).writing = .sending .blocked)
    (hsending : (d.desk s).host.sending = some o)
    (hbytes : (w.flight s).map Outbound.bytes = (d.pair.outgoing s).contents) :
    ∃ w', Wire.Steps l.maxMessageSize ok w w' ∧ Linked l (d.write s) w' := by
  have hself := h.tied s
  have hsending' : (w.host s).sending = some o := by
    rw [h.host_eq]
    exact hsending
  obtain ⟨hfed, hresumed⟩ := Memory.resumed_send s (writerTicket s) d.pair
  cases hresumed with
  | done progress outgoing waits =>
      rw [write_of_sent hk progress]
      -- nobody else waits in this queue
      have hsenders : (d.pair.outgoing s).senders = [] := by
        refine List.eq_nil_iff_forall_not_mem.mpr fun x hx => ?_
        have hx' := List.any_eq_false.mp waits x hx
        exact hx' (decide_eq_true (hself.senders x hx).1)
      refine h.sent hfed ?_ ?_ ?_
      · rw [outgoing]
        exact hbytes
      · rw [outgoing]
        exact hsenders
      · rw [outgoing]
        exact hself.small
  | broken broken progress outgoing =>
      rw [write_of_error hk progress]
      -- what has found room stays
      have hcontents : ((d.pair.outgoing s).withdraw (writerTicket s)).contents =
          (d.pair.outgoing s).messages := by
        unfold Memory.Queue.contents
        rw [hself.senders_withdraw]
        exact List.append_nil _
      have htake : ((w.flight s).take (d.pair.outgoing s).messages.length).map Outbound.bytes =
          (d.pair.outgoing s).messages := by
        rw [List.map_take, hbytes, Memory.Queue.contents, List.take_left]
      have hsub := List.take_sublist (d.pair.outgoing s).messages.length (w.flight s)
      refine h.lost (h.down s broken) hsending' hsub hfed ?_ ?_ ?_
      · rw [outgoing]
        exact htake.trans hcontents.symm
      · rw [outgoing]
        exact hself.senders_withdraw
      · rw [outgoing, hcontents]
        exact fun msg hmsg => hself.small msg (List.mem_append_left _ hmsg)
  | waits progress state waits =>
      rw [write_of_pending hk progress, state]
      refine ⟨w, .refl, .put h.limits ?_ (h.tied s.opposite) h.broken⟩
      rw [← hk]
      exact hself

/-- An idle writer takes the first message that waits, or ends with its endpoint. -/
theorem Linked.write_of_idle (h : Linked l d w) {s : Side} (hk : (d.desk s).writing = .idle)
    (hsending : (d.desk s).host.sending = none)
    (hbytes : (w.flight s).map Outbound.bytes = (d.pair.outgoing s).contents) :
    ∃ w', Wire.Steps l.maxMessageSize ok w w' ∧ Linked l (d.write s) w' := by
  have hself := h.tied s
  have hhost := h.host_eq s
  have hsenders : (d.pair.outgoing s).senders = [] := hself.senders_eq_nil (hk ▸ nofun)
  cases hopen : (d.host s).endpoint.isOpen with
  | false =>
      rw [write_of_closed hk hopen]
      refine ⟨w, .refl, .put h.limits ?_ (h.tied s.opposite) h.broken⟩
      exact { hself with
        flight := ⟨w.flight s, (List.append_nil _).symm, hbytes⟩
        writing := ⟨hsending, hopen⟩
        senders := fun x hx => absurd hx (hsenders ▸ List.not_mem_nil) }
  | true =>
      cases hfirst : (d.host s).endpoint.outbound with
      | nil =>
          rw [write_of_none hk hopen hfirst]
          exact ⟨w, .refl, h⟩
      | cons o rest =>
          rw [write_of_first hk hopen hfirst]
          have htaken : ((d.desk s).host.step .take).1.sending = some o := by
            rw [Host.step_take hsending hopen hfirst]
          refine ⟨_, .single (.take s o rest (hhost ▸ hsending) (hhost ▸ hopen) (hhost ▸ hfirst)),
            .put h.limits ?_ ?_ ?_⟩
          · rw [Wire.chronicle_setFlight, Wire.chronicle_act_same, Wire.flight_setFlight_same]
            refine ⟨congrArg _ hself.chronicle, ⟨w.flight s, ?_, hbytes⟩,
              fun hr => Host.isOpen_step_of_closed (hself.reading hr) _, hself.hung,
              ⟨o, htaken, rfl⟩, fun x hx => absurd hx (hsenders ▸ List.not_mem_nil), hself.small,
              hself.cut⟩
            -- the message is on the line, and the writer has not offered it yet
            show w.flight s ++ [o] = w.flight s ++ ((d.desk s).host.step .take).1.sending.toList
            rw [htaken]
            rfl
          · rw [Wire.chronicle_setFlight, w.chronicle_act_ne (Wire.opposite_ne s),
              Wire.flight_setFlight_ne _ (Wire.opposite_ne s), Wire.flight_act]
            exact h.tied s.opposite
          · exact fun hf hup => not_up_act (h.broken hf) hup

/-- The turn of a writer is a message that is taken, or the answer of the line to one. -/
theorem Linked.write (h : Linked l d w) (s : Side) :
    ∃ w', Wire.Steps l.maxMessageSize ok w w' ∧ Linked l (d.write s) w' := by
  obtain ⟨fl, hflight, hbytes⟩ := (h.tied s).flight
  have hwriting := (h.tied s).writing
  unfold Desk.Writes at hwriting
  unfold Desk.unsent at hflight
  cases hk : (d.desk s).writing with
  | ended =>
      rw [write_of_ended hk]
      exact ⟨w, .refl, h⟩
  | idle =>
      rw [hk] at hwriting hflight
      rw [List.append_nil] at hflight
      exact h.write_of_idle hk hwriting (hflight ▸ hbytes)
  | sending op =>
      cases op with
      | fresh msg =>
          rw [hk] at hwriting hflight
          obtain ⟨o, hsending, rfl⟩ := hwriting
          dsimp only at hflight
          rw [hsending] at hflight
          exact h.write_of_offer hk hsending hflight hbytes
      | blocked =>
          rw [hk] at hwriting hflight
          obtain ⟨o, hsending⟩ := Option.ne_none_iff_exists'.mp hwriting
          rw [List.append_nil] at hflight
          exact h.write_of_blocked hk hsending (hflight ▸ hbytes)

/-- **Every move of a duo is matched by steps of a wire.** -/
theorem Linked.move (h : Linked l d w) (hclose : ok .close) {m : Move η} (hm : m.Meets ok) :
    ∃ w', Wire.Steps l.maxMessageSize ok w w' ∧ Linked l (d.move m) w' := by
  cases m with
  | op s o => exact h.op s hm
  | read s => exact h.read hclose s
  | write s => exact h.write s
  | shut s =>
      simp only [Duo.move]
      cases hopen : (d.host s).endpoint.isOpen with
      | true => exact ⟨w, .refl, h⟩
      | false =>
          refine ⟨w, .refl, h.limits, fun s' => ?_, fun _ => not_up_of_closed (s := s) ?_⟩
          · rw [if_neg Bool.false_ne_true, Memory.Pair.outgoing_close]
            exact (h.tied s').fire fun _ => rfl
          · rw [h.host_eq]
            exact hopen
  | release s =>
      simp only [Duo.move]
      split
      · next hreading hwriting =>
          obtain ⟨hlimits, hfired, hkept⟩ := Memory.kept_drop s d.pair
          have hclosed := (h.tied s).reading (by rw [hreading]; nofun)
          refine ⟨w, .refl, hlimits.trans h.limits, fun s' => ?_,
            fun _ => not_up_of_closed (s := s) ?_⟩
          · exact ((h.tied s').fire fun _ => hfired).queue (hkept s').1 (hkept s').2
              fun _ => hfired
          · rw [h.host_eq]
            exact hclosed
      · exact ⟨w, .refl, h⟩

omit [Handler η] in
theorem linked_ofConfigs (l : ChannelLimits) (c : Side → Config) :
    Linked l (.ofConfigs l c : Duo η) (.ofConfigs c) where
  limits := rfl
  tied s := by
    have hqueue : (Memory.Pair.ofLimits l).outgoing s = { capacity := l.queueCapacity } := by
      cases s <;> rfl
    show Tied _ s _ ((Memory.Pair.ofLimits l).outgoing s) _ _ _
    rw [hqueue]
    refine ⟨rfl, ⟨[], rfl, rfl⟩, fun hr => absurd rfl (hr .fresh), nofun, rfl, ?_, ?_, nofun⟩
    · exact fun _ hx => absurd hx List.not_mem_nil
    · exact fun _ hm => absurd hm List.not_mem_nil
  broken := nofun

/-- **A duo is a wire, whatever its queues and its schedule.** -/
theorem exists_wire (l : ChannelLimits) (c : Side → Config) (hclose : ok .close)
    {moves : List (Move η)} (hmoves : ∀ m ∈ moves, m.Meets ok) :
    ∃ w, Wire.Reached l.maxMessageSize ok c w ∧ Linked l ((ofConfigs l c).run moves) w := by
  induction moves using List.reverseRecOn with
  | nil => exact ⟨_, .start, linked_ofConfigs l c⟩
  | append_singleton moves m ih =>
      obtain ⟨w, hw, h⟩ := ih fun m' hm' => hmoves m' (List.mem_append_left _ hm')
      obtain ⟨w', hsteps, h'⟩ :=
        h.move hclose (hmoves m (List.mem_append_right _ List.mem_cons_self))
      rw [run_concat]
      exact ⟨w', hw.steps hsteps, h'⟩

end Duo

end PeerRpc
