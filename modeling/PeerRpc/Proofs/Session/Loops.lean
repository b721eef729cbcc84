import PeerRpc.Proofs.Host.Exchange
import PeerRpc.Proofs.Session.Tasks

/-!
# PeerRpc.Proofs.Session.Loops -- the loops of a session are the loops of a duo

A turn of a reader or a writer is one move of the duo that the session shows, or two: a session
closes the pair in the turn in which its reader ends, and offers a message in the turn in which its
writer takes it (`Shows.readTurn`, `Shows.writeTurn`).
-/

namespace PeerRpc

namespace Session

variable {w w' : Session} {d : Duo Service} {s : Side} {k : Desk Service} {t : Ticket}

/-! ## The reader -/

theorem recv_memory (p : Memory.Pair) (s : Side) (t : Ticket) (op : Link.Receiving) :
    (Link.memory p).recv s t op =
      Link.lift Link.memory Link.Receiving.memory (Memory.recv s t op.onPair p) := by
  cases op <;> rfl

theorem abandonRecv_memory (p : Memory.Pair) (s : Side) (t : Ticket) (op : Link.Receiving) :
    (Link.memory p).abandonRecv s t op =
      (.memory (Memory.abandonRecv s t op.onPair p).1, (Memory.abandonRecv s t op.onPair p).2) := by
  cases op <;> rfl

/-- The reader of a closed endpoint closes the pair and ends. -/
theorem Shows.hangUpTurn (h : w.Shows d) (hown : w.Owns s (Duo.readerTicket s)) :
    (d.put s d.pair { d.desk s with reading := .hangingUp }).Leads
      (w.hangUpTurn (Duo.readerTicket s) s .fresh).Shows := by
  unfold Session.hangUpTurn
  rw [closeChannel_memory h.link]
  dsimp only
  apply Duo.Leads.move (.read s) trivial
  have hlink := h.setLink s d.pair.close.1 d.pair.close.2
  have hended := hlink.without (k := { d.desk s with reading := .ended })
    (t := Duo.readerTicket s) ⟨hown.used, hown.side⟩ (by rw [Duo.desk_put]) (absurd rfl)
    (fun _ => by rw [Duo.desk_put]) (fun _ => rfl) (absurd · (Duo.readerTicket_ne s))
  rw [Duo.put_put] at hended
  have hread : (d.put s d.pair { d.desk s with reading := .hangingUp }).read s =
      d.put s d.pair.close.1 { d.desk s with reading := .ended } := by
    rw [Duo.read_of_hangingUp (by rw [Duo.desk_put]), Duo.put_put, Duo.desk_put]
    rfl
  show Duo.Leads ((d.put s d.pair { d.desk s with reading := .hangingUp }).read s) _
  rw [hread]
  exact Shows.endTask hended s

/-- The reader goes on receiving. -/
theorem Shows.setReading (h : w.Shows d) (hown : w.Owns s (Duo.readerTicket s))
    (hreading : (d.desk s).reading ≠ .ended) (op : Link.Receiving) :
    (w.setWork (Duo.readerTicket s) (.read op)).Shows
      (d.put s d.pair { d.desk s with reading := .receiving op.onPair }) := by
  refine h.setWork (k := { d.desk s with reading := .receiving op.onPair }) hown rfl ?_ trivial
    ?_ ?_ ?_ ?_
  · exact And.intro rfl rfl
  · exact absurd rfl
  · exact fun _ => rfl
  · exact fun _ => ⟨hreading, op, rfl⟩
  · exact (absurd · (Duo.readerTicket_ne s))

/-- A reader that has ended closes its endpoint, and the pair. -/
theorem Shows.finishReading (h : w.Shows d) (hown : w.Owns s (Duo.readerTicket s)) :
    (d.put s d.pair { d.desk s with
      chronicle := (d.desk s).chronicle.act (.op .close), reading := .hangingUp }).Leads
      ((w.atEndpoint s Endpoint.close).hangUpTurn (Duo.readerTicket s) s .fresh).Shows := by
  have hclose := h.close s
  have hclosed : (w.atEndpoint s Endpoint.close).Owns s (Duo.readerTicket s) := by
    rw [h.atEndpoint_eq]
    exact hown.take s _
  have hturn := hclose.hangUpTurn hclosed
  unfold Duo.move at hturn
  dsimp only at hturn
  rw [Duo.put_put, Duo.desk_put] at hturn
  exact hturn

/-- **The reader takes its turn.** -/
theorem Shows.readTurn (h : w.Shows d) {op : Link.Receiving} {holds : Bool}
    (ht : (t, ⟨s, .read op, holds⟩) ∈ w.tasks) : d.Leads (w.readTurn t s op).Shows := by
  obtain ⟨rfl, hreading⟩ : t = Duo.readerTicket s ∧ (d.desk s).reading = .receiving op.onPair :=
    (h.sides s).does _ ht rfl
  have hown : w.Owns s (Duo.readerTicket s) := h.owns ht
  have hgoing : (d.desk s).reading ≠ .ended := by
    rw [hreading]
    nofun
  apply Duo.Leads.move (.read s) trivial
  show Duo.Leads (d.read s) _
  unfold Session.readTurn
  rw [h.isOpen_eq]
  split
  · -- an open endpoint takes what the pair has for it
    next hopen =>
      rw [h.link, recv_memory]
      generalize hr : Memory.recv s (Duo.readerTicket s) op.onPair d.pair = r
      have hlink := h.setLink s r.state r.wakes
      have hown := hown.setLink (.memory r.state) r.wakes
      dsimp only [Link.lift]
      generalize w.setLink (.memory r.state) r.wakes = w₁ at hlink hown
      have hset : ∀ op', (w₁.setWork (Duo.readerTicket s) (.read op')).Shows
          (d.put s r.state { d.desk s with reading := .receiving op'.onPair }) := by
        intro op'
        have hgoing₁ : ((d.put s r.state (d.desk s)).desk s).reading ≠ .ended := by
          rw [Duo.desk_put]
          exact hgoing
        have hset := hlink.setReading hown hgoing₁ op'
        rw [Duo.put_put, Duo.desk_put] at hset
        exact hset
      -- the same three ways out in the session and in the duo
      cases hp : r.progress with
      | pending op' =>
          rw [Duo.read_of_pending hreading hopen (hr ▸ hp), hr]
          exact Duo.Leads.here (hset (.memory op'))
      | done x =>
          cases x with
          | ok frame =>
              rw [Duo.read_of_message hreading hopen (hr ▸ hp), hr]
              apply Duo.Leads.here
              have hact := (hset .fresh).act (a := .receive frame)
                (f := fun e => e.receive frame) rfl rfl rfl rfl rfl
              exact hact.same (same_again _ _)
          | error err =>
              rw [Duo.read_of_error hreading hopen (hr ▸ hp), hr]
              have hturn := hlink.finishReading hown
              rw [Duo.put_put, Duo.desk_put] at hturn
              exact hturn
  · -- a closed one leaves what is there, and the pair is closed in the same turn
    next hclosed =>
      rw [h.link, abandonRecv_memory, Duo.read_of_closed hreading (Bool.not_eq_true _ ▸ hclosed)]
      have hlink := h.setLink s (Memory.abandonRecv s (Duo.readerTicket s) op.onPair d.pair).1
        (Memory.abandonRecv s (Duo.readerTicket s) op.onPair d.pair).2
      have hturn := hlink.hangUpTurn (hown.setLink _ _)
      rw [Duo.put_put, Duo.desk_put] at hturn
      exact hturn

/-! ## The writer -/

theorem send_memory (p : Memory.Pair) (s : Side) (t : Ticket) (op : Link.Sending) :
    (Link.memory p).send s t op =
      Link.lift Link.memory Link.Sending.memory (Memory.send s t op.onPair p) := by
  cases op <;> rfl

/-- **A step of an endpoint that its writer makes**, which goes on with something else. -/
theorem Shows.writes (h : w.Shows d) (hown : w.Owns s (Duo.writerTicket s))
    (hgoing : (d.desk s).writing ≠ .ended) (a : Act Service) (step : Endpoint.Step Service)
    (writing : Writing) (sending : Option (Outbound × Link.Sending))
    (hendpoint : ((d.host s).step a).1.endpoint = step.1)
    (hevents : ((d.host s).step a).2 = step.2)
    (hnow : ((d.host s).step a).1.now = (d.host s).now)
    (hconcluded : ((d.host s).step a).1.concluded = (d.host s).concluded)
    (hnew : Desk.Does
      { d.desk s with chronicle := (d.desk s).chronicle.act a, writing := writing }
      s (Duo.writerTicket s) (.write sending)) :
    ((w.setWork (Duo.writerTicket s) (.write sending)).take s step).Shows
      (d.put s d.pair
        { d.desk s with chronicle := (d.desk s).chronicle.act a, writing := writing }) := by
  have hmem := w.mem_setWork (Duo.writerTicket s) (.write sending)
  apply Shows.hears step.2
  · refine h.put ?_ ?_ ?_ ?_ ?_
    · exact (link_modifyParty _ s _).trans h.link
    · exact nextTicket_modifyParty _ s _
    · rw [setEndpoint, tasks_modifyParty, w.tickets_setWork]
    · obtain ⟨hparty, hnow', hsound, htidy, hgone, hdo, hreader, hwriter, hcallers, hattend⟩ :=
        h.sides s
      refine ⟨?_, ?_, hsound.step a, htidy.step a, ?_, ?_, ?_, ?_, ?_, ?_⟩
      · obtain ⟨p, hp, -⟩ := Option.map_eq_some_iff.mp hparty
        have hp' : (w.setWork (Duo.writerTicket s) (.write sending)).party? s = some p := hp
        rw [setEndpoint, party?_modifyParty, hp']
        exact congrArg some hendpoint.symm
      · exact (hnow.trans hnow').trans (now_modifyParty (w.setWork _ (.write sending)) s _).symm
      · intro p hp
        exact (hgone p (hconcluded ▸ hp)).step a
      · intro x hx hs
        rw [setEndpoint, tasks_modifyParty] at hx
        rcases (hmem x).mp hx with ⟨hx, hne⟩ | ⟨task, hx, rfl⟩
        · exact (hdo x hx hs).beside hne
        · exact hnew
      · intro hr
        obtain ⟨op, holds, hx⟩ := hreader hr
        rw [setEndpoint, tasks_modifyParty]
        exact ⟨op, holds, (hmem _).mpr (Or.inl ⟨hx, Duo.readerTicket_ne s⟩)⟩
      · intro _
        obtain ⟨sending', holds, hx⟩ := hwriter hgoing
        rw [setEndpoint, tasks_modifyParty]
        exact ⟨sending, holds, (hmem _).mpr (Or.inr ⟨_, hx, rfl⟩)⟩
      · intro call hcall hs
        rw [setEndpoint, callers_modifyParty] at hcall
        exact (hcallers call hcall hs).step a
      · intro x hx hs
        rw [setEndpoint, tasks_modifyParty] at hx
        rcases (hmem x).mp hx with ⟨hx, -⟩ | ⟨task, -, rfl⟩
        · exact (hattend x hx hs).of_eq (callers_modifyParty _ s _)
        · trivial
    · intro s' hs
      refine (h.sides s').congr ?_ (now_modifyParty _ s _) (fun x hxs => ?_)
        (callers_modifyParty _ s _)
      · rw [setEndpoint, party?_modifyParty_ne _ hs]
        rfl
      · rw [setEndpoint, tasks_modifyParty]
        exact hown.mem_setWork_iff fun hside => hs (hxs.symm.trans hside)
  · intro run hrun
    show Host.Began ((d.put s _ _).desk s).host run
    rw [Duo.desk_put]
    exact (h.sides s).tidy.began (hevents ▸ hrun)

/-- The writer goes on sending. -/
theorem Shows.setWriting (h : w.Shows d) (hown : w.Owns s (Duo.writerTicket s))
    {o : Outbound} {op₀ : Memory.Sending} (hwriting : (d.desk s).writing = .sending op₀)
    (hsending : (d.host s).sending = some o) (op : Link.Sending) :
    (w.setWork (Duo.writerTicket s) (.write (some (o, op)))).Shows
      (d.put s d.pair { d.desk s with writing := .sending op.onPair }) := by
  refine h.setWork (k := { d.desk s with writing := .sending op.onPair }) hown rfl ?_ trivial
    ?_ ?_ ?_ ?_
  · exact ⟨rfl, rfl, hsending⟩
  · exact fun _ => rfl
  · exact absurd rfl
  · exact fun h => absurd h.symm (Duo.readerTicket_ne s)
  · intro _
    rw [hwriting]
    exact ⟨nofun, _, rfl⟩

/-- A writer that finds the channel gone closes its endpoint and ends. -/
theorem Shows.finishWriting {o : Outbound} (err : TransportError)
    (h : (w.without (Duo.writerTicket s)).Shows d) (hended : (d.desk s).writing = .ended)
    (hsending : (d.host s).sending = some o) (hterm : err.isTerminal = true) :
    (d.put s d.pair
      { d.desk s with chronicle := (d.desk s).chronicle.act (.sent (.error err)) }).Leads
      ((w.atEndpoint s Endpoint.close).endTask (Duo.writerTicket s) s).Shows := by
  have hstep := Host.step_sent_error hsending err
  rw [if_pos hterm] at hstep
  have htake := h.takes (s := s) [.sent (.error err)] (d.host s).endpoint.close rfl
    (congrArg (fun x => x.1.endpoint) hstep) ?_ (congrArg (fun x => x.1.now) hstep)
    (fun hgoing => absurd hended hgoing) ?_
  · have hparty : (w.party? s).map Party.endpoint = some (d.host s).endpoint := (h.sides s).endpoint
    rw [atEndpoint_of_party hparty]
    refine Shows.endTask (htake.same (Same.symm ?_)) s
    exact same_take_without s _ w (Endpoint.startedIn_close _)
  · intro run hrun
    rw [Endpoint.startedIn_close] at hrun
    cases hrun
  · intro p hp
    exact ((h.sides s).concluded p ((congrArg (fun x => x.1.concluded) hstep) ▸ hp)).step _

/-- A writer whose message the channel has taken is idle again. -/
theorem Shows.delivered (h : w.Shows d) (hown : w.Owns s (Duo.writerTicket s))
    (hgoing : (d.desk s).writing ≠ .ended) :
    ((w.setWork (Duo.writerTicket s) (.write none)).again (Duo.writerTicket s)).Shows
      (d.put s d.pair
        { d.desk s with
          chronicle := (d.desk s).chronicle.act (.sent (.ok ())), writing := .idle }) := by
  have hstep := Host.step_sent_ok (d.host s)
  have hset := h.writes hown hgoing (.sent (.ok ())) ((d.host s).endpoint, []) .idle none
    (by rw [hstep]) (by rw [hstep]) (by rw [hstep]) (by rw [hstep])
    ⟨rfl, rfl, congrArg (fun x => x.1.sending) hstep⟩
  refine (hset.same (Same.symm ?_)).same (same_again _ _)
  exact same_setEndpoint (h.sides s).endpoint

/-- So is a writer whose message the channel refuses. The endpoint gets the message back. -/
theorem Shows.givenBack {o : Outbound} {err : TransportError} (h : w.Shows d)
    (hown : w.Owns s (Duo.writerTicket s)) (hgoing : (d.desk s).writing ≠ .ended)
    (hsending : (d.host s).sending = some o) (hterm : ¬err.isTerminal = true) :
    (((w.setWork (Duo.writerTicket s) (.write none)).atEndpoint s fun e =>
        e.undeliverable o err).again (Duo.writerTicket s)).Shows
      (d.put s d.pair
        { d.desk s with
          chronicle := (d.desk s).chronicle.act (.sent (.error err)), writing := .idle }) := by
  have hstep := Host.step_sent_error hsending err
  rw [if_neg hterm] at hstep
  have hset := h.writes hown hgoing (.sent (.error err))
    ((d.host s).endpoint.undeliverable o err) .idle none (by rw [hstep]; rfl) (by rw [hstep]; rfl)
    (by rw [hstep]; rfl) (by rw [hstep]; rfl) ⟨rfl, rfl, congrArg (fun x => x.1.sending) hstep⟩
  have hparty : ((w.setWork (Duo.writerTicket s) (.write none)).party? s).map Party.endpoint =
      some (d.host s).endpoint := (h.sides s).endpoint
  rw [atEndpoint_of_party hparty]
  exact hset.same (same_again _ _)

/-- **The writer offers a message** that it has taken, and learns what the channel makes of it. -/
theorem Shows.sendTurn {o : Outbound} {op : Link.Sending}
    (h : (w.setWork (Duo.writerTicket s) (.write (some (o, op)))).Shows d)
    (hown : w.Owns s (Duo.writerTicket s))
    (hwriting : (d.desk s).writing = .sending op.onPair)
    (hsending : (d.host s).sending = some o) :
    d.Leads (w.sendTurn (Duo.writerTicket s) s o op).Shows := by
  apply Duo.Leads.move (.write s) trivial
  show Duo.Leads (d.write s) _
  have hpair : w.link = .memory d.pair := h.link
  unfold Session.sendTurn
  rw [hpair, send_memory]
  generalize hr : Memory.send s (Duo.writerTicket s) op.onPair d.pair = r
  have hlink : ((w.setLink (.memory r.state) r.wakes).setWork (Duo.writerTicket s)
      (.write (some (o, op)))).Shows (d.put s r.state (d.desk s)) := h.setLink s r.state r.wakes
  have hown := hown.setLink (.memory r.state) r.wakes
  dsimp only [Link.lift]
  generalize w.setLink (.memory r.state) r.wakes = w₁ at hlink hown
  have hdesk : (d.put s r.state (d.desk s)).desk s = d.desk s := d.desk_put s _ _
  have hsending₁ : ((d.put s r.state (d.desk s)).host s).sending = some o :=
    (congrArg (fun k => k.host.sending) hdesk).trans hsending
  have hgoing : ((d.put s r.state (d.desk s)).desk s).writing ≠ .ended := by
    rw [hdesk, hwriting]
    nofun
  have hown₀ := hown.setWork (Duo.writerTicket s) (.write (some (o, op)))
  cases hp : r.progress with
  | pending op' =>
      rw [Duo.write_of_pending hwriting (hr ▸ hp), hr]
      apply Duo.Leads.here
      have hset := hlink.setWriting hown₀ (hdesk ▸ hwriting) hsending₁ (.memory op')
      rw [setWork_setWork, Duo.put_put, hdesk] at hset
      exact hset
  | done x =>
      cases x with
      | ok u =>
          rw [Duo.write_of_sent hwriting (hr ▸ hp), hr]
          apply Duo.Leads.here
          have hset := hlink.delivered hown₀ hgoing
          rw [setWork_setWork, Duo.put_put, hdesk] at hset
          exact hset
      | error err =>
          rw [Duo.write_of_error hwriting (hr ▸ hp), hr]
          -- a pair that is gone closes the endpoint; a message that is refused is given back
          dsimp only
          split
          · next hterm =>
              have hended := hlink.without (k := { d.desk s with writing := .ended }) hown₀
                (by rw [hdesk]) (fun _ => by rw [hdesk]) (absurd rfl)
                (fun h => absurd h.symm (Duo.readerTicket_ne s)) fun _ => rfl
              rw [without_setWork, Duo.put_put] at hended
              have hturn := hended.finishWriting (o := o) err (by rw [Duo.desk_put])
                (by rw [Duo.host, Duo.desk_put]; exact hsending) hterm
              rw [Duo.put_put, Duo.desk_put] at hturn
              exact hturn
          · next hterm =>
              apply Duo.Leads.here
              have hset := hlink.givenBack hown₀ hgoing hsending₁ hterm
              rw [setWork_setWork, Duo.put_put, hdesk] at hset
              exact hset

/-- **The writer takes its turn** when it has nothing on the way. -/
theorem Shows.writeTurn (h : w.Shows d) {holds : Bool}
    (ht : (t, ⟨s, .write none, holds⟩) ∈ w.tasks) : d.Leads (w.writeTurn t s).Shows := by
  obtain ⟨rfl, hwriting, hsending⟩ : t = Duo.writerTicket s ∧ (d.desk s).writing = .idle ∧
      (d.host s).sending = none := (h.sides s).does _ ht rfl
  have hown : w.Owns s (Duo.writerTicket s) := h.owns ht
  have hgoing : (d.desk s).writing ≠ .ended := by
    rw [hwriting]
    nofun
  obtain ⟨p, hp, he⟩ := h.exists_party s
  unfold Session.writeTurn
  rw [hp]
  dsimp only
  rw [he]
  cases hdequeue : (d.host s).endpoint.dequeue with
  | some x =>
      obtain ⟨o, e⟩ := x
      -- two moves of the duo: the message is taken, and then it is offered
      apply Duo.Leads.move (.write s) trivial
      obtain ⟨hopen, rest, hfirst, rfl⟩ := Endpoint.dequeue_eq_some.mp hdequeue
      have hstep := Host.step_take hsending hopen hfirst
      have hset := h.writes hown hgoing .take
        ({ (d.host s).endpoint with outbound := rest }, [])
        (.sending (.fresh o.bytes)) (some (o, .fresh o.bytes))
        (by rw [hstep]) (by rw [hstep]) (by rw [hstep]) (by rw [hstep])
        ⟨rfl, rfl, congrArg (fun x => x.1.sending) hstep⟩
      show Duo.Leads (d.write s) _
      rw [Duo.write_of_first hwriting hopen hfirst]
      apply Shows.sendTurn
      · -- the task and the endpoint of a side are set in either order
        cases s <;> exact hset
      · exact hown.take s ({ (d.host s).endpoint with outbound := rest }, [])
      · rw [Duo.desk_put]
        rfl
      · rw [Duo.host, Duo.desk_put]
        exact congrArg (fun x => x.1.sending) hstep
  | none =>
      dsimp only
      split
      · exact Duo.Leads.here h
      · next hclosed =>
          apply Duo.Leads.move (.write s) trivial
          show Duo.Leads (d.write s) _
          rw [Duo.write_of_closed hwriting (Bool.not_eq_true _ ▸ hclosed)]
          have hended := h.without (k := { d.desk s with writing := .ended }) hown rfl
            (fun _ => rfl) (absurd rfl) (fun h => absurd h.symm (Duo.readerTicket_ne s)) fun _ => rfl
          exact Shows.endTask hended s

end Session

end PeerRpc
