import PeerRpc.Proofs.Bench.Pair

/-!
# PeerRpc.Proofs.Bench.Alone -- one stream end and whatever holds its pipes

A bench with one stream end shows how the end behaves whoever reads what it writes and writes what it
reads: octets arrive as they like, whole frames or not, and are taken as late as they like.

`goodbye_is_written` is about closing. The close that finds the end open sends a close frame and ends
the stream, or gives up when its time is over. `closed_after_buffered` is about an end that is
closed while messages wait at it: a receive that is under way still delivers them first, and so does
every receive that comes before the end is closed.
-/

namespace PeerRpc

namespace Bench

namespace Journal

variable {j : Journal} {l : ChannelLimits} {capacity : Nat} {s : Side} {severs spoils : Prop}

/-- One stream end that has just been made. -/
def alone (s : Side) (l : ChannelLimits) (capacity : Nat) : Journal :=
  ofLink (.bare s (.ofLimits l capacity))

theorem seats_alone : (alone s l capacity).bench.link.Seats severs s (.ofLimits l capacity) := by
  refine ⟨if_pos rfl, fun f hf => ?_⟩
  exact absurd (Link.eq_of_streamEnd?_bare hf) (Side.opposite_ne s).symm

/-- **Every run of one end** is some steps of its desk. -/
theorem steps_alone (s : Side) (l : ChannelLimits) (capacity : Nat) {moves : List Move}
    (allowed : ∀ m ∈ moves, m.Allowed severs spoils) :
    ((alone s l capacity).run moves).Tidy ∧
      (∃ e, ((alone s l capacity).run moves).bench.link.Seats severs s e) ∧
      Desk.Steps severs spoils (.ofLimits l capacity) (((alone s l capacity).run moves).desk s) := by
  have hseats₀ : (alone s l capacity).bench.link.Seats severs s (.ofLimits l capacity) := seats_alone
  obtain ⟨htidy, hseats, hsteps⟩ := steps_run hseats₀ (tidy_ofLink _) allowed
  have hdesk : (alone s l capacity).desk s = .ofLimits l capacity := desk_ofLink (if_pos rfl)
  rw [hdesk] at hsteps
  exact ⟨htidy, hseats, hsteps⟩

/-! ## Closing -/

/-- A close had the writer for as long as it may, and ended with octets left and no room for them. -/
def GaveUp (j : Journal) (s : Side) (t : Ticket) : Prop :=
  ∃ since late, (t, since) ∈ j.obtained s ∧ (t, late) ∈ j.stalled s ∧
    since + Stream.closeTimeout ≤ late

/-- The peer of an end is told that it is closed. -/
structure SaidGoodbye (j : Journal) (l : ChannelLimits) (s : Side) : Prop where
  /-- All that the end has written are the whole frames of some sends, and then a close frame. -/
  octets : ∃ admitted, j.carried s = Desk.framed admitted ++ Frame.close.toBytes ∧
    ∀ a ∈ admitted, j.job? s a.1 = some (.send a.2) ∧
      (Frame.message a.2).encode l.maxMessageSize = .ok (Frame.message a.2).toBytes
  /-- There is nothing more to write. -/
  output : (j.bench.endOf s).output = []
  /-- The stream has ended. -/
  cut : (j.bench.endOf s).outbound.cut = true
  /-- An end that has taken all there was on this stream receives that it is closed. -/
  peer : ∀ f : Stream.End, f.inbound.cut = (j.bench.endOf s).outbound.cut →
    f.inbound.content = [] → f.input = [] → f.fault = none →
    ∀ u op, op = .reading ∨ op = .fresh ∧ f.readLock.holder = none →
      (Stream.recv u op f).progress = .done (.error .closed)

end Journal

/-- **Closing is made known**, as long as the writing does not fail: when the close that found the
end open is done, and from then on, the stream says goodbye, or the close gave up. -/
theorem goodbye_is_written (l : ChannelLimits) (capacity : Nat) (s : Side) (moves : List Move)
    (allowed : ∀ m ∈ moves, m.Allowed False True) (t : Ticket) (since : Nat) (r : Result)
    (closes : (t, since) ∈ ((Journal.alone s l capacity).run moves).closers s)
    (done : (t, r) ∈ ((Journal.alone s l capacity).run moves).results s) :
    ((Journal.alone s l capacity).run moves).GaveUp s t ∨
      ((Journal.alone s l capacity).run moves).SaidGoodbye l s := by
  obtain ⟨-, -, hsteps⟩ := Journal.steps_alone s l capacity allowed
  generalize (Journal.alone s l capacity).run moves = j at closes done hsteps ⊢
  obtain ⟨-, admitted, farewell, hledger, hparting⟩ := hsteps.accounted
  have hlimits : (j.desk s).fin.limits = l := hsteps.limits
  rcases hparting.closers (t, since) closes r done with hno | ⟨hfarewell, houtput, hcut⟩ | hgave
  · exact hno.elim
  · refine Or.inr ⟨⟨admitted, ?_, fun a ha => ⟨(hledger.jobs a ha).1, ?_⟩⟩, houtput, hcut, ?_⟩
    · have hoctets : j.carried s ++ (j.bench.endOf s).output = Desk.framed admitted ++ farewell :=
        hledger.octets
      have hnone : (j.bench.endOf s).output = [] := houtput
      rw [hnone, hfarewell, List.append_nil] at hoctets
      exact hoctets
    · have hsize := (hledger.jobs a ha).2
      rw [hlimits] at hsize
      exact if_neg (Nat.not_lt.mpr hsize)
    · intro f hshared hcontent hinput hfault u op hop
      exact Stream.recv_of_atEnd ⟨hcontent, hshared.trans hcut, hinput, hfault⟩ u hop
  · exact Or.inl hgave

/-- A close behind a send, with room for both frames. -/
theorem goodbye_is_written_after_send :
    let l : ChannelLimits := { maxMessageSize := 3 }
    let moves : List Move := [.start .main (.send [7]), .turn 0, .start .main .close, .turn 2]
    let j := (Journal.alone .main l 64).run moves
    (∀ m ∈ moves, m.Allowed False True) ∧ (2, 0) ∈ j.closers .main ∧
      (2, .ok none) ∈ j.results .main ∧ (j.GaveUp .main 2 ∨ j.SaidGoodbye l .main) := by
  intro l moves j
  have hallowed : ∀ m ∈ moves, m.Allowed False True := by simp [moves, Move.Allowed]
  have hcloses : (2, 0) ∈ j.closers .main := by decide +kernel
  have hdone : (2, .ok none) ∈ j.results .main := List.mem_cons_self
  exact ⟨hallowed, hcloses, hdone, goodbye_is_written _ _ _ moves hallowed 2 0 _ hcloses hdone⟩

/-- A peer that reads nothing for a second is told nothing: the close is done, there are no tasks, and
there is neither a close frame on the stream nor the end of it. -/
theorem goodbye_is_lost :
    let j := (Journal.alone .main { maxMessageSize := 3 } 1).run
      [.start .main .close, .turn 0, .wait 1000, .turn 0]
    j.results .main = [(0, .ok none)] ∧ j.bench.tasks = [] ∧
      ¬Frame.close.toBytes <:+: j.carried .main ∧
      (j.bench.endOf .main).outbound.cut = false := by
  refine ⟨rfl, rfl, ?_, rfl⟩
  decide +kernel

/-! ## Messages that wait -/

/-- **A receive finds the end closed** only when every message in front of the first close frame and
of the first octets that are no frame has been received, unless the end was closed when the receive
came. -/
theorem closed_after_buffered (l : ChannelLimits) (capacity : Nat) (s : Side) (moves : List Move)
    (allowed : ∀ m ∈ moves, m.Allowed True False) (t : Ticket) (op : Link.Receiving)
    (acting : ((Journal.alone s l capacity).run moves).bench.acting? s t = some (.recv op))
    (closed : (t, .error .closed) ∈
      (((Journal.alone s l capacity).run moves).move (.turn t)).results s) :
    op.onStream = .fresh ∧
        (((Journal.alone s l capacity).run moves).bench.endOf s).closed.fired = true ∨
      Frame.leading (Frame.drain l.maxMessageSize
        (((Journal.alone s l capacity).run moves).arrived s)).frames <+:
          ((Journal.alone s l capacity).run moves).received s := by
  obtain ⟨htidy, ⟨e, hs⟩, hsteps⟩ :=
    Journal.steps_alone s l capacity allowed
  generalize (Journal.alone s l capacity).run moves = j at acting closed htidy hs hsteps ⊢
  obtain ⟨hcustody, -⟩ := hsteps.accounted
  obtain ⟨taken, hreads⟩ := hsteps.reads
  have hlimits : (j.desk s).fin.limits = l := hsteps.limits
  have hfin : (j.desk s).fin = e := endOf_eq hs.own
  have hwork : (j.desk s).works t = some (.recv op.onStream) := work?_of_acting? acting
  have hresult : (Stream.Work.recv op.onStream).result? (j.desk s).now t (j.desk s).fin =
      some (.error .closed) := by
    rw [Journal.results_turn htidy hs acting] at closed
    rcases List.mem_append.mp closed with hnew | hold
    · obtain ⟨r, hr, heq⟩ := Option.map_eq_some_iff.mp (Option.mem_toList.mp hnew)
      cases heq
      rw [hfin]
      exact hr
    · -- a task that takes its turn is not done
      have hnone := (hcustody.done (t, .error .closed) hold).2
      rw [hwork] at hnone
      cases hnone
  have hclosed := hreads.closed hresult
  unfold Stream.End.drain at hclosed
  rw [hlimits] at hclosed
  exact hclosed

/-- A message and a close frame behind it, of which the first receive takes the one and the second
the other. -/
theorem closed_after_buffered_one :
    let moves : List Move :=
      [.outside (.supply ((Frame.message [7]).toBytes ++ Frame.close.toBytes)),
        .start .main .recv, .turn 1, .start .main .recv]
    let j := (Journal.alone .main { maxMessageSize := 3 } 64).run moves
    (∀ m ∈ moves, m.Allowed True False) ∧ j.bench.acting? .main 3 = some (.recv .fresh) ∧
      (3, .error .closed) ∈ (j.move (.turn 3)).results .main ∧
      (Link.Receiving.fresh.onStream = .fresh ∧ (j.bench.endOf .main).closed.fired = true ∨
        Frame.leading (Frame.drain 3 (j.arrived .main)).frames <+: j.received .main) := by
  intro moves j
  have hallowed : ∀ m ∈ moves, m.Allowed True False := by simp [moves, Move.Allowed]
  have hacting : j.bench.acting? .main 3 = some (.recv .fresh) := rfl
  have hclosed : (3, .error .closed) ∈ (j.move (.turn 3)).results .main := List.mem_cons_self
  exact ⟨hallowed, hacting, hclosed, closed_after_buffered _ _ _ moves hallowed 3 _ hacting hclosed⟩

/-- A message that is whole and waits is lost to a receive that comes after a close. -/
theorem buffered_is_lost :
    let j := (Journal.alone .main { maxMessageSize := 3 } 64).run
      [.outside (.supply (Frame.message [7]).toBytes), .start .main .close, .turn 1,
        .start .main .recv, .turn 3]
    j.results .main = [(3, .error .closed), (1, .ok none)] ∧
      Frame.leading (Frame.drain 3 (j.arrived .main)).frames = [[7]] ∧ j.received .main = [] := by
  refine ⟨rfl, ?_, rfl⟩
  decide +kernel

end Bench

end PeerRpc
