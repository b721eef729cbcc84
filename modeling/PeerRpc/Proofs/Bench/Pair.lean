import PeerRpc.Proofs.Bench.Desks
import PeerRpc.Proofs.Bench.Receipts

/-!
# PeerRpc.Proofs.Bench.Pair -- two stream ends that face each other

What every step of a desk keeps holds after every run (`Desk.Steps.accounted`, `Desk.Steps.reads`).
On a bench with two stream ends, moreover, what the one end puts into its pipe is what arrives at the
other (`Journal.Paired`), so that the messages which the one end has admitted are received by the
other in the order in which they were admitted.
-/

namespace PeerRpc

namespace Bench

/-! ## What holds after some steps -/

namespace Desk

variable {d d' : Desk} {severs spoils : Prop} {l : ChannelLimits} {capacity : Nat}

/-- **What an end has written** after any steps. -/
theorem Steps.accounted (h : Steps severs spoils (ofLimits l capacity) d) :
    d.Custody ∧ ∃ admitted farewell, d.Ledger admitted farewell ∧ d.Parting severs farewell := by
  refine h.induction (P := fun d => d.Custody ∧ ∃ admitted farewell,
    d.Ledger admitted farewell ∧ d.Parting severs farewell) ?_ ?_
  · rintro d d' hstep ⟨hcustody, admitted, farewell, hledger, hparting⟩
    obtain ⟨admitted', farewell', hledger', hparting'⟩ := hledger.step hcustody hstep
    exact ⟨hcustody.step hstep, admitted', farewell', hledger', hparting' hparting⟩
  · exact ⟨custody_ofLimits l capacity, [], [], ledger_ofLimits l capacity,
      parting_ofLimits severs l capacity⟩

/-- **What an end has received** after any steps. -/
theorem Steps.reads (h : Steps severs False (ofLimits l capacity) d) : ∃ taken, d.Reads taken := by
  refine h.induction (P := fun d => ∃ taken, d.Reads taken) ?_ ⟨[], reads_ofLimits l capacity⟩
  rintro d d' hstep ⟨taken, hreads⟩
  exact hreads.step hstep

theorem Step.limits (h : Step severs spoils d d') : d'.fin.limits = d.fin.limits := by
  cases h with
  | tries t w runs =>
      obtain ⟨moved, huses⟩ := Stream.uses_attempt d.now t d.fin w
      exact huses.limits
  | leaves t w runs => exact (Stream.uses_abandon t d.fin w).limits
  | around e bs haround =>
      show e.limits = _
      rw [haround.same]
  | begins | falls | severs | spoils | waits => rfl

theorem Steps.limits (h : Steps severs spoils (ofLimits l capacity) d) : d.fin.limits = l :=
  h.induction (P := fun d => d.fin.limits = l) (fun _ _ hstep hd => hstep.limits.trans hd) rfl

end Desk

/-! ## Two ends -/

namespace Journal

variable {j : Journal} {l : ChannelLimits} {m : Move} {s : Side}

/-- What holds of a bench with two stream ends. -/
structure Paired (l : ChannelLimits) (j : Journal) : Prop where
  tidy : j.Tidy
  seats : ∀ s, ∃ e, j.bench.link.Seats True s e
  steps : ∀ s, Desk.Steps True False (.ofLimits l Stream.pipeCapacity) (j.desk s)
  /-- What an end has put into its pipe has arrived at the other. -/
  passed : ∀ s, j.arrived s.opposite = j.carried s

theorem desk_ofLink {k : Link} {capacity : Nat}
    (h : k.streamEnd? s = some (.ofLimits l capacity)) : (ofLink k).desk s = .ofLimits l capacity := by
  have hend : (ofLink k).bench.endOf s = .ofLimits l capacity := endOf_eq h
  unfold desk Bench.desk
  rw [hend]
  rfl

theorem paired_ofLink (l : ChannelLimits) : Paired l (ofLink (.streamPair l)) where
  tidy := tidy_ofLink _
  seats s := by
    refine ⟨.ofLimits l Stream.pipeCapacity, ?_, ?_⟩
    · cases s <;> rfl
    · intro f hf
      cases s <;> cases hf <;> exact ⟨trivial, rfl, rfl⟩
  steps s := by
    rw [desk_ofLink (by cases s <;> rfl)]
  passed s := rfl

/-- Nobody else holds the pipes of two ends. -/
theorem Paired.outside (h : Paired l j) (o : Outside) : j.bench.outside o = j.bench := by
  unfold Bench.outside
  split
  · next s e hlink =>
      obtain ⟨f, hf⟩ := h.seats s.opposite
      have hown := hf.own
      rw [hlink] at hown
      exact absurd (Link.eq_of_streamEnd?_bare hown) (Side.opposite_ne s).symm
  · rfl

theorem Paired.move (h : Paired l j) (m : Move) : Paired l (j.move m) := by
  have hmove (s : Side) : ∃ e, (j.move m).bench.link.Seats True s e ∧
      Desk.Steps True False (j.desk s) ((j.move m).desk s) := by
    obtain ⟨e, hs⟩ := h.seats s
    cases m with
    | outside o => exact steps_nothing hs (h.outside o) (job?_move_of_none rfl) rfl
    | start u job => exact steps_move hs h.tidy trivial
    | turn t => exact steps_move hs h.tidy trivial
    | abort t => exact steps_move hs h.tidy trivial
    | letGo u => exact steps_move hs h.tidy trivial
    | wait ms => exact steps_move hs h.tidy trivial
  have hseats (s : Side) : ∃ e, (j.move m).bench.link.Seats True s e := by
    obtain ⟨e, hs, -⟩ := hmove s
    exact ⟨e, hs⟩
  refine ⟨h.tidy.move m, hseats, fun s => ?_, fun s => ?_⟩
  · obtain ⟨e, -, hsteps⟩ := hmove s
    exact (h.steps s).trans hsteps
  · -- the one end writes to the pipe that the other reads from, before the move and after it
    have hshared {b : Bench} (hseats : ∀ s, ∃ e, b.link.Seats True s e) :
        (b.endOf s).outbound = (b.endOf s.opposite).inbound := by
      obtain ⟨e, hs⟩ := hseats s
      obtain ⟨f, hf⟩ := hseats s.opposite
      rw [endOf_eq hs.own, endOf_eq hf.own]
      exact (hs.other f hf.own).2.2
    have hmoment : (j.moment m).arrived s.opposite = (j.moment m).carried s := by
      have hbefore := hshared h.seats
      have hafter := hshared hseats
      show ((j.move m).bench.endOf s.opposite).inbound.content.drop
        (j.bench.endOf s.opposite).inbound.content.length = _
      rw [← hbefore, ← hafter]
      rfl
    rw [carried_move, arrived_move, h.passed, hmoment]

theorem Paired.run (h : Paired l j) (moves : List Move) : Paired l (j.run moves) := by
  have hall : ∀ m ∈ moves, (fun _ : Move => True) m := fun _ _ => trivial
  exact run_induction h (fun _ m _ hj => hj.move m) hall

end Journal

/-- What an end has written and the other has received: the messages `admitted` and the octets
`farewell` behind them. -/
structure Journal.InOrder (j : Journal) (l : ChannelLimits) (s : Side)
    (admitted : List (Ticket × Bytes)) (farewell : Bytes) : Prop where
  /-- What the end has written, or has still to write, are whole frames and a close frame at most. -/
  octets : j.carried s ++ (j.bench.endOf s).output = Desk.framed admitted ++ farewell
  farewell : farewell = [] ∨ farewell = Frame.close.toBytes
  /-- There is one frame for each of the sends that were admitted. -/
  frames : ∀ a ∈ admitted, j.job? s a.1 = some (.send a.2) ∧
    (Frame.message a.2).encode l.maxMessageSize = .ok (Frame.message a.2).toBytes
  /-- They stand in the order in which these sends got the writer, which none gets twice. -/
  order : (admitted.map Prod.fst).Sublist ((j.obtained s).map Prod.fst)
  once : ((j.obtained s).map Prod.fst).Nodup
  /-- Every send that succeeded was admitted. -/
  delivered : ∀ t msg, (t, .ok none) ∈ j.results s → j.job? s t = some (.send msg) →
    (t, msg) ∈ admitted
  /-- What the other end has received are the first messages. -/
  received : j.received s.opposite <+: admitted.map Prod.snd

/-- **Messages stay whole and in order** on two stream ends, whatever tasks send, receive and close
there, whichever of them are taken back, and in whatever order they take their turns. -/
theorem messages_in_order (l : ChannelLimits) (hmax : l.maxMessageSize < 2 ^ 32)
    (moves : List Move) (s : Side) :
    ∃ admitted farewell,
      ((Journal.ofLink (.streamPair l)).run moves).InOrder l s admitted farewell := by
  have hpaired := (Journal.paired_ofLink l).run moves
  generalize (Journal.ofLink (.streamPair l)).run moves = j at hpaired ⊢
  obtain ⟨hcustody, admitted, farewell, hledger, -⟩ := (hpaired.steps s).accounted
  have hlimits : (j.desk s).fin.limits = l := (hpaired.steps s).limits
  have hsize : ∀ a ∈ admitted, a.2.length ≤ l.maxMessageSize := fun a ha =>
    hlimits ▸ (hledger.jobs a ha).2
  have hfarewell := hledger.farewell.imp_right And.left
  obtain ⟨taken, hreads⟩ := (hpaired.steps s.opposite).reads
  have hfacing : (j.desk s.opposite).fin.limits = l := (hpaired.steps s.opposite).limits
  have harrived : j.arrived s.opposite ++ (j.bench.endOf s).output =
      Desk.framed admitted ++ farewell := by
    rw [hpaired.passed s]
    exact hledger.octets
  refine ⟨admitted, farewell, hledger.octets, hfarewell, fun a ha => ⟨(hledger.jobs a ha).1, ?_⟩,
    hledger.order, hcustody.nodup, hledger.delivered, ?_⟩
  · exact if_neg (Nat.not_lt.mpr (hsize a ha))
  · exact hreads.received_of_framed (hfacing.symm ▸ hmax) (hfacing.symm ▸ hsize) hfarewell harrived

/-- Two sends, one of which is taken back before it has the writer, a close and a receive. -/
theorem messages_in_order_one : (3 : Nat) < 2 ^ 32 ∧
    let l : ChannelLimits := { maxMessageSize := 3 }
    let j := (Journal.ofLink (.streamPair l)).run
      [.start .main (.send [1, 2]), .start .main (.send [3]), .turn 0, .abort 1, .turn 1,
        .start .main .close, .turn 5, .start .ext .recv, .turn 7]
    j.received .ext = [[1, 2]] ∧ ∃ admitted farewell, j.InOrder l .main admitted farewell :=
  ⟨by decide, by decide +kernel, messages_in_order { maxMessageSize := 3 } (by decide) _ .main⟩

end Bench

end PeerRpc
