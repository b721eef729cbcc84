import PeerRpc.Proofs.Duo.Simulation
import PeerRpc.Proofs.Wire.Owed
import PeerRpc.Service

/-!
# PeerRpc.Proofs.Duo.Rest -- no call is forgotten

Whatever users, callers and handlers do at two endpoints on a pair, and in whatever order the loops
take their turns: when no loop can go on and no handler has ended whose run goes on, either both
endpoints are closed and no call waits, or both are open, a handler works on every call that waits,
and every run whose caller waits no longer has been told so (`Duo.rest`).

Nothing is left in a queue then (`Duo.Quiet.drained`, `Duo.Quiet.written`), so the obligation of a
call can only be with a run.
-/

namespace PeerRpc

variable {η : Type} [Handler η]

namespace Duo

/-- What holds of the calls of a side, and of the runs for them, while both endpoints are open and
at rest. -/
structure Attended (d : Duo η) (s : Side) : Prop where
  isOpen : (d.host s).endpoint.isOpen = true
  /-- A handler works on every call that waits. -/
  worked : ∀ id ∈ (d.host s).endpoint.waiting, ∃ r ∈ (d.host s.opposite).endpoint.inProgress,
    r.request = some id ∧ (d.host s.opposite).outcome? r.serial = none
  /-- A run whose caller waits no longer has been told so. -/
  told : ∀ r ∈ (d.host s.opposite).endpoint.runs, ∀ id, r.request = some id →
    id ∉ (d.host s).endpoint.waiting → r.fired = true

variable {d : Duo η} {l : ChannelLimits} {w : Wire η} {s : Side}

/-! ## Loops that cannot go on -/

/-- The reader of an open endpoint that cannot go on has nothing to receive. -/
theorem Quiet.drained (hq : d.Quiet) (h : Linked l d w)
    (hopen : (d.host s).endpoint.isOpen = true) :
    d.pair.closed.fired = false ∧ (d.pair.incoming s).contents = [] := by
  have hturn := d.readTurn s
  generalize heq : d.read s = d' at hturn
  have hread : d' = d := heq.symm.trans (hq.read s)
  cases hturn with
  | ended reading =>
      have hclosed := (h.tied s).reading (by rw [reading]; nofun)
      exact absurd (hopen.symm.trans hclosed) nofun
  | hangsUp reading =>
      have hclosed := (h.tied s).reading (by rw [reading]; nofun)
      exact absurd (hopen.symm.trans hclosed) nofun
  | stops op p reading closed drained contents => exact absurd (hopen.symm.trans closed) nofun
  | waits op op' p reading isOpen drained whole empty contents => exact ⟨whole, empty⟩
  | fails op p reading isOpen drained contents => exact absurd hread (put_ne_self rfl)
  | receives op p msg reading isOpen drained contents => exact absurd hread (put_ne_self rfl)

/-- The reader of a closed endpoint that cannot go on has closed the pair. -/
theorem Quiet.fired (hq : d.Quiet) (h : Linked l d w)
    (hclosed : (d.host s).endpoint.isOpen = false) : d.pair.closed.fired = true := by
  have hread := congrArg (fun d => (d.desk s).reading) (hq.read s)
  cases hk : (d.desk s).reading with
  | ended => exact (h.tied s).hung hk
  | hangingUp =>
      rw [read_of_hangingUp hk] at hread
      simp [hk] at hread
  | receiving op =>
      rw [read_of_closed hk hclosed] at hread
      simp [hk] at hread

/-- The writer of an open endpoint that cannot go on has nothing to send, if its queue is empty. -/
theorem Quiet.written (hq : d.Quiet) (h : Linked l d w)
    (hopen : (d.host s).endpoint.isOpen = true) (hempty : (d.pair.outgoing s).contents = []) :
    w.road s = [] := by
  have hwrite := hq.write s
  have hself := h.tied s
  obtain ⟨fl, hflight, hbytes⟩ := hself.flight
  rw [hempty, List.map_eq_nil_iff] at hbytes
  rw [hbytes, List.nil_append] at hflight
  have hwriting := hself.writing
  unfold Desk.Writes at hwriting
  cases hk : (d.desk s).writing with
  | ended =>
      rw [hk] at hwriting
      exact absurd (hopen.symm.trans hwriting.2) nofun
  | idle =>
      have hunsent : (d.desk s).unsent = [] := by
        unfold Desk.unsent
        rw [hk]
      cases hfirst : (d.host s).endpoint.outbound with
      | nil => rw [Wire.road, h.host_eq, hflight, hunsent, hfirst, List.nil_append]
      | cons o rest =>
          rw [write_of_first hk hopen hfirst] at hwrite
          exact absurd hwrite (put_ne_self rfl)
  | sending op =>
      cases op with
      | fresh msg =>
          have hfresh : (d.desk s).writing ≠ .sending .blocked := by
            rw [hk]
            intro h
            cases h
          have hsenders := hself.senders_eq_nil hfresh
          cases (Memory.offered_send s (writerTicket s) msg hsenders).2 with
          | accepted progress size contents senders =>
              rw [write_of_sent hk progress] at hwrite
              exact absurd hwrite (put_ne_self rfl)
          | blocked progress size contents senders =>
              rw [write_of_pending hk progress] at hwrite
              have hdesk := congrArg (fun d => (d.desk s).writing) hwrite
              simp [hk] at hdesk
          | tooLong size progress state =>
              rw [write_of_error hk progress] at hwrite
              exact absurd hwrite (put_ne_self rfl)
          | broken broken progress state =>
              rw [write_of_error hk progress] at hwrite
              exact absurd hwrite (put_ne_self rfl)
      | blocked =>
          cases (Memory.resumed_send s (writerTicket s) d.pair).2 with
          | done progress outgoing waits =>
              rw [write_of_sent hk progress] at hwrite
              exact absurd hwrite (put_ne_self rfl)
          | broken broken progress outgoing =>
              rw [write_of_error hk progress] at hwrite
              exact absurd hwrite (put_ne_self rfl)
          | waits progress state waits =>
              -- a sender that waits has its message in the queue
              obtain ⟨x, hx, -⟩ := List.any_eq_true.mp waits
              have hsenders := (List.append_eq_nil_iff.mp hempty).2
              rw [List.map_eq_nil_iff.mp hsenders] at hx
              cases hx

/-! ## Two endpoints at rest -/

/-- **No call is forgotten.** When nothing goes on any more, either both endpoints are closed and no
call waits, or both are open, every call that waits is being worked on, and every run for a call
that has gone has been told so. -/
theorem rest (l : ChannelLimits) (c : Side → Config) (moves : List (Move η))
    (hmin : 256 ≤ l.maxMessageSize) (hmax : l.maxMessageSize < 2 ^ 64)
    (hplain : ∀ m ∈ moves, m.Meets Op.Plain) (hquiet : ((ofConfigs l c).run moves).Quiet) :
    (∀ s, (((ofConfigs l c).run moves).host s).endpoint.isOpen = false ∧
        (((ofConfigs l c).run moves).host s).endpoint.pending = []) ∨
      ∀ s, ((ofConfigs l c).run moves).Attended s := by
  obtain ⟨w, hw, h⟩ := exists_wire l c trivial hplain
  generalize (ofConfigs l c).run moves = d at hquiet h
  by_cases hup : ∀ s, (d.host s).endpoint.isOpen = true
  · refine Or.inr fun s => ?_
    have hroad : ∀ s, w.road s = [] := by
      intro s
      have hdrained := hquiet.drained h (hup s.opposite)
      refine hquiet.written h (hup s) ?_
      rw [← Side.opposite_opposite s]
      exact hdrained.2
    have howed := hw.owed hmin hmax (fun s => (h.host_eq s) ▸ hup s) s
    have htidy := (hw.kept s.opposite).2
    rw [h.host_eq] at htidy
    refine ⟨hup s, fun id hid => ?_, fun r hr id hrequest hgone => ?_⟩
    · -- nothing is on the way, so the request is being worked on
      have hheld := howed.held id (h.host_eq s ▸ hid)
      unfold Wire.duty at hheld
      rw [hroad s, hroad s.opposite, h.host_eq] at hheld
      simp only [List.countP_nil, Nat.zero_add, Nat.add_zero] at hheld
      obtain ⟨r, hr, hrequest⟩ := List.countP_pos_iff.mp hheld
      have hrequest' : r.request = some id := of_decide_eq_true hrequest
      refine ⟨r, List.mem_filter.mpr ⟨hr, by rw [hrequest']; rfl⟩, hrequest', ?_⟩
      have hend := hquiet.reap s.opposite r hr
      unfold Host.ending? at hend
      split at hend
      · cases hend
      · next hnone => exact hnone
    · rcases howed.heeded r (h.host_eq s.opposite ▸ hr) id hrequest with hwait | hfired | ⟨o, ho, -⟩
      · exact absurd (h.host_eq s ▸ hwait) hgone
      · exact hfired
      · rw [hroad s] at ho
        cases ho
  · -- the closed endpoint has closed the pair, and the other one learns of it
    refine Or.inl fun s => ?_
    obtain ⟨s₀, hs₀⟩ := not_forall.mp hup
    have hfired := hquiet.fired h (Bool.not_eq_true _ ▸ hs₀)
    have hclosed : (d.host s).endpoint.isOpen = false := by
      cases hopen : (d.host s).endpoint.isOpen with
      | false => rfl
      | true => exact absurd (hfired.symm.trans (hquiet.drained h hopen).1) nofun
    have hsound := (hw.kept s).1
    rw [h.host_eq] at hsound
    exact ⟨hclosed, hsound.closed hclosed⟩

/-- Two calls to a service that never answers, of which the caller cancels the first. -/
def twoCalls : List (Move Service) :=
  [.op .ext (.register ⟨7⟩ ⟨"idle", .whole fun _ _ => .forever⟩),
    .op .main (.request ⟨7⟩ "wait" []), .op .main (.request ⟨7⟩ "wait" []),
    .write .main, .write .main, .write .main, .write .main, .read .ext, .read .ext,
    .op .main (.cancel 0), .write .main, .write .main, .read .ext, .read .ext, .read .main]

set_option maxRecDepth 10000 in
/-- At rest one call waits, and the run for the other one has been told to stop. -/
theorem rest_twoCalls :
    let d : Duo Service := (ofConfigs {} .ofSide).run twoCalls
    ((d.host .main).endpoint.waiting = [⟨2⟩] ∧
      (d.host .ext).endpoint.runs.map (fun r => (r.request, r.fired)) =
        [(some ⟨1⟩, true), (some ⟨2⟩, false)]) ∧
    ((∀ s, (d.host s).endpoint.isOpen = false ∧ (d.host s).endpoint.pending = []) ∨
      ∀ s, d.Attended s) := by
  intro d
  have hpair : d.pair = ⟨{}, ⟨false, [3, 1]⟩, { capacity := 1000, receivers := [3] },
      { capacity := 1000, receivers := [1] }⟩ := rfl
  have hends : ∀ s, (d.host s).endpoint.runs.all (fun r => ((d.host s).ending? r).isNone) = true := by
    rintro (_ | _) <;> rfl
  refine ⟨⟨rfl, rfl⟩, rest {} .ofSide twoCalls (by decide) (by decide) ?_ ⟨?_, ?_, ?_⟩⟩
  · simp [twoCalls, Move.Meets, Op.Plain]
  · have hreading : ∀ s, (d.desk s).reading = .receiving (.waiting false) := by
      rintro (_ | _) <;> rfl
    have hopen : ∀ s, (d.host s).endpoint.isOpen = true := by
      rintro (_ | _) <;> rfl
    intro s
    refine read_eq_self (hreading s) (hopen s) ?_
    show Memory.recv s (readerTicket s) (.waiting false) d.pair = .pending d.pair (.waiting false) []
    rw [hpair]
    cases s <;> rfl
  · rintro (_ | _)
    · exact write_of_none rfl rfl rfl
    · exact write_of_none rfl rfl rfl
  · exact fun s r hr => Option.isNone_iff_eq_none.mp (List.all_eq_true.mp (hends s) r hr)

end Duo

end PeerRpc
