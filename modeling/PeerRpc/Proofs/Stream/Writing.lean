import PeerRpc.Channel.Stream

/-!
# PeerRpc.Proofs.Stream.Writing -- what a try to write comes to

A task that writes a frame puts the whole of it into the output of its end at once and then moves
output to the pipe, as much as there is room for. Nothing else touches the output, so whatever
happens to the task, the octets in the pipe followed by the output are what they were before,
followed by nothing or by the whole frame (`Stream.Moves`).

`Stream.Flushed` and `Stream.Wrote` list what a flush and a write of a frame come to, and
`Stream.Sent` and `Stream.Closes` what a try of a send and of a close do, with the state of the lock
and of the signal. Later arguments are case distinctions on these and never look into the loops.
-/

namespace PeerRpc

namespace Pipe

variable {p : Pipe} {bs : Bytes}

theorem write_of_cut (h : p.cut = true) (t : Ticket) (bs : Bytes) :
    p.write t bs = (p, [], .broken) := by
  simp only [write, h, if_true]

theorem write_of_full (h : p.cut = false) (hfull : p.capacity ≤ p.content.length) (t : Ticket)
    (bs : Bytes) : p.write t bs = ({ p with writer := some t }, [], .full) := by
  have hfree : p.capacity - p.content.length = 0 := by omega
  simp only [write, h, hfree, if_true, Bool.false_eq_true, if_false]

theorem write_of_room (h : p.cut = false) (hroom : p.content.length < p.capacity) (t : Ticket)
    (bs : Bytes) :
    p.write t bs =
      ({ p with content := p.content ++ bs.take (p.capacity - p.content.length), reader := none },
        p.reader.toList, .written (bs.take (p.capacity - p.content.length)).length) := by
  have hfree : ¬p.capacity - p.content.length = 0 := by omega
  simp only [write, h, hfree, Bool.false_eq_true, if_false]

/-- A pipe after the octets `bs` have been put into it. One that was cut takes none. -/
structure Fed (p p' : Pipe) (bs : Bytes) : Prop where
  content : p'.content = p.content ++ bs
  whole : p.cut = true → bs = []
  cut : p.cut = true → p'.cut = true

theorem Fed.refl (p : Pipe) : Fed p p [] := ⟨(List.append_nil _).symm, fun _ => rfl, id⟩

theorem Fed.trans {p₁ p₂ p₃ : Pipe} {bs bs' : Bytes} (h : Fed p₁ p₂ bs) (h' : Fed p₂ p₃ bs') :
    Fed p₁ p₃ (bs ++ bs') where
  content := by rw [h'.content, h.content, List.append_assoc]
  whole hcut := by rw [h.whole hcut, h'.whole (h.cut hcut), List.append_nil]
  cut hcut := h'.cut (h.cut hcut)

end Pipe

namespace Lock

variable {l : Lock} {t : Ticket}

@[simp] theorem heldBy_eq_true : l.heldBy t = true ↔ l.holder = some t := by
  simp [heldBy]

/-- A lock that a task does not get has the holder that it had. -/
theorem holder_acquire (h : (l.acquire t).holder ≠ some t) :
    (l.acquire t).holder = l.holder := by
  unfold acquire at h ⊢
  split
  · next hfree =>
      rw [hfree] at h
      exact absurd rfl h
  · rfl

end Lock

namespace Stream

variable {t : Ticket} {s s' : End}

/-! ## Moving octets -/

/-- What an end reads with. -/
structure Incoming where
  limits : ChannelLimits
  lock : Lock
  input : Bytes
  readable : Bool
  ended : Bool
  failed : Bool
  fault : Option String
  pipe : Pipe

def End.incoming (s : End) : Incoming :=
  ⟨s.limits, s.readLock, s.input, s.readable, s.ended, s.failed, s.fault, s.inbound⟩

/-- The octets `added` have been put into the output, and then the octets `moved` have gone from its
front to the pipe. -/
structure Moves (s s' : End) (added moved : Bytes) : Prop where
  rest : s'.incoming = s.incoming
  output : moved ++ s'.output = s.output ++ added
  pipe : s.outbound.Fed s'.outbound moved
  capacity : s'.outbound.capacity = s.outbound.capacity

theorem Moves.refl (s : End) : Moves s s [] [] where
  rest := rfl
  output := (List.append_nil _).symm
  pipe := .refl _
  capacity := rfl

theorem Moves.trans {s₁ s₂ s₃ : End} {added added' moved moved' : Bytes}
    (h : Moves s₁ s₂ added moved) (h' : Moves s₂ s₃ added' moved') :
    Moves s₁ s₃ (added ++ added') (moved ++ moved') where
  rest := h'.rest.trans h.rest
  output := by
    rw [List.append_assoc, h'.output, ← List.append_assoc, h.output, List.append_assoc]
  pipe := h.pipe.trans h'.pipe
  capacity := h'.capacity.trans h.capacity

/-- Neither lock nor signal matter. -/
theorem Moves.congr {s₁ s₂ : End} {added moved : Bytes} (h : Moves s₁ s₂ added moved)
    (before : s₁ = { s with closed := s₁.closed, writeLock := s₁.writeLock })
    (after : s' = { s₂ with closed := s'.closed, writeLock := s'.writeLock }) :
    Moves s s' added moved where
  rest := by
    rw [before] at h
    rw [after]
    exact h.rest
  output := by
    rw [before] at h
    rw [after]
    exact h.output
  pipe := by
    rw [before] at h
    rw [after]
    exact h.pipe
  capacity := by
    rw [before] at h
    rw [after]
    exact h.capacity

/-! ## Flushing -/

/-- What a flush that starts with `s` and ends with `s'` comes to. -/
inductive Flushed (s s' : End) : Written → Prop
  /-- All output has gone to the pipe. -/
  | all (moved : Bytes) (moves : Moves s s' [] moved) (closed : s'.closed = s.closed)
      (lock : s'.writeLock = s.writeLock) (cut : s'.outbound.cut = s.outbound.cut)
      (empty : s'.output = []) : Flushed s s' .all
  /-- The pipe is full. -/
  | waits (moved : Bytes) (moves : Moves s s' [] moved) (closed : s'.closed = s.closed)
      (lock : s'.writeLock = s.writeLock) (cut : s'.outbound.cut = s.outbound.cut)
      (whole : s.outbound.cut = false) (left : s'.output ≠ [])
      (full : s'.outbound.capacity ≤ s'.outbound.content.length) : Flushed s s' .waits
  /-- The pipe was cut. -/
  | failed (moves : Moves s s' [] []) (closed : s'.closed = s.closed)
      (lock : s'.writeLock = s.writeLock) (cut : s'.outbound.cut = s.outbound.cut)
      (broken : s.outbound.cut = true) : Flushed s s' (.failed .brokenPipe)

/-- A flush goes on after a first part of the output has been moved. -/
theorem Flushed.after {s₁ : End} {moved : Bytes} {r : Written} (h : Flushed s₁ s' r)
    (moves : Moves s s₁ [] moved) (closed : s₁.closed = s.closed)
    (lock : s₁.writeLock = s.writeLock) (cut : s₁.outbound.cut = s.outbound.cut)
    (whole : s.outbound.cut = false) : Flushed s s' r := by
  cases h with
  | all moved' moves' closed' lock' cut' empty =>
      exact .all _ (moves.trans moves') (closed'.trans closed) (lock'.trans lock)
        (cut'.trans cut) empty
  | waits moved' moves' closed' lock' cut' _ left full =>
      exact .waits _ (moves.trans moves') (closed'.trans closed) (lock'.trans lock)
        (cut'.trans cut) whole left full
  | failed moves' closed' lock' cut' broken =>
      rw [cut, whole] at broken
      cases broken

theorem flushed_go {fuel : Nat} {wakes : List Ticket} (hfuel : s.output.length < fuel) :
    Flushed s (flush.go t fuel s wakes).1 (flush.go t fuel s wakes).2.2 := by
  induction fuel generalizing s wakes with
  | zero => exact absurd hfuel (Nat.not_lt_zero _)
  | succ fuel ih =>
      unfold flush.go
      by_cases hempty : s.output.isEmpty = true
      · rw [if_pos hempty]
        exact .all [] (.refl s) rfl rfl rfl (List.isEmpty_iff.mp hempty)
      rw [if_neg hempty]
      by_cases hcut : s.outbound.cut = true
      · rw [Pipe.write_of_cut hcut]
        exact .failed (.refl s) rfl rfl rfl hcut
      rw [Bool.not_eq_true] at hcut
      by_cases hroom : s.outbound.content.length < s.outbound.capacity
      · rw [Pipe.write_of_room hcut hroom]
        generalize hn : s.outbound.capacity - s.outbound.content.length = n
        have hrest : s.output.drop (s.output.take n).length = s.output.drop n := by
          by_cases hle : n ≤ s.output.length
          · rw [List.length_take_of_le hle]
          · rw [List.take_of_length_le (by omega), List.drop_length,
              List.drop_eq_nil_of_le (by omega)]
        have hpos : 0 < s.output.length := by
          rw [List.length_pos_iff]
          exact fun hnil => hempty (List.isEmpty_iff.mpr hnil)
        dsimp only
        rw [hrest]
        -- a part of the output has been moved, so the next round has less to do
        generalize hs₁ : ({ s with outbound := _, output := s.output.drop n } : End) = s₁
        have hmoves : Moves s s₁ [] (s.output.take n) := by
          subst hs₁
          have hfed : s.outbound.Fed { s.outbound with
              content := s.outbound.content ++ s.output.take n, reader := none }
              (s.output.take n) := by
            refine ⟨rfl, fun h => ?_, id⟩
            rw [hcut] at h
            cases h
          exact ⟨rfl, (List.take_append_drop n s.output).trans (List.append_nil _).symm, hfed, rfl⟩
        have hless : s₁.output.length < fuel := by
          subst hs₁
          show (s.output.drop n).length < fuel
          rw [List.length_drop]
          omega
        exact (ih hless).after hmoves (by subst hs₁; rfl) (by subst hs₁; rfl) (by subst hs₁; rfl)
          hcut
      · have hfull : s.outbound.capacity ≤ s.outbound.content.length := Nat.le_of_not_lt hroom
        rw [Pipe.write_of_full hcut hfull]
        have hfed : s.outbound.Fed { s.outbound with writer := some t } [] :=
          ⟨(List.append_nil _).symm, fun _ => rfl, id⟩
        have hleft : s.output ≠ [] := fun hnil => hempty (List.isEmpty_iff.mpr hnil)
        exact .waits [] ⟨rfl, (List.append_nil _).symm, hfed, rfl⟩ rfl rfl rfl hcut hleft hfull

/-- **What a flush comes to.** -/
theorem flushed (t : Ticket) (s : End) : Flushed s (flush t s).1 (flush t s).2.2 :=
  flushed_go (Nat.lt_succ_self _)

/-! ## Writing a frame -/

/-- What a try to write puts into the output. -/
def Writing.added : Writing → Bytes
  | feeding f => f.toBytes
  | _ => []

/-- The frame that is to be written is not longer than the end allows. -/
def Writing.Fits (s : End) : Writing → Prop
  | feeding f => f.payload.length ≤ s.limits.maxMessageSize
  | _ => True

theorem Writing.fits_congr {op : Writing} (h : s'.limits = s.limits) : op.Fits s' ↔ op.Fits s := by
  cases op with
  | feeding f => exact iff_of_eq (congrArg (f.payload.length ≤ ·.maxMessageSize) h)
  | flushing => exact Iff.rfl
  | ending => exact Iff.rfl

/-- Where a write waits once its frame is in the output. -/
def Writing.rest (last : Bool) : Writing := if last then .ending else .flushing

/-- What a try to write that starts with `s` and ends with `s'` comes to. -/
inductive Wrote (last : Bool) (op : Writing) (s s' : End) :
    Progress Writing (Except StreamError Unit) → Prop
  /-- The frame still waits for older output. -/
  | feeds (f : Frame) (feeding : op = .feeding f) (moved : Bytes) (moves : Moves s s' [] moved)
      (closed : s'.closed = s.closed) (lock : s'.writeLock = s.writeLock)
      (cut : s'.outbound.cut = s.outbound.cut) (whole : s.outbound.cut = false)
      (left : s'.output ≠ []) (full : s'.outbound.capacity ≤ s'.outbound.content.length) :
      Wrote last op s s' (.pending op)
  /-- The frame is in the output, and the pipe is full. -/
  | waits (fits : op.Fits s) (moved : Bytes) (moves : Moves s s' op.added moved)
      (closed : s'.closed = s.closed) (lock : s'.writeLock = s.writeLock)
      (cut : s'.outbound.cut = s.outbound.cut) (whole : s.outbound.cut = false)
      (left : s'.output ≠ []) (full : s'.outbound.capacity ≤ s'.outbound.content.length) :
      Wrote last op s s' (.pending (.rest last))
  /-- All is written, and the stream has ended if the frame was the last. -/
  | ends (fits : op.Fits s) (moved : Bytes) (moves : Moves s s' op.added moved)
      (closed : s'.closed = s.closed) (lock : s'.writeLock = s.writeLock)
      (cut : s'.outbound.cut = (last || s.outbound.cut)) (empty : s'.output = []) :
      Wrote last op s s' (.done (.ok ()))
  /-- The frame is in the output, and the pipe was cut. -/
  | breaks (e : StreamError) (fits : op.Fits s) (moved : Bytes)
      (moves : Moves s s' op.added moved) (closed : s'.closed = s.closed)
      (lock : s'.writeLock = s.writeLock) (cut : s'.outbound.cut = s.outbound.cut)
      (broken : s.outbound.cut = true) : Wrote last op s s' (.done (.error e))
  /-- The pipe was cut before the frame could be put into the output, or the frame is too long. -/
  | refuses (e : StreamError) (f : Frame) (feeding : op = .feeding f) (moved : Bytes)
      (moves : Moves s s' [] moved) (closed : s'.closed = s.closed)
      (lock : s'.writeLock = s.writeLock) (cut : s'.outbound.cut = s.outbound.cut)
      (why : s.outbound.cut = true ∨ ¬op.Fits s) : Wrote last op s s' (.done (.error e))

theorem Wrote.moves {last : Bool} {op : Writing} {r : Progress Writing (Except StreamError Unit)}
    (h : Wrote last op s s' r) : ∃ added moved, Moves s s' added moved := by
  cases h with
  | feeds f feeding moved moves => exact ⟨_, _, moves⟩
  | waits fits moved moves => exact ⟨_, _, moves⟩
  | ends fits moved moves => exact ⟨_, _, moves⟩
  | breaks e fits moved moves => exact ⟨_, _, moves⟩
  | refuses e f feeding moved moves => exact ⟨_, _, moves⟩

theorem Wrote.closed {last : Bool} {op : Writing} {r : Progress Writing (Except StreamError Unit)}
    (h : Wrote last op s s' r) : s'.closed = s.closed := by
  cases h <;> assumption

theorem Wrote.lock {last : Bool} {op : Writing} {r : Progress Writing (Except StreamError Unit)}
    (h : Wrote last op s s' r) : s'.writeLock = s.writeLock := by
  cases h <;> assumption

/-- The rest of a write whose frame is in the output. -/
def write.finish (t : Ticket) (last : Bool) (s : End) (wakes : List Ticket) :
    Try End Writing (Except StreamError Unit) :=
  match flush t s with
  | (s, w, .waits) => .pending s (.rest last) (wakes ++ w)
  | (s, w, .failed e) => .done s (.error e) (wakes ++ w)
  | (s, w, .all) =>
    if last then
      let (pipe, w') := s.outbound.closeWrite
      .done { s with outbound := pipe } (.ok ()) (wakes ++ w ++ w')
    else .done s (.ok ()) (wakes ++ w)

/-- The end of a write, when the frame has been put into the output. -/
theorem wrote_finish (last : Bool) {op : Writing} (fits : op.Fits s) {s₁ : End} {moved : Bytes}
    (moves : Moves s s₁ op.added moved) (closed : s₁.closed = s.closed)
    (lock : s₁.writeLock = s.writeLock) (cut : s₁.outbound.cut = s.outbound.cut) (t : Ticket)
    (wakes : List Ticket) :
    Wrote last op s (write.finish t last s₁ wakes).state
      (write.finish t last s₁ wakes).progress := by
  have hflush := flushed t s₁
  unfold write.finish
  generalize flush t s₁ = x at hflush ⊢
  obtain ⟨s₂, w, r⟩ := x
  dsimp only at hflush
  cases hflush with
  | all moved' moves' closed' lock' cut' empty =>
      have hmoves := moves.trans moves'
      rw [List.append_nil] at hmoves
      cases last with
      | false =>
          exact .ends fits _ hmoves (closed'.trans closed) (lock'.trans lock) (cut'.trans cut) empty
      | true =>
          have hfed := hmoves.pipe
          exact .ends fits _ ⟨hmoves.rest, hmoves.output,
              ⟨hfed.content, hfed.whole, fun _ => rfl⟩, hmoves.capacity⟩
            (closed'.trans closed) (lock'.trans lock) rfl empty
  | waits moved' moves' closed' lock' cut' whole left full =>
      have hmoves := moves.trans moves'
      rw [List.append_nil] at hmoves
      exact .waits fits _ hmoves (closed'.trans closed) (lock'.trans lock) (cut'.trans cut)
        (cut.symm.trans whole) left full
  | failed moves' closed' lock' cut' broken =>
      have hmoves := moves.trans moves'
      rw [List.append_nil] at hmoves
      exact .breaks _ fits _ hmoves (closed'.trans closed) (lock'.trans lock) (cut'.trans cut)
        (cut.symm.trans broken)

/-- The rest of a write that puts its frame into the output. -/
def write.append (t : Ticket) (last : Bool) (f : Frame) (s : End) (wakes : List Ticket) :
    Try End Writing (Except StreamError Unit) :=
  match f.encode s.limits.maxMessageSize with
  | .error e => .done s (.error (.frame e)) wakes
  | .ok bs => finish t last { s with output := s.output ++ bs } wakes

theorem wrote_append (last : Bool) (f : Frame) {s₁ : End} {moved : Bytes}
    (moves : Moves s s₁ [] moved) (closed : s₁.closed = s.closed)
    (lock : s₁.writeLock = s.writeLock) (cut : s₁.outbound.cut = s.outbound.cut) (t : Ticket)
    (wakes : List Ticket) :
    Wrote last (.feeding f) s (write.append t last f s₁ wakes).state
      (write.append t last f s₁ wakes).progress := by
  have hlimits : s₁.limits = s.limits := congrArg Incoming.limits moves.rest
  by_cases hlong : s.limits.maxMessageSize < f.payload.length
  · have hencode : f.encode s₁.limits.maxMessageSize =
        .error (.tooLarge f.payload.length s₁.limits.maxMessageSize) := by
      rw [Frame.encode, hlimits, if_pos hlong]
    rw [write.append, hencode]
    exact .refuses _ f rfl _ moves closed lock cut (Or.inr (Nat.not_le_of_lt hlong))
  · have hencode : f.encode s₁.limits.maxMessageSize = .ok f.toBytes := by
      rw [Frame.encode, hlimits, if_neg hlong]
    rw [write.append, hencode]
    have hfits : Writing.Fits s (.feeding f) := Nat.le_of_not_lt hlong
    have hpour : Moves s { s₁ with output := s₁.output ++ f.toBytes } f.toBytes moved := by
      refine ⟨moves.rest, ?_, moves.pipe, moves.capacity⟩
      show moved ++ (s₁.output ++ f.toBytes) = s.output ++ f.toBytes
      rw [← List.append_assoc, moves.output, List.append_nil]
    exact wrote_finish last hfits hpour closed lock cut t wakes

/-- **What a try to write comes to.** -/
theorem wrote (t : Ticket) (last : Bool) (op : Writing) (s : End) :
    Wrote last op s (write t last op s).state (write t last op s).progress := by
  have hrest {op : Writing} (hfits : op.Fits s) (hadded : op.added = []) :
      Wrote last op s (write.finish t last s []).state (write.finish t last s []).progress :=
    wrote_finish last hfits (hadded ▸ Moves.refl s) rfl rfl rfl t []
  cases op with
  | feeding f =>
      unfold write
      dsimp only
      split
      · -- the output is short enough
        exact wrote_append last f (Moves.refl s) rfl rfl rfl t []
      · have hflush := flushed t s
        generalize flush t s = x at hflush ⊢
        obtain ⟨s₁, w, r⟩ := x
        dsimp only at hflush ⊢
        cases hflush with
        | all moved moves closed lock cut empty =>
            exact wrote_append last f moves closed lock cut t w
        | waits moved moves closed lock cut whole left full =>
            exact .feeds f rfl moved moves closed lock cut whole left full
        | failed moves closed lock cut broken =>
            exact .refuses _ f rfl _ moves closed lock cut (Or.inl broken)
  | flushing => exact hrest trivial rfl
  | ending => exact hrest trivial rfl

/-! ## Sending -/

/-- Whether a send gets the writer at its turn. -/
def Sending.obtains (t : Ticket) (s : End) : Sending → Bool
  | fresh msg => !s.closed.fired && decide (msg.length ≤ s.limits.maxMessageSize) &&
      (s.writeLock.acquire t).heldBy t
  | locking _ => s.writeLock.heldBy t
  | writing _ => false

/-- A send has the writer or gets hold of it, and writes on from a state of writing at an end. -/
inductive Sending.Goes (t : Ticket) (s : End) : Sending → Writing → End → Prop
  | fresh (msg : Bytes) (isOpen : s.closed.fired = false)
      (size : msg.length ≤ s.limits.maxMessageSize)
      (held : (s.writeLock.acquire t).holder = some t) :
      Goes t s (.fresh msg) (.feeding (.message msg))
        { s with writeLock := s.writeLock.acquire t }
  | locking (msg : Bytes) (held : s.writeLock.holder = some t) :
      Goes t s (.locking msg) (.feeding (.message msg)) s
  | writing (op : Writing) : Goes t s (.writing op) op s

/-- What a try to send comes to. -/
inductive Sent (t : Ticket) (op : Sending) (s s' : End) :
    Progress Sending (Except TransportError Unit) → Prop
  /-- The message is too long, or the end is closed. -/
  | refused (msg : Bytes) (fresh : op = .fresh msg) (never : op.obtains t s = false)
      (same : s' = s) (err : TransportError) : Sent t op s s' (.done (.error err))
  /-- Another task has the writer. -/
  | queued (msg : Bytes) (first : op = .fresh msg ∨ op = .locking msg)
      (later : op.obtains t s = false) (lock : Lock) (holder : lock.holder = s.writeLock.holder)
      (same : s' = { s with writeLock := lock }) : Sent t op s s' (.pending (.locking msg))
  /-- The end was closed meanwhile. -/
  | stopped (op' : Writing) (s₁ : End) (goes : op.Goes t s op' s₁)
      (fired : s.closed.fired = true) (same : s' = s₁.releaseWriter.1) :
      Sent t op s s' (.done (.error .closed))
  /-- There is no room for all of the frame. -/
  | writes (op' op'' : Writing) (s₁ s₂ : End) (goes : op.Goes t s op' s₁)
      (isOpen : s.closed.fired = false) (wrote : Wrote false op' s₁ s₂ (.pending op''))
      (same : s' = s₂.watch t) : Sent t op s s' (.pending (.writing op''))
  /-- All of the frame is written. -/
  | delivers (op' : Writing) (s₁ s₂ : End) (goes : op.Goes t s op' s₁)
      (isOpen : s.closed.fired = false) (wrote : Wrote false op' s₁ s₂ (.done (.ok ())))
      (same : s' = (s₂.unwatch t).releaseWriter.1) : Sent t op s s' (.done (.ok ()))
  /-- The pipe was cut. -/
  | fails (op' : Writing) (s₁ s₂ : End) (e : StreamError) (goes : op.Goes t s op' s₁)
      (isOpen : s.closed.fired = false) (wrote : Wrote false op' s₁ s₂ (.done (.error e)))
      (same : s' = (s₂.unwatch t).releaseWriter.1.markClosed.1) :
      Sent t op s s' (.done (.error (.stream e)))

theorem Sending.Goes.obtains {op : Sending} {op' : Writing} {s₁ : End} (h : op.Goes t s op' s₁) :
    op.obtains t s = true ∨ op = .writing op' := by
  cases h with
  | fresh msg isOpen size held =>
      left
      rw [Sending.obtains, isOpen, decide_eq_true size, Lock.heldBy_eq_true.mpr held]
      rfl
  | locking msg held => exact Or.inl (Lock.heldBy_eq_true.mpr held)
  | writing op => exact Or.inr rfl

theorem Sending.Goes.closed {op : Sending} {op' : Writing} {s₁ : End} (h : op.Goes t s op' s₁) :
    s₁.closed = s.closed := by
  cases h <;> rfl

/-- To get hold of the writer touches no pipe and no buffer. -/
theorem Sending.Goes.eq_with {op : Sending} {op' : Writing} {s₁ : End} (h : op.Goes t s op' s₁) :
    s₁ = { s with closed := s₁.closed, writeLock := s₁.writeLock } := by
  cases h <;> rfl

theorem sent_holding {op : Sending} {op' : Writing} {s₁ : End} (hgoes : op.Goes t s op' s₁) :
    Sent t op s (sendHolding t op' s₁).state (sendHolding t op' s₁).progress := by
  have hclosed := hgoes.closed
  have hwrote := wrote t false op' s₁
  unfold sendHolding
  split
  · next hfired => exact .stopped op' s₁ hgoes (hclosed ▸ hfired) rfl
  · next hopen =>
      rw [Bool.not_eq_true, hclosed] at hopen
      generalize write t false op' s₁ = x at hwrote ⊢
      obtain ⟨s₂, w, r⟩ := x
      dsimp only at hwrote
      cases r with
      | pending op'' => exact .writes op' op'' s₁ s₂ hgoes hopen hwrote rfl
      | done r =>
          cases r with
          | ok u => exact .delivers op' s₁ s₂ hgoes hopen hwrote rfl
          | error e => exact .fails op' s₁ s₂ e hgoes hopen hwrote rfl

/-- **What a try to send comes to.** -/
theorem sent (t : Ticket) (op : Sending) (s : End) :
    Sent t op s (send t op s).state (send t op s).progress := by
  cases op with
  | fresh msg =>
      unfold send
      dsimp only
      split
      · next hfired =>
          refine .refused msg rfl ?_ rfl .closed
          rw [Sending.obtains, hfired]
          rfl
      · next hopen =>
          rw [Bool.not_eq_true] at hopen
          by_cases hsize : s.limits.maxMessageSize < msg.length
          · have hcheck : s.limits.checkSize msg.length =
                .error (.frameTooLarge msg.length s.limits.maxMessageSize) := if_pos hsize
            rw [hcheck]
            refine .refused msg rfl ?_ rfl _
            rw [Sending.obtains, decide_eq_false (Nat.not_le_of_lt hsize), Bool.and_false,
              Bool.false_and]
          · have hcheck : s.limits.checkSize msg.length = .ok () := if_neg hsize
            rw [hcheck]
            dsimp only
            split
            · next hheld =>
                exact sent_holding (.fresh msg hopen (Nat.le_of_not_lt hsize)
                  (Lock.heldBy_eq_true.mp hheld))
            · next hheld =>
                refine .queued msg (Or.inl rfl) ?_ _ (Lock.holder_acquire ?_) rfl
                · rw [Sending.obtains, Bool.eq_false_iff.mpr hheld, Bool.and_false]
                · exact fun h => hheld (Lock.heldBy_eq_true.mpr h)
  | locking msg =>
      unfold send
      dsimp only
      split
      · next hheld => exact sent_holding (.locking msg (Lock.heldBy_eq_true.mp hheld))
      · next hheld =>
          exact .queued msg (Or.inr rfl) (Bool.eq_false_iff.mpr hheld) s.writeLock rfl rfl
  | writing op => exact sent_holding (.writing op)

/-! ## Closing -/

/-- Whether a close gets the writer at its turn. -/
def Closing.obtains (t : Ticket) (s : End) : Closing → Bool
  | fresh => !s.closed.fired && (s.writeLock.acquire t).heldBy t
  | locking => s.writeLock.heldBy t
  | writing _ _ => false

/-- Whether a close finds the end open at its turn, and so is the one that closes it. -/
def Closing.marks (s : End) : Closing → Bool
  | fresh => !s.closed.fired
  | _ => false

/-- A close has the writer or gets hold of it, and writes on from a state of writing at an end until
a deadline. -/
inductive Closing.Goes (now : Nat) (t : Ticket) (s : End) : Closing → Writing → Nat → End → Prop
  | fresh (isOpen : s.closed.fired = false) (held : (s.writeLock.acquire t).holder = some t) :
      Goes now t s .fresh (.feeding .close) (now + closeTimeout)
        { s.markClosed.1 with writeLock := s.writeLock.acquire t }
  | locking (held : s.writeLock.holder = some t) :
      Goes now t s .locking (.feeding .close) (now + closeTimeout) s
  | writing (op : Writing) (deadline : Nat) :
      Goes now t s (.writing op deadline) op deadline s

theorem Closing.Goes.obtains {now deadline : Nat} {op : Closing} {op' : Writing} {s₁ : End}
    (h : op.Goes now t s op' deadline s₁) :
    op.obtains t s = true ∧ deadline = now + closeTimeout ∧ op' = .feeding .close ∨
      op = .writing op' deadline := by
  cases h with
  | fresh isOpen held =>
      left
      rw [Closing.obtains, isOpen, Lock.heldBy_eq_true.mpr held]
      exact ⟨rfl, rfl, rfl⟩
  | locking held => exact Or.inl ⟨Lock.heldBy_eq_true.mpr held, rfl, rfl⟩
  | writing op deadline => exact Or.inr rfl

/-- To get hold of the writer and to close the end touches no pipe and no buffer. -/
theorem Closing.Goes.eq_with {now deadline : Nat} {op : Closing} {op' : Writing} {s₁ : End}
    (h : op.Goes now t s op' deadline s₁) :
    s₁ = { s with closed := s₁.closed, writeLock := s₁.writeLock } := by
  cases h <;> rfl

/-- What a try to close comes to. -/
inductive Closes (now : Nat) (t : Ticket) (op : Closing) (s s' : End) : Progress Closing Unit → Prop
  /-- The end was closed before. -/
  | already (fresh : op = .fresh) (fired : s.closed.fired = true) (same : s' = s) :
      Closes now t op s s' (.done ())
  /-- Another task has the writer. -/
  | queued (closed : Latch) (lock : Lock) (holder : lock.holder = s.writeLock.holder)
      (later : op.obtains t s = false)
      (first : op = .fresh ∧ s.closed.fired = false ∧ closed.fired = true ∨
        op = .locking ∧ closed = s.closed)
      (same : s' = { s with closed := closed, writeLock := lock }) :
      Closes now t op s s' (.pending .locking)
  /-- There is no room, and there is time. -/
  | writes (op' op'' : Writing) (deadline : Nat) (s₁ : End) (goes : op.Goes now t s op' deadline s₁)
      (wrote : Wrote true op' s₁ s' (.pending op'')) (early : now < deadline) :
      Closes now t op s s' (.pending (.writing op'' deadline))
  /-- There is no room, and the time is over. -/
  | givesUp (op' op'' : Writing) (deadline : Nat) (s₁ s₂ : End)
      (goes : op.Goes now t s op' deadline s₁) (wrote : Wrote true op' s₁ s₂ (.pending op''))
      (late : deadline ≤ now) (same : s' = s₂.releaseWriter.1) : Closes now t op s s' (.done ())
  /-- The stream has ended, or the pipe was cut. -/
  | ends (op' : Writing) (deadline : Nat) (s₁ s₂ : End) (r : Except StreamError Unit)
      (goes : op.Goes now t s op' deadline s₁) (wrote : Wrote true op' s₁ s₂ (.done r))
      (same : s' = s₂.releaseWriter.1) : Closes now t op s s' (.done ())

/-- The rest of a try to close that has the writer. -/
def close.writing (now : Nat) (t : Ticket) (op : Writing) (deadline : Nat) (s : End) :
    Try End Closing Unit :=
  match write t true op s with
  | ⟨s, w, .pending op⟩ =>
    if deadline ≤ now then
      let (s, w') := s.releaseWriter
      .done s () (w ++ w')
    else .pending s (.writing op deadline) w
  | ⟨s, w, .done _⟩ =>
    let (s, w') := s.releaseWriter
    .done s () (w ++ w')

theorem closes_holding {now deadline : Nat} {op : Closing} {op' : Writing} {s₁ : End}
    (hgoes : op.Goes now t s op' deadline s₁) :
    Closes now t op s (close.writing now t op' deadline s₁).state
      (close.writing now t op' deadline s₁).progress := by
  have hwrote := wrote t true op' s₁
  unfold close.writing
  generalize write t true op' s₁ = x at hwrote ⊢
  obtain ⟨s₂, w, r⟩ := x
  dsimp only at hwrote
  cases r with
  | pending op'' =>
      dsimp only
      split
      · next hlate => exact .givesUp op' op'' deadline s₁ s₂ hgoes hwrote hlate rfl
      · next hearly => exact .writes op' op'' deadline s₁ hgoes hwrote (Nat.lt_of_not_le hearly)
  | done r => exact .ends op' deadline s₁ s₂ r hgoes hwrote rfl

/-- **What a try to close comes to.** -/
theorem closes (now : Nat) (t : Ticket) (op : Closing) (s : End) :
    Closes now t op s (close now t op s).state (close now t op s).progress := by
  cases op with
  | fresh =>
      unfold close
      dsimp only
      split
      · next hfired => exact .already rfl hfired rfl
      · next hopen =>
          rw [Bool.not_eq_true] at hopen
          split
          · next hheld => exact closes_holding (.fresh hopen (Lock.heldBy_eq_true.mp hheld))
          · next hheld =>
              refine .queued _ _ (Lock.holder_acquire ?_) ?_ (Or.inl ⟨rfl, hopen, rfl⟩) rfl
              · exact fun h => hheld (Lock.heldBy_eq_true.mpr h)
              · rw [Closing.obtains]
                exact (congrArg _ (Bool.eq_false_iff.mpr hheld)).trans (Bool.and_false _)
  | locking =>
      unfold close
      dsimp only
      split
      · next hheld => exact closes_holding (.locking (Lock.heldBy_eq_true.mp hheld))
      · next hheld =>
          exact .queued s.closed s.writeLock rfl (Bool.eq_false_iff.mpr hheld)
            (Or.inr ⟨rfl, rfl⟩) rfl
  | writing op deadline => exact closes_holding (.writing op deadline)

end Stream

end PeerRpc
