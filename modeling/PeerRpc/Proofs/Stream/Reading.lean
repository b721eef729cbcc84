import PeerRpc.Proofs.Frame.Chunks
import PeerRpc.Proofs.Stream.Writing

/-!
# PeerRpc.Proofs.Stream.Reading -- what a try to receive comes to

An end that reads takes frames from its input, and more input from its pipe only when the input holds
no whole frame. So what it has taken, followed by what can be taken from its input and its pipe, is
what can be taken from all that has ever arrived (`Stream.Follows`), until a frame is refused or the
stream ends; then nothing is left that could have been taken.

`Stream.Round` lists what a round of a look for the next frame comes to, and `Stream.found` is the
argument, along the rounds: a look that finds no frame has taken all there are, and `rounds` bounds
their number so that a look never stops half way.
`Stream.Received` lists what a try to receive comes to.
-/

namespace PeerRpc

namespace Pipe

variable {p : Pipe}

theorem read_of_content (h : p.content ≠ []) (t : Ticket) :
    p.read t = ({ p with content := [], writer := none }, p.writer.toList, .octets p.content) := by
  have hne : p.content.isEmpty = false := List.isEmpty_eq_false_iff.mpr h
  simp only [read, hne, Bool.false_eq_true, if_false]

theorem read_of_cut (h : p.content = []) (hcut : p.cut = true) (t : Ticket) :
    p.read t = (p, [], .finished) := by
  simp only [read, h, hcut, List.isEmpty_nil, if_true]

theorem read_of_nothing (h : p.content = []) (hcut : p.cut = false) (t : Ticket) :
    p.read t = ({ p with reader := some t }, [], .nothing) := by
  simp only [read, h, hcut, List.isEmpty_nil, if_true, Bool.false_eq_true, if_false]

/-- A pipe after its octets have been taken out of it, or have not. -/
structure Drained (p p' : Pipe) : Prop where
  content : p'.content = p.content ∨ p'.content = []
  cut : p'.cut = p.cut

theorem Drained.refl (p : Pipe) : Drained p p := ⟨Or.inl rfl, rfl⟩

theorem Drained.trans {p₁ p₂ p₃ : Pipe} (h : Drained p₁ p₂) (h' : Drained p₂ p₃) :
    Drained p₁ p₃ where
  content := by
    rcases h'.content with hsame | hnil
    · rw [hsame]
      exact h.content
    · exact Or.inr hnil
  cut := h'.cut.trans h.cut

end Pipe

namespace Stream

variable {t : Ticket} {s s' : End}

/-- What an end has not taken as frames of all that has arrived. -/
def End.buffer (s : End) : Bytes := s.input ++ s.inbound.content

/-- What can be taken from a buffer of an end. -/
def End.drain (s : End) (buffer : Bytes) : Frame.Intake :=
  Frame.drain s.limits.maxMessageSize buffer

/-- The frames `taken` are what an end has taken of the octets `arrived`. -/
inductive Follows (arrived : Bytes) (taken : List Frame) (s : End) : Prop
  /-- Everything that can be taken has been taken or can still be taken. -/
  | sound (frames : s.drain arrived =
        ⟨taken ++ (s.drain s.buffer).frames, (s.drain s.buffer).kept⟩)
      (waiting : s.readable = false → Frame.decode s.limits.maxMessageSize s.input = .waiting)
      (ended : s.ended = true → s.inbound.cut = true ∧ s.inbound.content = [])
      (failed : s.failed = true →
        s.ended = true ∧ Frame.decode s.limits.maxMessageSize s.input = .waiting) :
      Follows arrived taken s
  /-- A frame was refused, and everything in front of it has been taken. -/
  | spent (frames : (s.drain arrived).frames <+: taken) (e : FrameError)
      (refused : (s.drain arrived).kept = .error e) : Follows arrived taken s

/-- An end that has just been made follows its stream. -/
theorem follows_ofLimits (l : ChannelLimits) (capacity : Nat) :
    Follows [] [] (.ofLimits l capacity) := by
  have hwait : Frame.decode l.maxMessageSize [] = .waiting := Frame.decode_of_short (by decide)
  refine .sound ?_ (fun _ => hwait) nofun nofun
  show Frame.drain l.maxMessageSize [] = ⟨[] ++ _, _⟩
  rw [List.nil_append]
  rfl

/-- Only what an end reads with and from matters. -/
theorem Follows.congr {arrived : Bytes} {taken : List Frame} (h : Follows arrived taken s)
    (hlimits : s'.limits = s.limits) (hinput : s'.input = s.input)
    (hreadable : s'.readable = s.readable) (hended : s'.ended = s.ended)
    (hfailed : s'.failed = s.failed) (hcontent : s'.inbound.content = s.inbound.content)
    (hcut : s.inbound.cut = true → s'.inbound.cut = true) : Follows arrived taken s' := by
  have hbuffer : s'.buffer = s.buffer := by rw [End.buffer, End.buffer, hinput, hcontent]
  have hdrain : s'.drain = s.drain := by
    unfold End.drain
    rw [hlimits]
  cases h with
  | sound frames waiting ended failed =>
      refine .sound ?_ ?_ ?_ ?_
      · rw [hdrain, hbuffer]
        exact frames
      · rw [hreadable, hlimits, hinput]
        exact waiting
      · rw [hended, hcontent]
        exact fun h => ⟨hcut (ended h).1, (ended h).2⟩
      · rw [hfailed, hended, hlimits, hinput]
        exact failed
  | spent frames e refused =>
      rw [← hdrain] at frames refused
      exact .spent frames e refused

/-- More octets arrive, unless the stream has been cut. -/
theorem Follows.arrive {arrived bs : Bytes} {taken : List Frame} (h : Follows arrived taken s)
    (hs' : s' = { s with inbound := s'.inbound, outbound := s'.outbound })
    (hfed : s.inbound.Fed s'.inbound bs) :
    Follows (arrived ++ bs) taken s' := by
  have hlimits : s'.limits = s.limits := by rw [hs']
  have hinput : s'.input = s.input := by rw [hs']
  have hended : s'.ended = s.ended := by rw [hs']
  have hdrain : s'.drain = s.drain := by
    unfold End.drain
    rw [hlimits]
  have hmore (buffer : Bytes) : s.drain (buffer ++ bs) =
      (s.drain buffer).feed s.limits.maxMessageSize bs := Frame.drain_append _ buffer bs
  cases h with
  | sound frames waiting ended failed =>
      refine .sound ?_ ?_ ?_ ?_
      · have hbuffer : s'.buffer = s.buffer ++ bs := by
          rw [End.buffer, hinput, hfed.content, End.buffer, List.append_assoc]
        rw [hdrain, hbuffer, hmore, hmore, frames]
        -- an error that stops the loop for the buffer stops it for all octets
        unfold Frame.Intake.feed
        dsimp only
        cases (s.drain s.buffer).kept with
        | error e => rfl
        | ok left => simp only [List.append_assoc]
      · rw [hs']
        exact waiting
      · intro h
        obtain ⟨hcut, hnone⟩ := ended (hended ▸ h)
        rw [hfed.content, hfed.whole hcut, hnone]
        exact ⟨hfed.cut hcut, rfl⟩
      · rw [hs']
        exact failed
  | spent frames e refused =>
      have hsame : s.drain (arrived ++ bs) = ⟨(s.drain arrived).frames, .error e⟩ := by
        rw [hmore, Frame.Intake.feed, refused]
      refine .spent ?_ e ?_
      · rw [hdrain, hsame]
        exact frames
      · rw [hdrain, hsame]

/-! ## Looking for the next frame -/

/-- All that a round of a look for the next frame comes to, with `fuel` more rounds to go. -/
inductive Round (t : Ticket) (fuel : Nat) (s : End) (wakes : List Ticket) :
    End × List Ticket × Next → Prop
  /-- A refused frame, or the end of the stream inside one, is forgotten. -/
  | recovers (failed : s.failed = true) :
      Round t fuel s wakes ({ s with readable := false, failed := false }, wakes, .finished)
  | takes (f : Frame) (rest : Bytes) (whole : s.failed = false) (readable : s.readable = true)
      (look : Frame.decode s.limits.maxMessageSize s.input = .frame f rest) :
      Round t fuel s wakes ({ s with input := rest }, wakes, .frame f)
  | refuses (e : FrameError) (rest : Bytes)
      (look : Frame.decode s.limits.maxMessageSize s.input = .refused e rest) :
      Round t fuel s wakes ({ s with input := rest, failed := true }, wakes, .failed (.frame e))
  /-- The stream has ended inside a frame. -/
  | truncates (ended : s.ended = true)
      (look : Frame.decode s.limits.maxMessageSize s.input = .waiting) :
      Round t fuel s wakes ({ s with failed := true }, wakes, .failed .bytesRemaining)
  /-- The stream has ended behind a frame. -/
  | empties (ended : s.ended = true)
      (look : Frame.decode s.limits.maxMessageSize s.input = .waiting) :
      Round t fuel s wakes ({ s with readable := false }, wakes, .finished)
  /-- The input holds no whole frame. -/
  | tires (readable : s.readable = true) (ended : s.ended = false)
      (look : Frame.decode s.limits.maxMessageSize s.input = .waiting) :
      Round t fuel s wakes (next.go t fuel { s with readable := false } wakes)
  /-- Reading fails. -/
  | faults (text : String) (fault : s.fault = some text) :
      Round t fuel s wakes ({ s with fault := none, failed := true }, wakes, .failed (.other text))
  /-- The pipe is read empty. -/
  | pours (woken : List Ticket) (whole : s.failed = false) (readable : s.readable = false)
      (content : s.inbound.content ≠ []) :
      Round t fuel s wakes (next.go t fuel { s with
        inbound := { s.inbound with content := [], writer := none },
        input := s.input ++ s.inbound.content, ended := false, readable := true } (wakes ++ woken))
  /-- The end of the stream is found, and the input is looked at once more. -/
  | halts (whole : s.failed = false) (readable : s.readable = false)
      (empty : s.inbound.content = []) (cut : s.inbound.cut = true) :
      Round t fuel s wakes (next.go t fuel { s with ended := true, readable := true } (wakes ++ []))
  /-- The end of the stream was found before. -/
  | ends (readable : s.readable = false) (empty : s.inbound.content = []) :
      Round t fuel s wakes (s, wakes ++ [], .finished)
  | waits (readable : s.readable = false) (empty : s.inbound.content = [])
      (whole : s.inbound.cut = false) :
      Round t fuel s wakes
        ({ s with inbound := { s.inbound with reader := some t } }, wakes ++ [], .waits)

/-- A round looks at the input if it may hold a frame, and reads more of it otherwise. -/
theorem round (t : Ticket) (fuel : Nat) (s : End) (wakes : List Ticket) :
    Round t fuel s wakes (next.go t (fuel + 1) s wakes) := by
  unfold next.go
  by_cases hfailed : s.failed = true
  · rw [if_pos hfailed]
    exact .recovers hfailed
  rw [if_neg hfailed]
  rw [Bool.not_eq_true] at hfailed
  by_cases hreadable : s.readable = true
  · rw [if_pos hreadable]
    by_cases hended : s.ended = true
    · rw [if_pos hended]
      unfold Frame.decodeAtEnd
      cases hdecode : Frame.decode s.limits.maxMessageSize s.input with
      | frame f rest => exact .takes f rest hfailed hreadable hdecode
      | refused e rest => exact .refuses e rest hdecode
      | waiting =>
          dsimp only
          by_cases hempty : s.input.isEmpty = true
          · rw [if_pos hempty]
            exact .empties hended hdecode
          · rw [if_neg hempty]
            exact .truncates hended hdecode
    · rw [if_neg hended]
      rw [Bool.not_eq_true] at hended
      cases hdecode : Frame.decode s.limits.maxMessageSize s.input with
      | frame f rest => exact .takes f rest hfailed hreadable hdecode
      | refused e rest => exact .refuses e rest hdecode
      | waiting => exact .tires hreadable hended hdecode
  rw [if_neg hreadable]
  rw [Bool.not_eq_true] at hreadable
  split
  · next text hsome => exact .faults text hsome
  by_cases hnil : s.inbound.content = []
  · by_cases hcut : s.inbound.cut = true
    · rw [Pipe.read_of_cut hnil hcut]
      dsimp only
      split
      · exact .ends hreadable hnil
      · exact .halts hfailed hreadable hnil hcut
    · rw [Bool.not_eq_true] at hcut
      rw [Pipe.read_of_nothing hnil hcut]
      exact .waits hreadable hnil hcut
  · rw [Pipe.read_of_content hnil]
    exact .pours _ hfailed hreadable hnil

/-- A bound on the rounds of a look for the next frame. -/
def rounds (s : End) : Nat :=
  match s.readable, s.ended with
  | true, true => 1
  | true, false => idle + 1
  | false, _ => idle
where
  /-- The bound where the input holds no whole frame. -/
  idle : Nat := if s.inbound.content = [] then 2 else 4

theorem one_le_rounds (s : End) : 1 ≤ rounds s := by
  unfold rounds rounds.idle
  split
  · exact Nat.le_refl 1
  · exact Nat.le_add_left 1 _
  · split <;> decide

theorem rounds_le (s : End) : rounds s ≤ s.inbound.content.length + 4 := by
  unfold rounds rounds.idle
  by_cases hnil : s.inbound.content = []
  · rw [hnil]
    split <;> simp
  · have hpos : 0 < s.inbound.content.length := List.length_pos_iff.mpr hnil
    rw [if_neg hnil]
    split <;> omega

/-- What a look for the next frame comes to. -/
inductive Found (arrived : Bytes) (taken : List Frame) (s' : End) : Next → Prop
  | frame (f : Frame) (follows : Follows arrived (taken ++ [f]) s') :
      Found arrived taken s' (.frame f)
  | failed (e : StreamError) (follows : Follows arrived taken s') :
      Found arrived taken s' (.failed e)
  | finished (follows : Follows arrived taken s')
      (all : (s'.drain arrived).frames <+: taken) : Found arrived taken s' .finished
  | waits (follows : Follows arrived taken s') (all : (s'.drain arrived).frames <+: taken)
      (whole : s'.inbound.cut = false) : Found arrived taken s' .waits

/-- A frame is taken. -/
theorem Follows.take {arrived rest : Bytes} {taken : List Frame} {f : Frame}
    (h : Follows arrived taken s) (hfailed : s.failed = false) (hreadable : s.readable = true)
    (hdecode : Frame.decode s.limits.maxMessageSize s.input = .frame f rest) :
    Follows arrived (taken ++ [f]) { s with input := rest } := by
  cases h with
  | sound frames waiting ended failed =>
      have hnever : s.readable ≠ false := by
        rw [hreadable]
        exact nofun
      have hwhole : s.failed ≠ true := by
        rw [hfailed]
        exact nofun
      refine .sound ?_ (fun hno => absurd hno hnever) ended (fun hno => absurd hno hwhole)
      have hbuffer := Frame.decode_append (by rw [hdecode]; exact nofun) s.inbound.content
      rw [hdecode] at hbuffer
      have hdrain : s.drain s.buffer = ⟨f :: (s.drain (rest ++ s.inbound.content)).frames,
          (s.drain (rest ++ s.inbound.content)).kept⟩ := Frame.drain_of_frame hbuffer
      rw [hdrain] at frames
      show s.drain arrived = ⟨taken ++ [f] ++ (s.drain (rest ++ s.inbound.content)).frames, _⟩
      rw [frames, List.append_assoc]
      rfl
  | spent frames e refused => exact .spent (frames.trans (List.prefix_append _ _)) e refused

/-- A frame is refused. -/
theorem Follows.refuse {arrived rest : Bytes} {taken : List Frame} {e : FrameError}
    (h : Follows arrived taken s)
    (hdecode : Frame.decode s.limits.maxMessageSize s.input = .refused e rest) :
    Follows arrived taken { s with input := rest, failed := true } := by
  cases h with
  | sound frames waiting ended failed =>
      have hbuffer := Frame.decode_append (by rw [hdecode]; exact nofun) s.inbound.content
      rw [hdecode] at hbuffer
      have hdrain : s.drain s.buffer = ⟨[], .error e⟩ := Frame.drain_of_refused hbuffer
      rw [hdrain, List.append_nil] at frames
      refine .spent ?_ e ?_
      · exact (congrArg Frame.Intake.frames frames) ▸ List.prefix_rfl
      · exact congrArg Frame.Intake.kept frames
  | spent frames e refused => exact .spent frames e refused

/-- An input without a whole frame and an empty pipe mean that everything has been taken. -/
theorem Follows.all {arrived : Bytes} {taken : List Frame} (h : Follows arrived taken s)
    (hwait : s.readable = true → Frame.decode s.limits.maxMessageSize s.input = .waiting)
    (hnil : s.inbound.content = [] ∨ s.ended = true) : (s.drain arrived).frames <+: taken := by
  cases h with
  | sound frames waiting ended failed =>
      have hdecode : Frame.decode s.limits.maxMessageSize s.input = .waiting := by
        cases hr : s.readable with
        | true => exact hwait hr
        | false => exact waiting hr
      have hempty : s.inbound.content = [] := hnil.elim id fun he => (ended he).2
      have hdrain : s.drain s.buffer = ⟨[], .ok s.input⟩ := by
        rw [End.buffer, hempty, List.append_nil]
        exact Frame.drain_of_waiting hdecode
      rw [frames, hdrain]
      show taken ++ [] <+: taken
      simp
  | spent frames e refused => exact frames

/-- The stream ends inside a frame. -/
theorem Follows.truncate {arrived : Bytes} {taken : List Frame} (h : Follows arrived taken s)
    (hdecode : Frame.decode s.limits.maxMessageSize s.input = .waiting) (hended : s.ended = true) :
    Follows arrived taken { s with failed := true } := by
  cases h with
  | sound frames waiting ended failed =>
      exact .sound frames waiting ended fun _ => ⟨hended, hdecode⟩
  | spent frames e refused => exact .spent frames e refused

/-- The input is found to hold no whole frame. -/
theorem Follows.tire {arrived : Bytes} {taken : List Frame} (h : Follows arrived taken s)
    (hdecode : Frame.decode s.limits.maxMessageSize s.input = .waiting) :
    Follows arrived taken { s with readable := false } := by
  cases h with
  | sound frames waiting ended failed => exact .sound frames (fun _ => hdecode) ended failed
  | spent frames e refused => exact .spent frames e refused

/-- The pipe is read empty. -/
theorem Follows.pour {arrived : Bytes} {taken : List Frame} (h : Follows arrived taken s)
    (hfailed : s.failed = false) :
    Follows arrived taken { s with
      inbound := { s.inbound with content := [], writer := none },
      input := s.input ++ s.inbound.content, ended := false, readable := true } := by
  cases h with
  | sound frames waiting ended failed =>
      have hwhole : s.failed ≠ true := by
        rw [hfailed]
        exact nofun
      refine .sound ?_ nofun nofun (fun hno => absurd hno hwhole)
      show s.drain arrived = ⟨taken ++ (s.drain (s.input ++ s.inbound.content ++ [])).frames,
        (s.drain (s.input ++ s.inbound.content ++ [])).kept⟩
      rw [List.append_nil]
      exact frames
  | spent frames e refused => exact .spent frames e refused

/-- The end of the stream is found. -/
theorem Follows.halt {arrived : Bytes} {taken : List Frame} (h : Follows arrived taken s)
    (hfailed : s.failed = false) (hnil : s.inbound.content = []) (hcut : s.inbound.cut = true) :
    Follows arrived taken { s with ended := true, readable := true } := by
  cases h with
  | sound frames waiting ended failed =>
      have hwhole : s.failed ≠ true := by
        rw [hfailed]
        exact nofun
      exact .sound frames nofun (fun _ => ⟨hcut, hnil⟩) (fun hno => absurd hno hwhole)
  | spent frames e refused => exact .spent frames e refused

/-- A refused frame, or the end of the stream inside one, is forgotten. -/
theorem Follows.recover {arrived : Bytes} {taken : List Frame} (h : Follows arrived taken s)
    (hfailed : s.failed = true) :
    Follows arrived taken { s with readable := false, failed := false } ∧
      (s.drain arrived).frames <+: taken := by
  have hall : (s.drain arrived).frames <+: taken := by
    cases h with
    | sound frames waiting ended failed =>
        obtain ⟨hended, hdecode⟩ := failed hfailed
        exact Follows.all (.sound frames waiting ended failed) (fun _ => hdecode) (Or.inr hended)
    | spent frames e refused => exact frames
  refine ⟨?_, hall⟩
  cases h with
  | sound frames waiting ended failed =>
      exact .sound frames (fun _ => (failed hfailed).2) ended nofun
  | spent frames e refused => exact .spent frames e refused

theorem found_go {fuel : Nat} {arrived : Bytes} {taken : List Frame} {wakes : List Ticket}
    (h : Follows arrived taken s) (hfault : s.fault = none) (hfuel : rounds s ≤ fuel) :
    Found arrived taken (next.go t fuel s wakes).1 (next.go t fuel s wakes).2.2 := by
  induction fuel generalizing s wakes with
  | zero => exact absurd (Nat.le_trans (one_le_rounds s) hfuel) (Nat.not_lt_zero 0)
  | succ fuel ih =>
      have hidle (hreadable : s.readable = false) : rounds s = rounds.idle s := by
        rw [rounds, hreadable]
      have hwait (hreadable : s.readable = false) (hyes : s.readable = true) :
          Frame.decode s.limits.maxMessageSize s.input = .waiting :=
        absurd (hreadable.symm.trans hyes) nofun
      have hround := round t fuel s wakes
      generalize next.go t (fuel + 1) s wakes = x at hround ⊢
      cases hround with
      | recovers failed =>
          obtain ⟨hfollows, hall⟩ := h.recover failed
          exact .finished hfollows hall
      | takes f rest whole readable look => exact .frame f (h.take whole readable look)
      | refuses e rest look => exact .failed _ (h.refuse look)
      | truncates ended look => exact .failed _ (h.truncate look ended)
      | empties ended look =>
          exact .finished (h.tire look) (h.all (fun _ => look) (Or.inr ended))
      | tires readable ended look =>
          refine ih (h.tire look) hfault ?_
          have hrounds : rounds s = rounds.idle s + 1 := by
            rw [rounds, readable, ended]
          show rounds.idle s ≤ fuel
          omega
      | faults text fault =>
          rw [hfault] at fault
          cases fault
      | pours woken whole readable content =>
          refine ih (h.pour whole) hfault ?_
          rw [hidle readable, rounds.idle, if_neg content] at hfuel
          show 2 + 1 ≤ fuel
          omega
      | halts whole readable empty cut =>
          refine ih (h.halt whole empty cut) hfault ?_
          rw [hidle readable, rounds.idle, if_pos empty] at hfuel
          show 1 ≤ fuel
          omega
      | ends readable empty => exact .finished h (h.all (hwait readable) (Or.inl empty))
      | waits readable empty whole =>
          exact .waits (h.congr rfl rfl rfl rfl rfl rfl id) (h.all (hwait readable) (Or.inl empty))
            whole

/-- **What a look for the next frame comes to.** -/
theorem found {arrived : Bytes} {taken : List Frame} (h : Follows arrived taken s)
    (hfault : s.fault = none) (t : Ticket) :
    Found arrived taken (next t s).1 (next t s).2.2 :=
  found_go h hfault (rounds_le s)

/-- What an end writes with. -/
structure Outgoing where
  limits : ChannelLimits
  lock : Lock
  output : Bytes
  pipe : Pipe

def End.outgoing (s : End) : Outgoing := ⟨s.limits, s.writeLock, s.output, s.outbound⟩

/-- A look for the next frame leaves all else alone. -/
structure Looks (s s' : End) : Prop where
  rest : s'.outgoing = s.outgoing
  closed : s'.closed = s.closed
  lock : s'.readLock = s.readLock
  pipe : s.inbound.Drained s'.inbound
  fault : s.fault = none → s'.fault = none

theorem Looks.refl (s : End) : Looks s s := ⟨rfl, rfl, rfl, .refl _, id⟩

theorem Looks.trans {s₁ s₂ s₃ : End} (h : Looks s₁ s₂) (h' : Looks s₂ s₃) : Looks s₁ s₃ where
  rest := h'.rest.trans h.rest
  closed := h'.closed.trans h.closed
  lock := h'.lock.trans h.lock
  pipe := h.pipe.trans h'.pipe
  fault hnone := h'.fault (h.fault hnone)

theorem looks_go (fuel : Nat) (s : End) (wakes : List Ticket) :
    Looks s (next.go t fuel s wakes).1 := by
  induction fuel generalizing s wakes with
  | zero => exact .refl s
  | succ fuel ih =>
      have hround := round t fuel s wakes
      generalize next.go t (fuel + 1) s wakes = x at hround ⊢
      cases hround with
      | tires readable ended look =>
          refine Looks.trans ?_ (ih _ _)
          exact ⟨rfl, rfl, rfl, .refl _, id⟩
      | pours woken whole readable content =>
          refine Looks.trans ?_ (ih _ _)
          exact ⟨rfl, rfl, rfl, ⟨Or.inr rfl, rfl⟩, id⟩
      | halts whole readable empty cut =>
          refine Looks.trans ?_ (ih _ _)
          exact ⟨rfl, rfl, rfl, .refl _, id⟩
      | faults text fault => exact ⟨rfl, rfl, rfl, .refl _, fun _ => rfl⟩
      | waits readable empty whole => exact ⟨rfl, rfl, rfl, ⟨Or.inl rfl, rfl⟩, id⟩
      | _ => exact ⟨rfl, rfl, rfl, .refl _, id⟩

theorem looks (t : Ticket) (s : End) : Looks s (next t s).1 := looks_go _ _ _

/-! ## Receiving -/

/-- A receive has the reader or gets hold of it, and reads on at an end. -/
inductive Receiving.Goes (t : Ticket) (s : End) : Receiving → End → Prop
  | fresh (isOpen : s.closed.fired = false) (held : (s.readLock.acquire t).holder = some t) :
      Goes t s .fresh { s with readLock := s.readLock.acquire t }
  | locking (held : s.readLock.holder = some t) : Goes t s .locking s
  | reading : Goes t s .reading s

/-- To get hold of the reader touches nothing but its lock. -/
theorem Receiving.Goes.eq_with {op : Receiving} {s₁ : End} (h : op.Goes t s s₁) :
    s₁ = { s with readLock := s₁.readLock } := by
  cases h <;> rfl

/-- What a try to receive comes to. -/
inductive Received (t : Ticket) (op : Receiving) (s s' : End) :
    Progress Receiving (Except TransportError Bytes) → Prop
  /-- The end was closed before. -/
  | refused (fresh : op = .fresh) (fired : s.closed.fired = true) (same : s' = s) :
      Received t op s s' (.done (.error .closed))
  /-- Another task has the reader. -/
  | queued (first : op = .fresh ∨ op = .locking) (lock : Lock)
      (same : s' = { s with readLock := lock }) : Received t op s s' (.pending .locking)
  /-- A message has come. -/
  | takes (s₁ : End) (f : Frame) (goes : op.Goes t s s₁) (look : (next t s₁).2.2 = .frame f)
      (message : f.type = .message)
      (same : s' = ((next t s₁).1.unwatch t).releaseReader.1) :
      Received t op s s' (.done (.ok f.payload))
  /-- A close frame has come. -/
  | told (s₁ : End) (f : Frame) (goes : op.Goes t s s₁) (look : (next t s₁).2.2 = .frame f)
      (close : f.type = .close)
      (same : s' = ((next t s₁).1.unwatch t).releaseReader.1.markClosed.1) :
      Received t op s s' (.done (.error .closed))
  /-- The stream has ended. -/
  | ends (s₁ : End) (goes : op.Goes t s s₁) (look : (next t s₁).2.2 = .finished)
      (same : s' = ((next t s₁).1.unwatch t).releaseReader.1.markClosed.1) :
      Received t op s s' (.done (.error .closed))
  /-- What has come is no frame, or reading fails. -/
  | fails (s₁ : End) (e : StreamError) (goes : op.Goes t s s₁) (look : (next t s₁).2.2 = .failed e)
      (same : s' = ((next t s₁).1.unwatch t).releaseReader.1.markClosed.1) :
      Received t op s s' (.done (.error (.stream e)))
  /-- Nothing has come, and the end was closed meanwhile. -/
  | stopped (s₁ : End) (goes : op.Goes t s s₁) (look : (next t s₁).2.2 = .waits)
      (fired : s₁.closed.fired = true) (same : s' = ((next t s₁).1.unwatch t).releaseReader.1) :
      Received t op s s' (.done (.error .closed))
  /-- Nothing has come. -/
  | waits (s₁ : End) (goes : op.Goes t s s₁) (look : (next t s₁).2.2 = .waits)
      (isOpen : s₁.closed.fired = false) (same : s' = (next t s₁).1.watch t) :
      Received t op s s' (.pending .reading)

/-- But for the lock and the signal, a try to receive leaves its end as it was, or as the look for
the next frame leaves it. -/
theorem Received.eq_with {op : Receiving} {r : Progress Receiving (Except TransportError Bytes)}
    (h : Received t op s s' r) : s' = { s with readLock := s'.readLock } ∨
      ∃ s₁, op.Goes t s s₁ ∧
        s' = { (next t s₁).1 with closed := s'.closed, readLock := s'.readLock } := by
  cases h with
  | refused fresh fired same => exact Or.inl (same ▸ rfl)
  | queued first lock same => exact Or.inl (same ▸ rfl)
  | takes s₁ f goes look message same => exact Or.inr ⟨s₁, goes, same ▸ rfl⟩
  | told s₁ f goes look close same => exact Or.inr ⟨s₁, goes, same ▸ rfl⟩
  | ends s₁ goes look same => exact Or.inr ⟨s₁, goes, same ▸ rfl⟩
  | fails s₁ e goes look same => exact Or.inr ⟨s₁, goes, same ▸ rfl⟩
  | stopped s₁ goes look fired same => exact Or.inr ⟨s₁, goes, same ▸ rfl⟩
  | waits s₁ goes look isOpen same => exact Or.inr ⟨s₁, goes, same ▸ rfl⟩

/-- The rest of a try to receive that has the reader. -/
def recv.reading (t : Ticket) (s : End) : Try End Receiving (Except TransportError Bytes) :=
  match next t s with
  | (s, w, .frame f) =>
    match f.type with
    | .message => finish s w false (.ok f.payload)
    | .close => finish s w true (.error .closed)
  | (s, w, .failed e) => finish s w true (.error (.stream e))
  | (s, w, .finished) => finish s w true (.error .closed)
  | (s, w, .waits) =>
    if s.closed.fired then finish s w false (.error .closed)
    else .pending (s.watch t) .reading w
where
  /-- The receive is done, and closes the end if it has to. -/
  finish (s : End) (wakes : List Ticket) (close : Bool) (r : Except TransportError Bytes) :
      Try End Receiving (Except TransportError Bytes) :=
    let (s, w) := (s.unwatch t).releaseReader
    let (s, w') := if close then s.markClosed else (s, [])
    .done s r (wakes ++ w ++ w')

theorem received_reading {op : Receiving} {s₁ : End} (hgoes : op.Goes t s s₁) :
    Received t op s (recv.reading t s₁).state (recv.reading t s₁).progress := by
  have hclosed := (looks t s₁).closed
  unfold recv.reading
  cases hnext : next t s₁ with
  | mk s₂ x =>
      obtain ⟨w, r⟩ := x
      have hs₂ : (next t s₁).1 = s₂ := congrArg Prod.fst hnext
      have hr : (next t s₁).2.2 = r := congrArg (fun x => x.2.2) hnext
      subst hs₂
      cases r with
      | frame f =>
          dsimp only
          cases hf : f.type with
          | message => exact .takes s₁ f hgoes hr hf rfl
          | close => exact .told s₁ f hgoes hr hf rfl
      | failed e => exact .fails s₁ e hgoes hr rfl
      | finished => exact .ends s₁ hgoes hr rfl
      | waits =>
          dsimp only
          split
          · next hfired => exact .stopped s₁ hgoes hr (hclosed ▸ hfired) rfl
          · next hopen =>
              rw [Bool.not_eq_true, hclosed] at hopen
              exact .waits s₁ hgoes hr hopen rfl

/-- **What a try to receive comes to.** -/
theorem received (t : Ticket) (op : Receiving) (s : End) :
    Received t op s (recv t op s).state (recv t op s).progress := by
  cases op with
  | fresh =>
      unfold recv
      dsimp only
      split
      · next hfired => exact .refused rfl hfired rfl
      · next hopen =>
          rw [Bool.not_eq_true] at hopen
          split
          · next hheld => exact received_reading (.fresh hopen (Lock.heldBy_eq_true.mp hheld))
          · exact .queued (Or.inl rfl) _ rfl
  | locking =>
      unfold recv
      dsimp only
      split
      · next hheld => exact received_reading (.locking (Lock.heldBy_eq_true.mp hheld))
      · exact .queued (Or.inr rfl) s.readLock rfl
  | reading => exact received_reading .reading

/-- A receive has nothing to do with what its end writes. -/
theorem outgoing_recv (t : Ticket) (op : Receiving) (s : End) :
    (recv t op s).state.outgoing = s.outgoing := by
  rcases (received t op s).eq_with with h | ⟨s₁, goes, h⟩
  · rw [h]
    rfl
  · rw [h]
    refine (looks t s₁).rest.trans ?_
    rw [goes.eq_with]
    rfl

/-- What a try to receive takes of the octets `arrived`, of which the frames `taken` were taken
before. -/
inductive Took (op : Receiving) (s : End) (arrived : Bytes) (taken taken' : List Frame) :
    Progress Receiving (Except TransportError Bytes) → Prop
  /-- It waits. -/
  | nothing (op' : Receiving) (same : taken' = taken) : Took op s arrived taken taken' (.pending op')
  /-- It takes the next frame, which carries a message. -/
  | message (f : Frame) (type : f.type = .message) (one : taken' = taken ++ [f]) :
      Took op s arrived taken taken' (.done (.ok f.payload))
  /-- It takes the next frame, which says that the channel is closed. -/
  | close (f : Frame) (type : f.type = .close) (one : taken' = taken ++ [f]) :
      Took op s arrived taken taken' (.done (.error .closed))
  /-- There is nothing left to take. -/
  | all (same : taken' = taken) (all : (s.drain arrived).frames <+: taken) :
      Took op s arrived taken taken' (.done (.error .closed))
  /-- The end was closed when it came. -/
  | entry (fresh : op = .fresh) (fired : s.closed.fired = true) (same : taken' = taken) :
      Took op s arrived taken taken' (.done (.error .closed))
  /-- What has arrived is no frame. -/
  | broken (e : StreamError) (same : taken' = taken) :
      Took op s arrived taken taken' (.done (.error (.stream e)))

/-- **What a try to receive takes.** -/
theorem took {arrived : Bytes} {taken : List Frame} (h : Follows arrived taken s)
    (hfault : s.fault = none) (t : Ticket) (op : Receiving) :
    (recv t op s).state.fault = none ∧ ∃ taken', Follows arrived taken' (recv t op s).state ∧
      Took op s arrived taken taken' (recv t op s).progress := by
  have hlook {s₁ : End} (goes : op.Goes t s s₁) : (next t s₁).1.fault = none ∧
      (next t s₁).1.drain = s.drain ∧
      Found arrived taken (next t s₁).1 (next t s₁).2.2 := by
    have hlooks := looks t s₁
    have hlimits : (next t s₁).1.limits = s.limits := by
      refine (congrArg Outgoing.limits hlooks.rest).trans ?_
      rw [goes.eq_with]
      rfl
    have hnone : s₁.fault = none := by rw [goes.eq_with, hfault]
    have hfollows : Follows arrived taken s₁ := by
      rw [goes.eq_with]
      exact h.congr rfl rfl rfl rfl rfl rfl id
    refine ⟨hlooks.fault hnone, ?_, found hfollows hnone t⟩
    unfold End.drain
    rw [hlimits]
  have hreceived := received t op s
  generalize (recv t op s).state = s' at hreceived ⊢
  generalize (recv t op s).progress = r at hreceived ⊢
  cases hreceived with
  | refused fresh fired same =>
      subst same
      exact ⟨hfault, taken, h, .entry fresh fired rfl⟩
  | queued first lock same =>
      subst same
      exact ⟨hfault, taken, h.congr rfl rfl rfl rfl rfl rfl id, .nothing _ rfl⟩
  | takes s₁ f goes look message same =>
      obtain ⟨hnone, -, hfound⟩ := hlook goes
      rw [look] at hfound
      cases hfound with
      | frame f follows =>
          subst same
          exact ⟨hnone, _, follows.congr rfl rfl rfl rfl rfl rfl id, .message f message rfl⟩
  | told s₁ f goes look close same =>
      obtain ⟨hnone, -, hfound⟩ := hlook goes
      rw [look] at hfound
      cases hfound with
      | frame f follows =>
          subst same
          exact ⟨hnone, _, follows.congr rfl rfl rfl rfl rfl rfl id, .close f close rfl⟩
  | ends s₁ goes look same =>
      obtain ⟨hnone, hdrain, hfound⟩ := hlook goes
      rw [look] at hfound
      cases hfound with
      | finished follows all =>
          subst same
          exact ⟨hnone, taken, follows.congr rfl rfl rfl rfl rfl rfl id, .all rfl (hdrain ▸ all)⟩
  | fails s₁ e goes look same =>
      obtain ⟨hnone, -, hfound⟩ := hlook goes
      rw [look] at hfound
      cases hfound with
      | failed e follows =>
          subst same
          exact ⟨hnone, taken, follows.congr rfl rfl rfl rfl rfl rfl id, .broken e rfl⟩
  | stopped s₁ goes look fired same =>
      obtain ⟨hnone, hdrain, hfound⟩ := hlook goes
      rw [look] at hfound
      cases hfound with
      | waits follows all whole =>
          subst same
          exact ⟨hnone, taken, follows.congr rfl rfl rfl rfl rfl rfl id, .all rfl (hdrain ▸ all)⟩
  | waits s₁ goes look isOpen same =>
      obtain ⟨hnone, -, hfound⟩ := hlook goes
      rw [look] at hfound
      cases hfound with
      | waits follows all whole =>
          subst same
          exact ⟨hnone, taken, follows.congr rfl rfl rfl rfl rfl rfl id, .nothing _ rfl⟩

/-! ## The end of the stream -/

/-- An end that has taken all there was of a stream that has ended. -/
structure End.AtEnd (s : End) : Prop where
  content : s.inbound.content = []
  cut : s.inbound.cut = true
  input : s.input = []
  fault : s.fault = none

theorem next_of_atEnd (h : s.AtEnd) (t : Ticket) : (next t s).2.2 = .finished := by
  have hwait : Frame.decode s.limits.maxMessageSize [] = .waiting :=
    Frame.decode_of_short (by decide)
  have hread := Pipe.read_of_cut (t := t) h.content h.cut
  unfold next
  rw [h.content]
  show (next.go t 4 s []).2.2 = .finished
  cases hfailed : s.failed <;> cases hreadable : s.readable <;> cases hended : s.ended <;>
    simp [next.go, hfailed, hreadable, hended, h.input, h.fault, hread, hwait, Frame.decodeAtEnd]

/-- **At the end of its stream a receive is told so** and does not wait. -/
theorem recv_of_atEnd (h : s.AtEnd) (t : Ticket) {op : Receiving}
    (hop : op = .reading ∨ op = .fresh ∧ s.readLock.holder = none) :
    (recv t op s).progress = .done (.error .closed) := by
  have hreading {s : End} (h : s.AtEnd) :
      (recv.reading t s).progress = .done (.error .closed) := by
    have hlook := next_of_atEnd h t
    unfold recv.reading
    cases hnext : next t s with
    | mk s' x =>
        obtain ⟨w, r⟩ := x
        rw [hnext] at hlook
        cases hlook
        rfl
  rcases hop with rfl | ⟨rfl, hfree⟩
  · exact hreading h
  · unfold recv
    dsimp only
    split
    · rfl
    · have hheld : (s.readLock.acquire t).heldBy t = true := by
        unfold Lock.acquire
        rw [hfree]
        simp [Lock.heldBy]
      rw [if_pos hheld]
      exact hreading (s := { s with readLock := s.readLock.acquire t })
        ⟨h.content, h.cut, h.input, h.fault⟩

end Stream

end PeerRpc
