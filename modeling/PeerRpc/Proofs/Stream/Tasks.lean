import PeerRpc.Channel.Bench
import PeerRpc.Proofs.Stream.Reading

/-!
# PeerRpc.Proofs.Stream.Tasks -- the tasks of an end and its pipes

`Stream.Work` is what a task does at an end of a stream channel, whichever of the three operations
that is, and `Work.attempt` is one try of it. Two ends share their pipes, so what a task at one end
does to them happens to the other end too: `Stream.Uses` is what a try may do to the pipes of its own
end, and `Stream.Around` what may be done to them by others.
-/

namespace PeerRpc

namespace Progress

variable {ω Ω ρ R : Type}

/-- What an operation has come to, under other names. -/
def map (wrap : ω → Ω) (result : ρ → R) : Progress ω ρ → Progress Ω R
  | pending op => .pending (wrap op)
  | done r => .done (result r)

/-- The operation that waits. -/
def pending? : Progress ω ρ → Option ω
  | pending op => some op
  | done _ => none

/-- The result of an operation that is done. -/
def done? : Progress ω ρ → Option ρ
  | pending _ => none
  | done r => some r

@[simp] theorem pending?_map (wrap : ω → Ω) (result : ρ → R) (p : Progress ω ρ) :
    (p.map wrap result).pending? = p.pending?.map wrap := by cases p <;> rfl

@[simp] theorem done?_map (wrap : ω → Ω) (result : ρ → R) (p : Progress ω ρ) :
    (p.map wrap result).done? = p.done?.map result := by cases p <;> rfl

theorem pending?_eq_none {p : Progress ω ρ} : p.pending? = none ↔ p.done?.isSome = true := by
  cases p <;> simp [pending?, done?]

end Progress

/-- A try whose progress goes under other names. -/
def Try.map {χ ω Ω ρ R : Type} (wrap : ω → Ω) (result : ρ → R) (r : Try χ ω ρ) : Try χ Ω R :=
  ⟨r.state, r.wakes, r.progress.map wrap result⟩

namespace Stream

variable {t : Ticket} {e e' : End}

/-- Whether an end has octets to write and no room for them in its pipe. -/
def End.isStalled (e : End) : Bool :=
  !e.output.isEmpty && decide (e.outbound.capacity ≤ e.outbound.content.length)

theorem End.isStalled_iff : e.isStalled = true ↔
    e.output ≠ [] ∧ e.outbound.capacity ≤ e.outbound.content.length := by
  unfold End.isStalled
  rw [Bool.and_eq_true, decide_eq_true_eq, Bool.not_eq_true', List.isEmpty_eq_false_iff]

/-- What a task does at an end. -/
inductive Work where
  | send (op : Sending)
  | recv (op : Receiving)
  | close (op : Closing)

namespace Work

/-- One try of a task at the time `now`. -/
def attempt (now : Nat) (t : Ticket) (e : End) : Work → Try End Work Bench.Result
  | send op => (Stream.send t op e).map send fun r => r.map fun () => none
  | recv op => (Stream.recv t op e).map recv fun r => r.map some
  | close op => (Stream.close now t op e).map close fun () => .ok none

/-- What one more try of a task leaves of it. -/
def next? (now : Nat) (t : Ticket) (e : End) (w : Work) : Option Work :=
  (w.attempt now t e).progress.pending?

@[simp] theorem next?_send (now : Nat) (t : Ticket) (e : End) (op : Sending) :
    (send op).next? now t e = (Stream.send t op e).progress.pending?.map send :=
  Progress.pending?_map _ _ _

@[simp] theorem next?_recv (now : Nat) (t : Ticket) (e : End) (op : Receiving) :
    (recv op).next? now t e = (Stream.recv t op e).progress.pending?.map recv :=
  Progress.pending?_map _ _ _

@[simp] theorem next?_close (now : Nat) (t : Ticket) (e : End) (op : Closing) :
    (close op).next? now t e = (Stream.close now t op e).progress.pending?.map close :=
  Progress.pending?_map _ _ _

/-- What a task came to with one more try, if it is done. -/
def result? (now : Nat) (t : Ticket) (e : End) (w : Work) : Option Bench.Result :=
  (w.attempt now t e).progress.done?

@[simp] theorem result?_send (now : Nat) (t : Ticket) (e : End) (op : Sending) :
    (send op).result? now t e =
      (Stream.send t op e).progress.done?.map fun r => r.map fun () => none :=
  Progress.done?_map _ _ _

@[simp] theorem result?_recv (now : Nat) (t : Ticket) (e : End) (op : Receiving) :
    (recv op).result? now t e = (Stream.recv t op e).progress.done?.map fun r => r.map some :=
  Progress.done?_map _ _ _

@[simp] theorem result?_close (now : Nat) (t : Ticket) (e : End) (op : Closing) :
    (close op).result? now t e =
      (Stream.close now t op e).progress.done?.map fun () => .ok none :=
  Progress.done?_map _ _ _

/-- Either a task goes on or it is done. -/
theorem next?_eq_none {now : Nat} {t : Ticket} {e : End} {w : Work} :
    w.next? now t e = none ↔ (w.result? now t e).isSome = true := Progress.pending?_eq_none

/-- Takes a task back. -/
def abandon (t : Ticket) (e : End) : Work → End × List Ticket
  | recv _ => abandonRecv t e
  | _ => abandonWrite t e

/-- Whether a task gets the writer at its turn. -/
def obtains (t : Ticket) (e : End) : Work → Bool
  | send op => op.obtains t e
  | recv _ => false
  | close op => op.obtains t e

/-- Whether a task finds the end open at its turn and closes it. -/
def marks (e : End) : Work → Bool
  | close op => op.marks e
  | _ => false

end Work

/-! ## Using the pipes -/

/-- What an end has to do with its pipes. -/
structure Pipes where
  limits : ChannelLimits
  inbound : Pipe
  outbound : Pipe
  fault : Option String

def End.pipes (e : End) : Pipes := ⟨e.limits, e.inbound, e.outbound, e.fault⟩

/-- What is done to the pipes of an end by those who use it. -/
structure Uses (e e' : End) (moved : Bytes) : Prop where
  limits : e'.limits = e.limits
  inbound : e.inbound.Drained e'.inbound
  outbound : e.outbound.Fed e'.outbound moved
  fault : e.fault = none → e'.fault = none

theorem Uses.refl (e : End) : Uses e e [] := ⟨rfl, .refl _, .refl _, id⟩

/-- Neither locks nor signal nor buffers matter. -/
theorem Uses.congr {e₁ e₂ : End} {moved : Bytes} (h : Uses e₁ e₂ moved)
    (before : e₁.pipes = e.pipes) (after : e'.pipes = e₂.pipes) : Uses e e' moved where
  limits := (congrArg Pipes.limits after).trans
    (h.limits.trans (congrArg Pipes.limits before))
  inbound := by
    have hbefore : e₁.inbound = e.inbound := congrArg Pipes.inbound before
    have hafter : e'.inbound = e₂.inbound := congrArg Pipes.inbound after
    rw [hafter, ← hbefore]
    exact h.inbound
  outbound := by
    have hbefore : e₁.outbound = e.outbound := congrArg Pipes.outbound before
    have hafter : e'.outbound = e₂.outbound := congrArg Pipes.outbound after
    rw [hafter, ← hbefore]
    exact h.outbound
  fault hnone := by
    have hbefore : e₁.fault = e.fault := congrArg Pipes.fault before
    have hafter : e'.fault = e₂.fault := congrArg Pipes.fault after
    rw [hafter]
    exact h.fault (hbefore.trans hnone)

theorem Moves.uses {added moved : Bytes} (h : Moves e e' added moved) : Uses e e' moved := by
  have hlimits : e'.limits = e.limits := congrArg Incoming.limits h.rest
  have hin : e'.inbound = e.inbound := congrArg Incoming.pipe h.rest
  have hfault : e'.fault = e.fault := congrArg Incoming.fault h.rest
  exact ⟨hlimits, hin ▸ .refl _, h.pipe, hfault.trans⟩

theorem Looks.uses (h : Looks e e') : Uses e e' [] := by
  have hlimits : e'.limits = e.limits := congrArg Outgoing.limits h.rest
  have hout : e'.outbound = e.outbound := congrArg Outgoing.pipe h.rest
  exact ⟨hlimits, h.pipe, hout ▸ .refl _, h.fault⟩

theorem uses_send (t : Ticket) (op : Sending) (e : End) :
    ∃ moved, Uses e (send t op e).state moved := by
  have hgoes {op' : Writing} {e₁ : End} (h : op.Goes t e op' e₁) : e₁.pipes = e.pipes := by
    rw [h.eq_with]
    rfl
  have hsent := sent t op e
  generalize (send t op e).state = e' at hsent ⊢
  generalize (send t op e).progress = r at hsent
  cases hsent with
  | refused msg fresh never same err => exact ⟨[], same ▸ .refl e⟩
  | queued msg first later lock holder same => exact ⟨[], (Uses.refl e).congr rfl (same ▸ rfl)⟩
  | stopped op' e₁ goes fired same => exact ⟨[], (Uses.refl e₁).congr (hgoes goes) (same ▸ rfl)⟩
  | writes op' op'' e₁ e₂ goes isOpen wrote same =>
      obtain ⟨added, moved, moves⟩ := wrote.moves
      exact ⟨moved, moves.uses.congr (hgoes goes) (same ▸ rfl)⟩
  | delivers op' e₁ e₂ goes isOpen wrote same =>
      obtain ⟨added, moved, moves⟩ := wrote.moves
      exact ⟨moved, moves.uses.congr (hgoes goes) (same ▸ rfl)⟩
  | fails op' e₁ e₂ err goes isOpen wrote same =>
      obtain ⟨added, moved, moves⟩ := wrote.moves
      exact ⟨moved, moves.uses.congr (hgoes goes) (same ▸ rfl)⟩

theorem uses_recv (t : Ticket) (op : Receiving) (e : End) : Uses e (recv t op e).state [] := by
  rcases (received t op e).eq_with with h | ⟨e₁, goes, h⟩
  · refine (Uses.refl e).congr rfl ?_
    rw [h]
    rfl
  · refine (looks t e₁).uses.congr ?_ ?_
    · rw [goes.eq_with]
      rfl
    · rw [h]
      rfl

theorem uses_close (now : Nat) (t : Ticket) (op : Closing) (e : End) :
    ∃ moved, Uses e (close now t op e).state moved := by
  have hgoes {op' : Writing} {deadline : Nat} {e₁ : End} (h : op.Goes now t e op' deadline e₁) :
      e₁.pipes = e.pipes := by
    rw [h.eq_with]
    rfl
  have hcloses := closes now t op e
  generalize (close now t op e).state = e' at hcloses ⊢
  generalize (close now t op e).progress = r at hcloses
  cases hcloses with
  | already fresh fired same => exact ⟨[], same ▸ .refl e⟩
  | queued closed lock holder later first same =>
      exact ⟨[], (Uses.refl e).congr rfl (same ▸ rfl)⟩
  | writes op' op'' deadline e₁ goes wrote early =>
      obtain ⟨added, moved, moves⟩ := wrote.moves
      exact ⟨moved, moves.uses.congr (hgoes goes) rfl⟩
  | givesUp op' op'' deadline e₁ e₂ goes wrote late same =>
      obtain ⟨added, moved, moves⟩ := wrote.moves
      exact ⟨moved, moves.uses.congr (hgoes goes) (same ▸ rfl)⟩
  | ends op' deadline e₁ e₂ r goes wrote same =>
      obtain ⟨added, moved, moves⟩ := wrote.moves
      exact ⟨moved, moves.uses.congr (hgoes goes) (same ▸ rfl)⟩

/-- **What a try does to the pipes of its end**: octets go to the one and come from the other. -/
theorem uses_attempt (now : Nat) (t : Ticket) (e : End) (w : Work) :
    ∃ moved, Uses e (w.attempt now t e).state moved := by
  cases w with
  | send op => exact uses_send t op e
  | recv op => exact ⟨[], uses_recv t op e⟩
  | close op => exact uses_close now t op e

theorem uses_abandon (t : Ticket) (e : End) (w : Work) : Uses e (w.abandon t e).1 [] := by
  cases w <;> exact (Uses.refl e).congr rfl rfl

/-! ## The signal -/

theorem fired_wait (l : Latch) (t : Ticket) : (l.wait t).fired = l.fired := by
  unfold Latch.wait
  split <;> rfl

theorem fired_send (t : Ticket) (op : Sending) {e : End} (h : e.closed.fired = true) :
    (send t op e).state.closed.fired = true := by
  have hsent := sent t op e
  generalize (send t op e).state = e' at hsent ⊢
  generalize (send t op e).progress = r at hsent
  cases hsent with
  | refused msg fresh never same err => rw [same, h]
  | queued msg first later lock holder same =>
      rw [same]
      exact h
  | stopped op' e₁ goes fired same =>
      rw [same]
      exact (congrArg Latch.fired goes.closed).trans h
  -- a send that writes finds the end open
  | writes op' op'' e₁ e₂ goes isOpen wrote same => exact absurd h (by rw [isOpen]; exact nofun)
  | delivers op' e₁ e₂ goes isOpen wrote same => exact absurd h (by rw [isOpen]; exact nofun)
  | fails op' e₁ e₂ err goes isOpen wrote same => exact absurd h (by rw [isOpen]; exact nofun)

theorem fired_recv (t : Ticket) (op : Receiving) {e : End} (h : e.closed.fired = true) :
    (recv t op e).state.closed.fired = true := by
  have hnext {e₁ : End} (hgoes : op.Goes t e e₁) : (next t e₁).1.closed.fired = true := by
    rw [(looks t e₁).closed, hgoes.eq_with]
    exact h
  have hreceived := received t op e
  generalize (recv t op e).state = e' at hreceived ⊢
  generalize (recv t op e).progress = r at hreceived
  cases hreceived with
  | refused fresh fired same => rw [same, h]
  | queued first lock same =>
      rw [same]
      exact h
  | takes e₁ f goes look message same =>
      rw [same]
      exact hnext goes
  | told e₁ f goes look close same =>
      rw [same]
      rfl
  | ends e₁ goes look same =>
      rw [same]
      rfl
  | fails e₁ err goes look same =>
      rw [same]
      rfl
  | stopped e₁ goes look fired same =>
      rw [same]
      exact hnext goes
  | waits e₁ goes look isOpen same =>
      rw [same]
      exact (fired_wait _ t).trans (hnext goes)

/-- After any turn of a close, the end is closed. -/
theorem fired_close (now : Nat) (t : Ticket) (op : Closing) {e : End}
    (h : op ≠ .fresh → e.closed.fired = true) :
    (close now t op e).state.closed.fired = true := by
  have hgoes {op' : Writing} {deadline : Nat} {e₁ : End} (hgoes : op.Goes now t e op' deadline e₁) :
      e₁.closed.fired = true := by
    cases hgoes with
    | fresh isOpen held => rfl
    | locking held => exact h nofun
    | writing op deadline => exact h nofun
  have hcloses := closes now t op e
  generalize (close now t op e).state = e' at hcloses ⊢
  generalize (close now t op e).progress = r at hcloses
  cases hcloses with
  | already fresh fired same => rw [same, fired]
  | queued closed lock holder later first same =>
      rw [same]
      rcases first with ⟨-, -, hfired⟩ | ⟨rfl, rfl⟩
      · exact hfired
      · exact h nofun
  | writes op' op'' deadline e₁ goes wrote early =>
      exact (congrArg Latch.fired wrote.closed).trans (hgoes goes)
  | givesUp op' op'' deadline e₁ e₂ goes wrote late same =>
      rw [same]
      exact (congrArg Latch.fired wrote.closed).trans (hgoes goes)
  | ends op' deadline e₁ e₂ r goes wrote same =>
      rw [same]
      exact (congrArg Latch.fired wrote.closed).trans (hgoes goes)

/-- **An end stays closed.** -/
theorem fired_attempt (now : Nat) (t : Ticket) (w : Work) (h : e.closed.fired = true) :
    (w.attempt now t e).state.closed.fired = true := by
  cases w with
  | send op => exact fired_send t op h
  | recv op => exact fired_recv t op h
  | close op => exact fired_close now t op fun _ => h

/-- A task that finds its end open and closes it is a close at its first turn. -/
theorem marks_iff {w : Work} :
    w.marks e = true ↔ w = .close .fresh ∧ e.closed.fired = false := by
  cases w with
  | send op => exact ⟨nofun, fun h => nomatch h.1⟩
  | recv op => exact ⟨nofun, fun h => nomatch h.1⟩
  | close op =>
      cases op with
      | fresh =>
          show (!e.closed.fired) = true ↔ _
          rw [Bool.not_eq_true']
          exact ⟨fun h => ⟨rfl, h⟩, And.right⟩
      | locking => exact ⟨nofun, fun h => nomatch h.1⟩
      | writing op deadline => exact ⟨nofun, fun h => nomatch h.1⟩

/-- A close that goes on has found its end open, now or before. -/
theorem next?_eq_close {now : Nat} {w : Work} {op : Closing}
    (h : w.next? now t e = some (.close op)) :
    op ≠ .fresh ∧ (w.marks e = true ∨ ∃ op', w = .close op' ∧ op' ≠ .fresh) := by
  cases w with
  | send op' =>
      rw [Work.next?_send] at h
      obtain ⟨_, -, hno⟩ := Option.map_eq_some_iff.mp h
      cases hno
  | recv op' =>
      rw [Work.next?_recv] at h
      obtain ⟨_, -, hno⟩ := Option.map_eq_some_iff.mp h
      cases hno
  | close op' =>
      have hmarks (isOpen : e.closed.fired = false) :
          (Work.close op').marks e = true ∨ ∃ op'', Work.close op' = .close op'' ∧ op'' ≠ .fresh := by
        cases op' with
        | fresh => exact Or.inl (marks_iff.mpr ⟨rfl, isOpen⟩)
        | locking => exact Or.inr ⟨_, rfl, nofun⟩
        | writing op deadline => exact Or.inr ⟨_, rfl, nofun⟩
      rw [Work.next?_close] at h
      have hcloses := closes now t op' e
      generalize (close now t op' e).state = e' at hcloses
      generalize (close now t op' e).progress = r at hcloses h
      cases hcloses with
      | already fresh fired same => cases h
      | queued closed lock holder later first same =>
          cases h
          rcases first with ⟨-, isOpen, -⟩ | ⟨rfl, -⟩
          · exact ⟨nofun, hmarks isOpen⟩
          · exact ⟨nofun, Or.inr ⟨_, rfl, nofun⟩⟩
      | writes op₁ op₂ deadline e₁ goes wrote early =>
          cases h
          refine ⟨nofun, ?_⟩
          cases goes with
          | fresh isOpen held => exact hmarks isOpen
          | locking held => exact Or.inr ⟨_, rfl, nofun⟩
          | writing op deadline => exact Or.inr ⟨_, rfl, nofun⟩
      | givesUp op₁ op₂ deadline e₁ e₂ goes wrote late same => cases h
      | ends op₁ deadline e₁ e₂ r goes wrote same => cases h

/-! ## Others at the pipes -/

/-- What is done to the pipes of an end by others, who put the octets `arrived` into the inbound
pipe and take octets out of the outbound pipe. -/
structure Around (e e' : End) (arrived : Bytes) : Prop where
  same : e' = { e with inbound := e'.inbound, outbound := e'.outbound }
  inbound : e.inbound.Fed e'.inbound arrived
  outbound : ∃ n, e'.outbound.content = e.outbound.content.drop n
  cut : e'.outbound.cut = e.outbound.cut

theorem Around.refl (e : End) : Around e e [] := ⟨rfl, .refl _, ⟨0, rfl⟩, rfl⟩

/-- The other end of two that share their pipes uses them. -/
theorem Uses.around {moved : Bytes} {f f' : End} (h : Uses f f' moved)
    (hin : e.inbound = f.outbound) (hout : e.outbound = f.inbound) :
    Around e { e with inbound := f'.outbound, outbound := f'.inbound } moved where
  same := rfl
  inbound := hin ▸ h.outbound
  outbound := by
    rw [hout]
    rcases h.inbound.content with hsame | hnil
    · exact ⟨0, hsame⟩
    · exact ⟨f.inbound.content.length, hnil.trans List.drop_length.symm⟩
  cut := hout ▸ h.inbound.cut

end Stream

end PeerRpc
