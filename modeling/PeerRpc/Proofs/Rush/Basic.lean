import PeerRpc.Proofs.Crowd.Discipline
import PeerRpc.Proofs.Duo.Order

/-!
# PeerRpc.Proofs.Rush.Basic -- two endpoints on a pair at which starts overlap

A `Rush` is a duo with a crowd at each of its endpoints. Its moves are those of the duo, of which no
one starts a call or a notification, and the beginnings and steps of starts at either side, in any
order.

Each side of a rush is a crowd that can be reached (`Rush.exists_run`), and its pair keeps the order
of messages like that of a duo (`Rush.ordered`), since a step of a start has nothing to do with what
is on the way.
-/

namespace PeerRpc

variable {η : Type}

/-- Two endpoints on a pair, with the starts at each of them. -/
structure Rush (η : Type) where
  duo : Duo η
  starts : Side → List Start := fun _ => []

/-- What can be done next. -/
inductive Stir (η : Type) where
  | move (m : Move η)
  /-- Somebody at a side begins to start a call or a notification. -/
  | start (s : Side) (o : Opening)
  /-- A start at a side takes its next step. -/
  | advance (s : Side) (t : Nat) (gone : Bool)

namespace Rush

/-- Endpoints that have just been opened on a new pair. -/
def ofConfigs (l : ChannelLimits) (c : Side → Config) : Rush η := { duo := .ofConfigs l c }

/-- The crowd at a side. -/
def crowd (r : Rush η) (s : Side) : Crowd η where
  chronicle := (r.duo.desk s).chronicle
  starts := r.starts s

/-- The rush with another crowd at a side. -/
def put (r : Rush η) (s : Side) (x : Crowd η) : Rush η where
  duo := r.duo.put s r.duo.pair { r.duo.desk s with chronicle := x.chronicle }
  starts s' := if s' = s then x.starts else r.starts s'

/-- Whether a move can be made. -/
def allows (r : Rush η) : Move η → Bool
  | .op s o => (r.crowd s).allows (.op o)
  | _ => true

theorem crowd_put (r : Rush η) (s : Side) (x : Crowd η) : (r.put s x).crowd s = x := by
  simp [crowd, put]

theorem crowd_put_ne (r : Rush η) {s s' : Side} (h : s' ≠ s) (x : Crowd η) :
    (r.put s x).crowd s' = r.crowd s' := by
  simp [crowd, put, Duo.desk_put_ne _ h, h]

variable [Handler η]

/-- Does one thing. -/
def stir (r : Rush η) : Stir η → Rush η
  | .move m => if r.allows m then { r with duo := r.duo.move m } else r
  | .start s o => r.put s ((r.crowd s).start o)
  | .advance s t gone => r.put s ((r.crowd s).advance t gone)

/-- Does some things. -/
def run (stirs : List (Stir η)) (r : Rush η) : Rush η := stirs.foldl stir r

@[simp] theorem run_nil (r : Rush η) : r.run [] = r := rfl

theorem run_concat (stirs : List (Stir η)) (a : Stir η) (r : Rush η) :
    r.run (stirs ++ [a]) = (r.run stirs).stir a := by
  simp only [run, List.foldl_append, List.foldl_cons, List.foldl_nil]

end Rush

/-! ## What a move does at an endpoint -/

namespace Duo

variable [Handler η]

/-- What becomes of a chronicle by a move: it stays, or one more act is taken, which is what is done
at its endpoint or an act of one of the loops. -/
inductive Marks (x : Chronicle η) (s : Side) (m : Move η) : Chronicle η → Prop
  | same : Marks x s m x
  | op (o : Op η) (move : m = .op s o) : Marks x s m (x.act (.op o))
  | loop (a : Act η) (opens : a.opens = false) (names : a.names? = none) : Marks x s m (x.act a)

variable {d : Duo η} {s s' : Side} {m : Move η}

omit [Handler η] in
theorem chronicle_put_ne (h : s' ≠ s) (p : Memory.Pair) (k : Desk η) :
    ((d.put s p k).desk s').chronicle = (d.desk s').chronicle := by
  rw [d.desk_put_ne h]

/-- What one side does leaves the chronicle of the other side alone. -/
theorem marks_put (d : Duo η) {p : Memory.Pair} {k : Desk η}
    (h : Marks (d.desk s).chronicle s m k.chronicle) (s' : Side) :
    Marks (d.desk s').chronicle s' m ((d.put s p k).desk s').chronicle := by
  by_cases hs : s' = s
  · subst hs
    rw [desk_put]
    exact h
  · rw [chronicle_put_ne hs]
    exact .same

theorem marks_read (d : Duo η) (s s' : Side) :
    Marks (d.desk s').chronicle s' m ((d.read s).desk s').chronicle := by
  have hturn := d.readTurn s
  generalize d.read s = d' at hturn
  cases hturn with
  | ended => exact .same
  | hangsUp | stops | waits =>
      refine d.marks_put ?_ s'
      exact .same
  | fails => exact d.marks_put (.loop (.op .close) rfl rfl) s'
  | receives => exact d.marks_put (.loop (.receive _) rfl rfl) s'

theorem marks_write (d : Duo η) (s s' : Side) :
    Marks (d.desk s').chronicle s' m ((d.write s).desk s').chronicle := by
  unfold Duo.write
  dsimp only
  split
  · split
    · exact d.marks_put (.loop .take rfl rfl) s'
    · split
      · exact .same
      · refine d.marks_put ?_ s'
        exact .same
  · split
    · refine d.marks_put ?_ s'
      exact .same
    · exact d.marks_put (.loop (.sent (.ok ())) rfl rfl) s'
    · exact d.marks_put (.loop (.sent (.error _)) rfl rfl) s'
  · exact .same

/-- **A move is at most one act at each endpoint.** -/
theorem marks_move (d : Duo η) (m : Move η) (s : Side) :
    Marks (d.desk s).chronicle s m ((d.move m).desk s).chronicle := by
  cases m with
  | op s' o =>
      by_cases hs : s = s'
      · subst hs
        simp only [move, desk_put]
        exact .op o rfl
      · simp only [move, d.desk_put_ne hs]
        exact .same
  | read s' => exact d.marks_read s' s
  | write s' => exact d.marks_write s' s
  | shut s' =>
      simp only [move]
      split <;> exact .same
  | release s' =>
      simp only [move]
      split <;> exact .same

end Duo

/-! ## What a start leaves alone -/

namespace Crowd

/-- A crowd whose acts, messages under way and end are those of another. -/
structure Abides (x y : Crowd η) : Prop where
  past : y.chronicle.past = x.chronicle.past
  sending : y.host.sending = x.host.sending
  isOpen : y.host.endpoint.isOpen = x.host.endpoint.isOpen
  runs : y.host.endpoint.runs = x.host.endpoint.runs

variable {x y : Crowd η}

theorem abides_start (x : Crowd η) (o : Opening) : x.Abides (x.start o) := by
  have hbegins := x.begins_start o
  generalize x.start o = y at hbegins
  cases hbegins <;> exact ⟨rfl, rfl, rfl, rfl⟩

theorem abides_advance (x : Crowd η) (t : Nat) (gone : Bool) : x.Abides (x.advance t gone) := by
  cases hst : x.starts[t]? with
  | none =>
      rw [advance_of_none hst]
      exact ⟨rfl, rfl, rfl, rfl⟩
  | some s =>
      have hrest := Endpoint.rest_of_advance (x.host.endpoint.advance_cases gone s)
      rw [advance_of_some hst]
      refine ⟨rfl, rfl, ?_, ?_⟩
      · show (x.host.endpoint.advance gone s).1.1.isOpen = _
        rw [hrest]
      · show (x.host.endpoint.advance gone s).1.1.runs = _
        rw [hrest]

/-- Starts keep what is about acts, messages under way and the end only. -/
theorem Abides.run_induction [Handler η] {P : Crowd η → Prop} {c : Config} (h₀ : P (ofConfig c))
    (habides : ∀ {x y : Crowd η}, x.Abides y → P x → P y)
    (hact : ∀ (x : Crowd η) (a : Act η), P x → P { x with chronicle := x.chronicle.act a })
    (strides : List (Stride η)) : P ((ofConfig c).run strides) :=
  Crowd.run_induction h₀ (fun x a hx => stride_cases hx (fun a _ => hact x a hx)
    (fun o => habides (x.abides_start o) hx) (fun t gone => habides (x.abides_advance t gone) hx) a)
    strides

end Crowd

namespace Duo

variable {limit : Nat} {s : Side} {k : Desk η} {q : Memory.Queue} {x : Chronicle η}

theorem Desk.unsent_of_sending (hs : x.host.sending = k.host.sending) :
    Desk.unsent { k with chronicle := x } = k.unsent := by
  unfold Desk.unsent Desk.host at *
  rw [hs]

/-- A start has nothing to do with what is on the way. -/
theorem Tied.renew {fired : Bool} {y : Chronicle η} {flight : List Outbound}
    (h : Tied limit s k q fired y flight) (hs : x.host.sending = k.host.sending)
    (hopen : x.host.endpoint.isOpen = k.host.endpoint.isOpen) :
    Tied limit s { k with chronicle := x } q fired x flight := by
  obtain ⟨rfl, hflight, hreading, hung, hwriting, hsenders, hsmall, hcut⟩ := h
  refine ⟨rfl, ?_, fun hr => hopen.trans (hreading hr), hung, ?_, hsenders, hsmall, hcut⟩
  · rw [Desk.unsent_of_sending hs]
    exact hflight
  · unfold Desk.Writes Desk.host at *
    rw [hs, hopen]
    exact hwriting

theorem Linked.renew {l : ChannelLimits} {d : Duo η} {w : Wire η} (h : Linked l d w) (s : Side)
    (hs : x.host.sending = (d.host s).sending)
    (hopen : x.host.endpoint.isOpen = (d.host s).endpoint.isOpen) :
    ∃ w', Linked l (d.put s d.pair { d.desk s with chronicle := x }) w' := by
  refine ⟨{ w with chronicle := Function.update w.chronicle s x }, .put h.limits ?_ ?_ ?_⟩
  · dsimp only
    rw [Function.update_self]
    exact (h.tied s).renew hs hopen
  · dsimp only
    rw [Function.update_of_ne (Wire.opposite_ne s)]
    exact h.tied s.opposite
  · intro hfired hup
    refine h.broken hfired fun s' => ?_
    have hup' := hup s'
    unfold Wire.host at hup' ⊢
    by_cases hs' : s' = s
    · subst hs'
      rw [(h.tied s').chronicle]
      refine hopen.symm.trans ?_
      simpa using hup'
    · simpa [Function.update_of_ne hs'] using hup'

theorem Ordered.renew {l : ChannelLimits} {d : Duo η} (h : Ordered l d) (s : Side)
    (hs : x.host.sending = (d.host s).sending) (hpast : x.past = (d.desk s).chronicle.past) :
    Ordered l (d.put s d.pair { d.desk s with chronicle := x }) := by
  have hsent : x.entrusted = (d.desk s).chronicle.entrusted := by
    rw [Chronicle.entrusted, hpast]
    rfl
  have hframes : x.frames = (d.desk s).chronicle.frames := by
    rw [Chronicle.frames, hpast]
    rfl
  refine h.put_write rfl hframes ((h s).same ?_ hsent id)
  rw [underway, Desk.unsent_of_sending hs]
  rfl

end Duo

/-! ## Every rush -/

namespace Rush

variable [Handler η] {l : ChannelLimits} {c : Side → Config}

/-- **Each side of a rush is a crowd that can be reached.** -/
theorem exists_run (l : ChannelLimits) (c : Side → Config) (stirs : List (Stir η)) (s : Side) :
    ∃ strides, ((ofConfigs l c).run stirs).crowd s = (Crowd.ofConfig (c s)).run strides := by
  induction stirs using List.reverseRecOn with
  | nil => exact ⟨[], rfl⟩
  | append_singleton stirs a ih =>
      obtain ⟨strides, hx⟩ := ih
      rw [run_concat]
      generalize (ofConfigs l c).run stirs = r at hx
      -- one more stride, or none
      have hput {s' : Side} {y : Crowd η} {b : Stride η}
          (hy : s' = s → y = (r.crowd s).stride b) :
          ∃ strides, (r.put s' y).crowd s = (Crowd.ofConfig (c s)).run strides := by
        by_cases hs : s' = s
        · subst hs
          exact ⟨strides ++ [b], by rw [crowd_put, hy rfl, hx, Crowd.run_concat]⟩
        · exact ⟨strides, by rw [crowd_put_ne _ (Ne.symm hs), hx]⟩
      cases a with
      | start s' o =>
          refine hput (b := .start o) ?_
          rintro rfl
          rfl
      | advance s' t gone =>
          refine hput (b := .advance t gone) ?_
          rintro rfl
          rfl
      | move m =>
          simp only [stir]
          split
          · next hallows =>
              have hmarks := r.duo.marks_move m s
              have hcrowd : ({ r with duo := r.duo.move m } : Rush η).crowd s =
                  { r.crowd s with chronicle := ((r.duo.move m).desk s).chronicle } := rfl
              rw [hcrowd]
              generalize ((r.duo.move m).desk s).chronicle = y at hmarks
              have hact {a : Act η} (ha : (r.crowd s).allows a = true) :
                  ({ r.crowd s with chronicle := (r.duo.desk s).chronicle.act a } : Crowd η) =
                    (r.crowd s).stride (.act a) := (if_pos ha).symm
              cases hmarks with
              | same => exact ⟨strides, hx⟩
              | op o move =>
                  subst move
                  exact ⟨strides ++ [.act (.op o)], by rw [hact hallows, hx, Crowd.run_concat]⟩
              | loop a opens names =>
                  have ha : (r.crowd s).allows a = true := by simp [Crowd.allows, opens, names]
                  exact ⟨strides ++ [.act a], by rw [hact ha, hx, Crowd.run_concat]⟩
          · exact ⟨strides, hx⟩

/-- **The pair of a rush keeps the order of messages**, whatever its queues and its schedule. -/
theorem ordered (l : ChannelLimits) (c : Side → Config) (stirs : List (Stir η)) :
    Duo.Ordered l ((ofConfigs l c).run stirs).duo ∧
      ∃ w, Duo.Linked l ((ofConfigs l c).run stirs).duo w := by
  induction stirs using List.reverseRecOn with
  | nil => exact ⟨Duo.ordered_ofConfigs l c, _, Duo.linked_ofConfigs l c⟩
  | append_singleton stirs a ih =>
      obtain ⟨h, w, hw⟩ := ih
      rw [run_concat]
      generalize (ofConfigs l c).run stirs = r at h hw
      cases a with
      | start s o =>
          have habides := (r.crowd s).abides_start o
          exact ⟨h.renew s habides.sending habides.past, hw.renew s habides.sending habides.isOpen⟩
      | advance s t gone =>
          have habides := (r.crowd s).abides_advance t gone
          exact ⟨h.renew s habides.sending habides.past, hw.renew s habides.sending habides.isOpen⟩
      | move m =>
          simp only [stir]
          split
          · obtain ⟨w', -, hw'⟩ : ∃ w', Wire.Steps l.maxMessageSize (fun _ => True) _ w' ∧
                Duo.Linked l (r.duo.move m) w' := hw.move trivial m.meets_true
            exact ⟨h.move hw m, w', hw'⟩
          · exact ⟨h, w, hw⟩

end Rush

end PeerRpc
