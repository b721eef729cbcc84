import Mathlib.Logic.Function.Basic
import Mathlib.Logic.Relation
import PeerRpc.Proofs.Host.Exchange

/-!
# PeerRpc.Proofs.Wire.Basic -- two endpoints and what is on the way between them

A `Wire` joins two endpoints by two lines. Messages arrive in the order in which they were sent, and
one that is longer than the limit is refused. Once an endpoint has closed messages may be lost, and
writers may find the lines broken. This is all that the endpoints can notice of a channel, so what
holds of every wire that can be reached holds of endpoints on a channel, whatever its queues look
like.

`Wire.road` is everything that is on the way from a side, whether it has been sent or still waits to
be. `Wire.Turn` is what the steps between open endpoints have in common: one of them acts, and a
message goes from the front of one road or from the end of a line.
-/

namespace PeerRpc

variable {η : Type}

/-- Two endpoints with the messages that travel between them. -/
structure Wire (η : Type) where
  chronicle : Side → Chronicle η
  /-- The messages that travel from a side, the first to arrive first. The last one may be a message
  that has not been answered to. -/
  flight : Side → List Outbound

namespace Wire

/-- The endpoint of a side with its surroundings. -/
def host (w : Wire η) (s : Side) : Host η := (w.chronicle s).host

/-- Everything that is on the way from a side. -/
def road (w : Wire η) (s : Side) : List Outbound := w.flight s ++ (w.host s).endpoint.outbound

/-- Whether both endpoints are open. -/
def Up (w : Wire η) : Prop := ∀ s, (w.host s).endpoint.isOpen = true

/-- The wire with other messages that travel from a side. -/
def setFlight (w : Wire η) (s : Side) (fl : List Outbound) : Wire η :=
  { w with flight := Function.update w.flight s fl }

/-- Two endpoints that have just been opened. -/
def ofConfigs (c : Side → Config) : Wire η where
  chronicle s := .ofConfig (c s)
  flight _ := []

@[simp] theorem host_setFlight (w : Wire η) (s s' : Side) (fl : List Outbound) :
    (w.setFlight s fl).host s' = w.host s' := rfl

@[simp] theorem chronicle_setFlight (w : Wire η) (s s' : Side) (fl : List Outbound) :
    (w.setFlight s fl).chronicle s' = w.chronicle s' := rfl

@[simp] theorem flight_setFlight_same (w : Wire η) (s : Side) (fl : List Outbound) :
    (w.setFlight s fl).flight s = fl := Function.update_self ..

theorem flight_setFlight_ne (w : Wire η) {s s' : Side} (h : s' ≠ s) (fl : List Outbound) :
    (w.setFlight s fl).flight s' = w.flight s' := Function.update_of_ne h ..

variable [Handler η]

/-- The wire after an act at one endpoint. -/
def act (w : Wire η) (s : Side) (a : Act η) : Wire η :=
  { w with chronicle := Function.update w.chronicle s ((w.chronicle s).act a) }

@[simp] theorem flight_act (w : Wire η) (s s' : Side) (a : Act η) :
    (w.act s a).flight s' = w.flight s' := rfl

@[simp] theorem chronicle_act_same (w : Wire η) (s : Side) (a : Act η) :
    (w.act s a).chronicle s = (w.chronicle s).act a := Function.update_self ..

theorem chronicle_act_ne (w : Wire η) {s s' : Side} (h : s' ≠ s) (a : Act η) :
    (w.act s a).chronicle s' = w.chronicle s' := Function.update_of_ne h ..

@[simp] theorem host_act_same (w : Wire η) (s : Side) (a : Act η) :
    (w.act s a).host s = ((w.host s).step a).1 :=
  congrArg Chronicle.host (w.chronicle_act_same s a)

theorem host_act_ne (w : Wire η) {s s' : Side} (h : s' ≠ s) (a : Act η) :
    (w.act s a).host s' = w.host s' := congrArg Chronicle.host (w.chronicle_act_ne h a)

/-- One step of a wire that carries messages of at most `limit` octets. What users, callers and
handlers do is restricted by `ok`. -/
inductive Step (limit : Nat) (ok : Op η → Prop) (w : Wire η) : Wire η → Prop
  /-- Something is done at an endpoint. -/
  | op (s : Side) (o : Op η) (h : ok o) : Step limit ok w (w.act s (.op o))
  /-- A writer takes a message. -/
  | take (s : Side) (o : Outbound) (rest : List Outbound) (idle : (w.host s).sending = none)
      (isOpen : (w.host s).endpoint.isOpen = true)
      (first : (w.host s).endpoint.outbound = o :: rest) :
      Step limit ok w ((w.act s .take).setFlight s (w.flight s ++ [o]))
  /-- The line has taken the message of a writer. -/
  | sent (s : Side) : Step limit ok w (w.act s (.sent (.ok ())))
  /-- The line refuses the message of a writer for its size. -/
  | refuse (s : Side) (o : Outbound) (fl : List Outbound) (sending : (w.host s).sending = some o)
      (last : w.flight s = fl ++ [o]) (size : limit < o.bytes.length) :
      Step limit ok w
        ((w.act s (.sent (.error (.frameTooLarge o.bytes.length limit)))).setFlight s fl)
  /-- A message arrives. -/
  | receive (s : Side) (o : Outbound) (fl : List Outbound) (first : w.flight s = o :: fl)
      (size : o.bytes.length ≤ limit) :
      Step limit ok w ((w.act s.opposite (.receive o.bytes)).setFlight s fl)
  /-- Messages are lost. -/
  | lose (s : Side) (fl : List Outbound) (down : ¬w.Up) (sub : fl.Sublist (w.flight s)) :
      Step limit ok w (w.setFlight s fl)
  /-- A writer finds its line broken. -/
  | broken (s : Side) (down : ¬w.Up) : Step limit ok w (w.act s (.sent (.error .closed)))

/-- Some steps of a wire. -/
abbrev Steps (limit : Nat) (ok : Op η → Prop) : Wire η → Wire η → Prop :=
  Relation.ReflTransGen (Step limit ok)

/-- What two endpoints that have just been opened can come to. -/
inductive Reached (limit : Nat) (ok : Op η → Prop) (c : Side → Config) : Wire η → Prop
  | start : Reached limit ok c (.ofConfigs c)
  | step {w w' : Wire η} (h : Reached limit ok c w) (hstep : Step limit ok w w') :
      Reached limit ok c w'

theorem Reached.steps {limit : Nat} {ok : Op η → Prop} {c : Side → Config} {w w' : Wire η}
    (h : Reached limit ok c w) (hsteps : Steps limit ok w w') : Reached limit ok c w' := by
  induction hsteps with
  | refl => exact h
  | tail _ hstep ih => exact ih.step hstep

/-! ## What a step does -/

/-- One of the endpoints acts. -/
structure Turn (limit : Nat) (w w' : Wire η) (s : Side) (a : Act η) : Prop where
  self : w'.chronicle s = (w.chronicle s).act a
  other : w'.chronicle s.opposite = w.chronicle s.opposite
  /-- What is queued goes to the end of the road. A message that is refused leaves it. -/
  out : (w.host s).bounced? a = none ∧
        w'.road s = w.road s ++ ((w.host s).queues? a).toList ∨
      ∃ o xs ys,
        (w.host s).bounced? a = some (o, .frameTooLarge o.bytes.length limit) ∧
        limit < o.bytes.length ∧ w.road s = xs ++ o :: ys ∧
        w'.road s = xs ++ ys ++ ((w.host s).queues? a).toList
  /-- A message that arrives leaves the front of the other road. -/
  inc : (w.host s).receives? a = none ∧ w'.road s.opposite = w.road s.opposite ∨
      ∃ o, w.road s.opposite = o :: w'.road s.opposite ∧ a = .receive o.bytes ∧
        o.bytes.length ≤ limit

theorem Turn.host_self {limit : Nat} {w w' : Wire η} {s : Side} {a : Act η}
    (h : Turn limit w w' s a) : w'.host s = ((w.host s).step a).1 := congrArg Chronicle.host h.self

theorem Turn.host_other {limit : Nat} {w w' : Wire η} {s : Side} {a : Act η}
    (h : Turn limit w w' s a) : w'.host s.opposite = w.host s.opposite :=
  congrArg Chronicle.host h.other

/-- Messages are lost. -/
structure Loss (w w' : Wire η) : Prop where
  down : ¬w.Up
  same : ∀ s, w'.chronicle s = w.chronicle s
  road : ∀ s, (w'.road s).Sublist (w.road s)

theorem opposite_ne (s : Side) : s.opposite ≠ s := by cases s <;> decide

theorem eq_or_opposite (s t : Side) : t = s ∨ t = s.opposite := by
  cases s <;> cases t <;> decide

omit [Handler η] in
/-- An endpoint that is not the one that acts has the same road as before. -/
theorem road_other {w w' : Wire η} {s : Side} (hc : w'.chronicle s = w.chronicle s)
    (hf : w'.flight s = w.flight s) : w'.road s = w.road s := by
  unfold road host
  rw [hc, hf]

/-- An act that has nothing to do with the lines. -/
theorem turn_act {limit : Nat} {w : Wire η} {s : Side} {a : Act η} (hs : (w.host s).Sound)
    (hb : (w.host s).bounced? a = none) (hr : (w.host s).receives? a = none)
    (ho : ((w.host s).step a).1.endpoint.outbound = (w.host s).endpoint.outbound ++
      queuedIn ((w.host s).step a).2) : Turn limit w (w.act s a) s a where
  self := w.chronicle_act_same s a
  other := w.chronicle_act_ne (opposite_ne s) a
  out := by
    refine Or.inl ⟨hb, ?_⟩
    rw [road, host_act_same, ho, flight_act, hs.queuedIn_step, road, List.append_assoc]
  inc := Or.inl ⟨hr, road_other (w.chronicle_act_ne (opposite_ne s) a) rfl⟩

theorem turn_take {limit : Nat} {w : Wire η} {s : Side} {o : Outbound} {rest : List Outbound}
    (hidle : (w.host s).sending = none) (hopen : (w.host s).endpoint.isOpen = true)
    (hfirst : (w.host s).endpoint.outbound = o :: rest) :
    Turn limit w ((w.act s .take).setFlight s (w.flight s ++ [o])) s .take where
  self := w.chronicle_act_same s .take
  other := w.chronicle_act_ne (opposite_ne s) .take
  out := by
    refine Or.inl ⟨rfl, ?_⟩
    have hstep := Host.step_take hidle hopen hfirst
    rw [road, host_setFlight, host_act_same, hstep, flight_setFlight_same, road, hfirst]
    show w.flight s ++ [o] ++ rest = w.flight s ++ o :: rest ++ []
    simp
  inc := by
    refine Or.inl ⟨rfl, road_other (w.chronicle_act_ne (opposite_ne s) .take) ?_⟩
    exact (flight_setFlight_ne _ (opposite_ne s) _).trans (flight_act ..)

theorem turn_refuse {limit : Nat} {w : Wire η} {s : Side} {o : Outbound} {fl : List Outbound}
    (hs : (w.host s).Sound) (hsend : (w.host s).sending = some o) (hlast : w.flight s = fl ++ [o])
    (hsize : limit < o.bytes.length) :
    Turn limit w ((w.act s (.sent (.error (.frameTooLarge o.bytes.length limit)))).setFlight s fl) s
      (.sent (.error (.frameTooLarge o.bytes.length limit))) where
  self := w.chronicle_act_same s _
  other := w.chronicle_act_ne (opposite_ne s) _
  out := by
    refine Or.inr ⟨o, fl, (w.host s).endpoint.outbound, ?_, hsize, ?_, ?_⟩
    · unfold Host.bounced?
      rw [hsend]
      rfl
    · rw [road, hlast]
      simp
    · have hposts := (w.host s).posts_sent_error (.frameTooLarge o.bytes.length limit)
      rw [road, host_setFlight, host_act_same, hposts.outbound, flight_setFlight_same,
        hs.queuedIn_step, List.append_assoc]
  inc := by
    refine Or.inl ⟨rfl, road_other (w.chronicle_act_ne (opposite_ne s) _) ?_⟩
    exact (flight_setFlight_ne _ (opposite_ne s) _).trans (flight_act ..)

theorem turn_receive {limit : Nat} {w : Wire η} {s : Side} {o : Outbound} {fl : List Outbound}
    (hs : (w.host s).Sound) (hfirst : w.flight s.opposite = o :: fl)
    (hsize : o.bytes.length ≤ limit) :
    Turn limit w ((w.act s (.receive o.bytes)).setFlight s.opposite fl) s (.receive o.bytes) where
  self := w.chronicle_act_same s _
  other := w.chronicle_act_ne (opposite_ne s) _
  out := by
    refine Or.inl ⟨rfl, ?_⟩
    have hposts := (w.host s).posts_receive o.bytes
    rw [road, host_setFlight, host_act_same, hposts.outbound,
      flight_setFlight_ne _ (opposite_ne s).symm, flight_act, hs.queuedIn_step, road,
      List.append_assoc]
  inc := by
    refine Or.inr ⟨o, ?_, rfl, hsize⟩
    rw [road, road, flight_setFlight_same, hfirst, host_setFlight,
      w.host_act_ne (opposite_ne s)]
    rfl

/-- A line that is broken closes the endpoint of its writer. -/
theorem turn_broken {limit : Nat} {w : Wire η} {s : Side} (hs : (w.host s).Sound) :
    Turn limit w (w.act s (.sent (.error .closed))) s (.sent (.error .closed)) :=
  turn_act hs rfl rfl ((w.host s).posts_sent_error .closed).outbound

/-! ## What a turn does to roads -/

variable {limit : Nat} {w w' : Wire η} {s : Side} {a : Act η}

omit [Handler η] in
theorem countP_toList_pos {α : Type} {p : α → Bool} {x? : Option α} :
    0 < x?.toList.countP p ↔ ∃ x, x? = some x ∧ p x = true := by
  cases x? with
  | none => simp
  | some x =>
      rw [List.countP_pos_iff]
      simp

omit [Handler η] in
theorem countP_toList_le_one {α : Type} (p : α → Bool) (x? : Option α) :
    x?.toList.countP p ≤ 1 := by
  have hlen : x?.toList.length ≤ 1 := by cases x? <;> simp
  exact Nat.le_trans List.countP_le_length hlen

/-- What a turn makes of the messages of some kind on the road of the one whose turn it is. -/
theorem Turn.count_out (h : Turn limit w w' s a) (p : Message → Bool) :
    (w'.road s).countP (fun o => p o.message) +
        ((w.host s).bounced? a).toList.countP (fun x => p x.1.message) =
      (w.road s).countP (fun o => p o.message) +
        ((w.host s).queues? a).toList.countP fun o => p o.message := by
  rcases h.out with ⟨hb, hroad⟩ | ⟨o, xs, ys, hb, -, hold, hroad⟩
  · rw [hb, hroad, List.countP_append]
    rfl
  · rw [hb, hold, hroad]
    simp only [List.countP_append, List.countP_cons, Option.toList_some, List.countP_nil]
    omega

theorem Turn.mem_road_of_queues (h : Turn limit w w' s a) {o : Outbound}
    (hq : (w.host s).queues? a = some o) : o ∈ w'.road s := by
  rcases h.out with ⟨-, hroad⟩ | ⟨o', xs, ys, -, -, -, hroad⟩
  · rw [hroad]
    exact List.mem_append_right _ (Option.mem_toList.mpr hq)
  · rw [hroad]
    exact List.mem_append_right _ (Option.mem_toList.mpr hq)

/-! ## Every step -/

/-- **Every step is a turn of one endpoint, or messages are lost.** -/
theorem Step.turn {ok : Op η → Prop} (hstep : Step limit ok w w')
    (hs : ∀ s, (w.host s).Sound) :
    (∃ s a, Turn limit w w' s a ∧ ∀ o, a = .op o → ok o) ∨ Loss w w' := by
  cases hstep with
  | op s o h =>
      refine Or.inl ⟨s, .op o, turn_act (hs s) rfl rfl ((w.host s).posts_operate o).outbound, ?_⟩
      rintro o' heq
      obtain rfl := Act.op.inj heq
      exact h
  | take s o rest idle isOpen first =>
      exact Or.inl ⟨s, _, turn_take idle isOpen first, nofun⟩
  | sent s =>
      refine Or.inl ⟨s, .sent (.ok ()), turn_act (hs s) rfl rfl ?_, nofun⟩
      rw [Host.step_sent_ok]
      exact (List.append_nil _).symm
  | refuse s o fl sending last size =>
      exact Or.inl ⟨s, _, turn_refuse (hs s) sending last size, nofun⟩
  | receive s o fl first size =>
      have hfirst : w.flight s.opposite.opposite = o :: fl := by
        rw [Side.opposite_opposite]
        exact first
      have hturn := turn_receive (hs s.opposite) hfirst size
      rw [Side.opposite_opposite] at hturn
      exact Or.inl ⟨s.opposite, _, hturn, nofun⟩
  | lose s fl down sub =>
      -- what waits at the endpoint stays, and so does the other road
      refine Or.inr ⟨down, fun _ => rfl, fun s' => ?_⟩
      by_cases hss : s' = s
      · subst hss
        rw [road, road, flight_setFlight_same, host_setFlight]
        exact sub.append_right _
      · have hsame : (w.setFlight s fl).road s' = w.road s' :=
          road_other rfl (w.flight_setFlight_ne hss fl)
        rw [hsame]
  | broken s down => exact Or.inl ⟨s, _, turn_broken (hs s), nofun⟩

/-- The endpoints of a wire are sound, and their runs tidy. -/
theorem Reached.kept {ok : Op η → Prop} {c : Side → Config} (h : Reached limit ok c w)
    (s : Side) : (w.host s).Sound ∧ (w.host s).Tidy := by
  induction h generalizing s with
  | start => exact ⟨Host.sound_ofConfig (c s), Host.tidy_ofConfig (c s)⟩
  | step h hstep ih =>
      rcases hstep.turn fun s => (ih s).1 with ⟨t, a, hturn, -⟩ | hloss
      · rcases eq_or_opposite t s with rfl | rfl
        · rw [host, hturn.self]
          exact ⟨(ih _).1.step a, (ih _).2.step a⟩
        · rw [host, hturn.other]
          exact ih _
      · rw [host, hloss.same]
        exact ih s

end Wire

end PeerRpc
