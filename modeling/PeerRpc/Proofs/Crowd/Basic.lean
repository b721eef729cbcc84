import PeerRpc.Proofs.Endpoint.Openings
import PeerRpc.Proofs.Host.Offers

/-!
# PeerRpc.Proofs.Crowd.Basic -- starts that overlap

`Endpoint.request` and `Endpoint.notifyProxy` start a call or a notification in one go. Callers in
different threads do not wait for each other, though. A call draws its id, looks whether the endpoint
is open, looks how many calls wait, makes its entry, looks at the endpoint once more and puts its
request into the queue, and between any two of these steps others may do what they like, be it with
calls of their own. `Endpoint.advance` is one step of a `Start`, and `Endpoint.Advance` lists all
that it can come to.

A `Crowd` is a chronicle with all starts that were ever begun at its host. Its strides are the
beginnings of starts, their steps and the acts of others, in any order. A caller holds its call when
the start is over and not before, so no act names a call that is still being started
(`Crowd.allows`). All starts of a crowd go by steps. One whose steps follow one another is an act of a
`Chronicle`, though (`Crowd.run_alone`), so the runs of a chronicle are those runs of a crowd in
which starts do not overlap.

A step of a start, like an act, is not interrupted: each of them touches one thing that is shared.
The number of calls that wait is taken to be read in one go.
-/

namespace PeerRpc

variable {η : Type}

/-! ## Starts -/

/-- How far the start of a call or of a notification has come. -/
inductive Stage where
  /-- It has looked at nothing yet. A call has its id. -/
  | begun
  /-- It has found the endpoint open. -/
  | found
  /-- It has found room for its call, and the request can be encoded. -/
  | admitted
  /-- The call has its entry. -/
  | entered
  /-- Nothing is left to do but to put the message into the queue. -/
  | cleared
  /-- The call, which has its entry, has found the endpoint closed, or the queue gone. -/
  | stopped
  /-- The message has joined the queue. -/
  | sent
  /-- It has failed before anything was done. -/
  | refused (err : CallError)
  /-- The call has failed and has taken its entry away. -/
  | withdrawn

namespace Stage

/-- Whether there is nothing left to do. -/
def isOver : Stage → Bool
  | sent => true
  | refused _ => true
  | withdrawn => true
  | _ => false

/-- Whether a call that has come so far has its entry or its result, or has had its entry. -/
def isKnown : Stage → Bool
  | entered => true
  | cleared => true
  | stopped => true
  | sent => true
  | refused _ => true
  | withdrawn => true
  | _ => false

/-- Whether a step from one stage to another makes a call known. -/
def reveals : Stage → Stage → Bool
  | begun, refused _ => true
  | found, refused _ => true
  | admitted, entered => true
  | _, _ => false

end Stage

/-- The start of a call or of a notification. -/
structure Start where
  message : Message
  /-- When it was begun. -/
  since : Nat
  stage : Stage := .begun

namespace Start

/-- The id of the call that is started. -/
def id? (s : Start) : Option RequestId := s.message.asks?

/-- The call that is started. -/
def asked? (c : Config) (s : Start) : Option Asked :=
  match s.message with
  | .request id proxy method args =>
    some ⟨proxy, method, args, { id := some id, limit := c.requestTimeout, started := s.since }⟩
  | _ => none

/-- Whether a call is still being started. -/
def isUnderway (s : Start) (id : RequestId) : Bool := !s.stage.isOver && s.id? = some id

end Start

namespace Endpoint

/-- Refuses what is started. A call is settled at once. -/
def turnDown (e : Endpoint η) (s : Start) (err : CallError) : Step η × Stage :=
  ((e, (s.id?.map fun id => .settled id (.error err)).toList), .refused err)

/-- Goes on if the message can be encoded. -/
def examine (e : Endpoint η) (s : Start) (next : Stage) : Step η × Stage :=
  match Codec.encodeMessage s.message with
  | .error err => e.turnDown s (.codec err)
  | .ok _ => ((e, []), next)

/-- The next step of a start: what it does, and how far the start has come then. `gone` says whether
nobody takes messages from the queue any more. -/
def advance (e : Endpoint η) (gone : Bool) (s : Start) : Step η × Stage :=
  match s.stage, s.message.entry? with
  | .begun, _ => if e.isOpen then ((e, []), .found) else e.turnDown s .disconnected
  | .found, some _ =>
    if e.config.maxInFlight ≤ e.pendingCount then
      e.turnDown s (.tooManyInFlight e.pendingCount e.config.maxInFlight)
    else e.examine s .admitted
  | .found, none => e.examine s .cleared
  | .admitted, some (id, proxy) => ((e.enter id proxy, []), .entered)
  | .entered, some _ => ((e, []), if e.isOpen then .cleared else .stopped)
  | .cleared, some _ => if gone then ((e, []), .stopped) else (e.put s.message, .sent)
  | .cleared, none => if gone then e.turnDown s .disconnected else (e.put s.message, .sent)
  | .stopped, some (id, _) => (e.settle id fun _ => .error .disconnected, .withdrawn)
  | stage, _ => ((e, []), stage)

end Endpoint

/-- The host after a step of a start. A call joins the calls of the host when it becomes known. -/
def Host.advance (h : Host η) (gone : Bool) (s : Start) : Host η × Stage :=
  let (step, stage) := h.endpoint.advance gone s
  let new := if s.stage.reveals stage then s.asked? h.endpoint.config else none
  ((({ h with calls := h.calls ++ new.toList } : Host η).follow step).1, stage)

/-! ## Crowds -/

/-- Whether an act starts a call or a notification. -/
def Act.opens : Act η → Bool
  | .op (.invoke ..) => true
  | .op (.request ..) => true
  | .op (.notify ..) => true
  | .op (.notifyProxy ..) => true
  | _ => false

/-- The place of the call that an act is about. -/
def Act.names? : Act η → Option Nat
  | .op (.cancel k) => some k
  | .op (.drop k) => some k
  | .op (.poll k) => some k
  | _ => none

/-- A host with its past, and the starts at it, the first to be begun first. -/
structure Crowd (η : Type) where
  /-- The past tells of acts; the steps of starts come between them and leave no mark there. -/
  chronicle : Chronicle η
  starts : List Start := []

/-- What can happen next. -/
inductive Stride (η : Type) where
  | act (a : Act η)
  /-- Somebody begins to start a call or a notification. -/
  | start (o : Opening)
  /-- The start at this place takes its next step. -/
  | advance (t : Nat) (gone : Bool)

namespace Crowd

/-- The host. -/
def host (x : Crowd η) : Host η := x.chronicle.host

/-- The crowd at an endpoint that has just been opened. -/
def ofConfig (c : Config) : Crowd η := { chronicle := .ofConfig c }

/-- Whether an act can be taken. Starts go by steps, and nobody holds a call that is still being
started. -/
def allows (x : Crowd η) (a : Act η) : Bool :=
  !a.opens &&
    ((a.names?.bind fun k => x.host.calls[k]?).bind fun q => q.call.id).all fun id =>
      x.starts.all fun s => !s.isUnderway id

/-- A start is begun, unless there is no service or are no arguments, which its user is told at once
and nobody else sees. A call draws its id. -/
def start (o : Opening) (x : Crowd η) : Crowd η :=
  let h := x.host
  match o.target h.endpoint with
  | .error _ => x
  | .ok (proxy, args) =>
    if o.isCall then
      if h.endpoint.nextId = 0 then x
      else
        { chronicle := { x.chronicle with
            host := { h with endpoint := { h.endpoint with nextId := h.endpoint.nextId + 1 } } }
          starts := x.starts ++
            [{ message := .request ⟨h.endpoint.nextId⟩ proxy o.method args, since := h.now }] }
    else
      { x with starts := x.starts ++
          [{ message := .notification proxy o.method args, since := h.now }] }

/-- A start takes its next step. -/
def advance (t : Nat) (gone : Bool) (x : Crowd η) : Crowd η :=
  match x.starts[t]? with
  | none => x
  | some s =>
    let (h, stage) := x.host.advance gone s
    { chronicle := { x.chronicle with host := h }, starts := x.starts.set t { s with stage := stage } }

variable [Handler η]

/-- One more stride. -/
def stride (x : Crowd η) : Stride η → Crowd η
  | .act a => if x.allows a then { x with chronicle := x.chronicle.act a } else x
  | .start o => x.start o
  | .advance t gone => x.advance t gone

/-- Some more strides. -/
def run (strides : List (Stride η)) (x : Crowd η) : Crowd η := strides.foldl stride x

@[simp] theorem run_nil (x : Crowd η) : x.run [] = x := rfl

theorem run_cons (a : Stride η) (strides : List (Stride η)) (x : Crowd η) :
    x.run (a :: strides) = (x.stride a).run strides := rfl

theorem run_append (xs ys : List (Stride η)) (x : Crowd η) :
    x.run (xs ++ ys) = (x.run xs).run ys := List.foldl_append

theorem run_concat (xs : List (Stride η)) (a : Stride η) (x : Crowd η) :
    x.run (xs ++ [a]) = (x.run xs).stride a := run_append xs [a] x

/-- What holds of a crowd and after all that can be done next holds after one more stride. -/
theorem stride_cases {P : Crowd η → Prop} {x : Crowd η} (hself : P x)
    (hact : ∀ a, x.allows a = true → P { x with chronicle := x.chronicle.act a })
    (hstart : ∀ o, P (x.start o)) (hadvance : ∀ t gone, P (x.advance t gone)) (a : Stride η) :
    P (x.stride a) := by
  cases a with
  | act a =>
      simp only [stride]
      split
      · next hallows => exact hact a hallows
      · exact hself
  | start o => exact hstart o
  | advance t gone => exact hadvance t gone

/-- **What every run keeps.** -/
theorem run_induction {P : Crowd η → Prop} {c : Config} (h₀ : P (ofConfig c))
    (hstride : ∀ x a, P x → P (x.stride a)) (strides : List (Stride η)) :
    P ((ofConfig c).run strides) := by
  induction strides using List.reverseRecOn with
  | nil => exact h₀
  | append_singleton strides a ih =>
      rw [run_concat]
      exact hstride _ _ ih

end Crowd

/-! ## What strides come to -/

namespace Crowd

/-- All that the beginning of a start comes to. -/
inductive Begins (x : Crowd η) (o : Opening) : Crowd η → Prop
  | fails : Begins x o x
  | call (proxy : ProxyId) (args : List Value) (target : o.target x.host.endpoint = .ok (proxy, args))
      (isCall : o.isCall = true) (next : x.host.endpoint.nextId ≠ 0) :
      Begins x o
        { chronicle := { x.chronicle with host := { x.host with
            endpoint := { x.host.endpoint with nextId := x.host.endpoint.nextId + 1 } } }
          starts := x.starts ++ [{ message := .request ⟨x.host.endpoint.nextId⟩ proxy o.method args,
                                   since := x.host.now }] }
  | notice (proxy : ProxyId) (args : List Value)
      (target : o.target x.host.endpoint = .ok (proxy, args)) (isCall : o.isCall = false) :
      Begins x o { x with
        starts := x.starts ++
          [{ message := .notification proxy o.method args, since := x.host.now }] }

/-- A start takes a step. -/
theorem advance_of_some {x : Crowd η} {t : Nat} {s : Start} (hs : x.starts[t]? = some s)
    (gone : Bool) :
    x.advance t gone =
      { chronicle := { x.chronicle with host := (x.host.advance gone s).1 }
        starts := x.starts.set t { s with stage := (x.host.endpoint.advance gone s).2 } } := by
  simp only [advance, hs]
  rfl

theorem advance_of_none {x : Crowd η} {t : Nat} (hs : x.starts[t]? = none) (gone : Bool) :
    x.advance t gone = x := by
  simp only [advance, hs]

theorem begins_start (x : Crowd η) (o : Opening) : x.Begins o (x.start o) := by
  simp only [start]
  split
  · exact .fails
  · next proxy args target =>
      by_cases hcall : o.isCall = true
      · rw [if_pos hcall]
        by_cases hn : x.host.endpoint.nextId = 0
        · rw [if_pos hn]
          exact .fails
        · rw [if_neg hn]
          exact .call proxy args target hcall hn
      · rw [if_neg hcall]
        exact .notice proxy args target (Bool.eq_false_iff.mpr hcall)

end Crowd

namespace Endpoint

/-- The steps of a start that only look. -/
inductive Looks (e : Endpoint η) (gone : Bool) (s : Start) : Stage → Prop
  | finds (begun : s.stage = .begun) (isOpen : e.isOpen = true) : Looks e gone s .found
  | admits (found : s.stage = .found) (call : s.id? ≠ none)
      (room : e.pendingCount < e.config.maxInFlight)
      (encodes : ∃ bs, Codec.encodeMessage s.message = .ok bs) : Looks e gone s .admitted
  | clearsNotice (found : s.stage = .found) (notice : s.id? = none)
      (encodes : ∃ bs, Codec.encodeMessage s.message = .ok bs) : Looks e gone s .cleared
  | clears (entered : s.stage = .entered) (call : s.id? ≠ none) (isOpen : e.isOpen = true) :
      Looks e gone s .cleared
  | stops (entered : s.stage = .entered) (call : s.id? ≠ none) (closed : e.isOpen = false) :
      Looks e gone s .stopped
  | misses (cleared : s.stage = .cleared) (call : s.id? ≠ none) (away : gone = true) :
      Looks e gone s .stopped

/-- Why a start is refused. -/
inductive TurnsDown (e : Endpoint η) (gone : Bool) (s : Start) : CallError → Prop
  | closed (begun : s.stage = .begun) (closed : e.isOpen = false) :
      TurnsDown e gone s .disconnected
  | full (found : s.stage = .found) (call : s.id? ≠ none)
      (full : e.config.maxInFlight ≤ e.pendingCount) :
      TurnsDown e gone s (.tooManyInFlight e.pendingCount e.config.maxInFlight)
  | codec {err : CodecError} (found : s.stage = .found)
      (room : s.id? ≠ none → e.pendingCount < e.config.maxInFlight)
      (error : Codec.encodeMessage s.message = .error err) : TurnsDown e gone s (.codec err)
  | lost (cleared : s.stage = .cleared) (notice : s.id? = none) (away : gone = true) :
      TurnsDown e gone s .disconnected

/-- All that a step of a start can come to. -/
inductive Advance (e : Endpoint η) (gone : Bool) (s : Start) : Step η × Stage → Prop
  /-- Nothing, if it is over. -/
  | rests {stage : Stage} (same : s.stage = stage) (ended : stage.isOver = true ∨ s.id? = none) :
      Advance e gone s ((e, []), stage)
  | looks {stage : Stage} (looks : Looks e gone s stage) : Advance e gone s ((e, []), stage)
  | refused {err : CallError} (why : TurnsDown e gone s err) : Advance e gone s (e.turnDown s err)
  | enters {id : RequestId} {proxy : ProxyId} {method : String} {args : List Value}
      (admitted : s.stage = .admitted) (message : s.message = .request id proxy method args) :
      Advance e gone s ((e.enter id proxy, []), .entered)
  | sends (cleared : s.stage = .cleared) : Advance e gone s (e.put s.message, .sent)
  | withdraws {id : RequestId} (stopped : s.stage = .stopped) (call : s.id? = some id) :
      Advance e gone s (e.settle id fun _ => .error .disconnected, .withdrawn)

end Endpoint

/-- A message makes an entry exactly if it is the request of a call. -/
theorem Message.asks?_eq_entry? (m : Message) : m.asks? = m.entry?.map Prod.fst := by
  cases m <;> rfl

theorem Message.eq_request_of_entry {m : Message} {id : RequestId} {proxy : ProxyId}
    (h : m.entry? = some (id, proxy)) : ∃ method args, m = .request id proxy method args := by
  cases m with
  | request id' proxy' method args =>
      obtain ⟨rfl, rfl⟩ := Prod.mk.inj (Option.some.inj h)
      exact ⟨method, args, rfl⟩
  | _ => cases h

namespace Endpoint

variable {e : Endpoint η} {gone : Bool} {s : Start}

theorem advance_examine {next : Stage} (hlooks : (∃ bs, Codec.encodeMessage s.message = .ok bs) →
    Looks e gone s next) (hfound : s.stage = .found)
    (hroom : s.id? ≠ none → e.pendingCount < e.config.maxInFlight) :
    Advance e gone s (e.examine s next) := by
  unfold examine
  cases hencode : Codec.encodeMessage s.message with
  | error err => exact .refused (.codec hfound hroom hencode)
  | ok bs => exact .looks (hlooks ⟨bs, hencode⟩)

/-- **All that a step of a start can come to.** -/
theorem advance_cases (e : Endpoint η) (gone : Bool) (s : Start) :
    Advance e gone s (e.advance gone s) := by
  have hid : s.id? = s.message.entry?.map Prod.fst := s.message.asks?_eq_entry?
  unfold advance
  cases hentry : s.message.entry? with
  | none =>
      rw [hentry] at hid
      cases hstage : s.stage with
      | begun =>
          simp only
          split
          · next hopen => exact .looks (.finds hstage hopen)
          · next hclosed => exact .refused (.closed hstage (Bool.eq_false_iff.mpr hclosed))
      | found => exact advance_examine (.clearsNotice hstage hid) hstage fun h => absurd hid h
      | cleared =>
          simp only
          split
          · next hgone => exact .refused (.lost hstage hid hgone)
          · exact .sends hstage
      | _ => exact .rests hstage (.inr hid)
  | some p =>
      obtain ⟨id, proxy⟩ := p
      obtain ⟨method, args, hmessage⟩ := Message.eq_request_of_entry hentry
      rw [hentry] at hid
      have hcall : s.id? ≠ none := by rw [hid]; nofun
      cases hstage : s.stage with
      | begun =>
          simp only
          split
          · next hopen => exact .looks (.finds hstage hopen)
          · next hclosed => exact .refused (.closed hstage (Bool.eq_false_iff.mpr hclosed))
      | found =>
          simp only
          split
          · next hfull => exact .refused (.full hstage hcall hfull)
          · next hroom =>
              have hroom := Nat.lt_of_not_le hroom
              exact advance_examine (.admits hstage hcall hroom) hstage fun _ => hroom
      | admitted => exact .enters hstage hmessage
      | entered =>
          simp only
          split
          · next hopen => exact .looks (.clears hstage hcall hopen)
          · next hclosed =>
              exact .looks (.stops hstage hcall (Bool.eq_false_iff.mpr hclosed))
      | cleared =>
          simp only
          split
          · next hgone => exact .looks (.misses hstage hcall hgone)
          · exact .sends hstage
      | stopped => exact .withdraws hstage hid
      | _ => exact .rests hstage (.inl rfl)

end Endpoint

end PeerRpc
