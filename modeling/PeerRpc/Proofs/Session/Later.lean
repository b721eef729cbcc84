import PeerRpc.Proofs.Session.Staff
import PeerRpc.Session.Peer

/-!
# PeerRpc.Proofs.Session.Later -- what lasts in a session

What users do in a session is quiet, and turns keep the staff, so a property that quiet steps and
turns keep is kept for good, however tasks and users, the clock and the link go on
(`Lasting.next`, `Lasting.later`). In particular every session that comes of a link is staffed
(`Reached.staffed`).
-/

namespace PeerRpc

namespace Session

variable {w w' w'' : Session} {s : Side} {t : Ticket}

/-! ## The users of a session -/

theorem quiet_setEndpoint {p : Party} (hp : w.party? s = some p) {e : Endpoint Service}
    (hwork : e.work = p.endpoint.work) (hminds : p.endpoint.Minds e) :
    w.Quiet (w.setEndpoint s e) := by
  have htake : w.Quiet (w.take s (e, [])) := quiet_take hp (.of_calm ⟨hwork, rfl⟩) hminds
  exact htake

theorem quiet_set {i : Identifier} {service : Service} {old : Option Service}
    (h : w.set s i service = .ok (w', old)) : w.Quiet w' := by
  rcases set_eq_ok h with rfl | ⟨p, registry, hp, rfl⟩
  · exact .refl w'
  · exact quiet_setEndpoint hp rfl (.of_eq rfl rfl rfl)

theorem quiet_unset (w : Session) (s : Side) (i : Identifier) : w.Quiet (w.unset s i).1 := by
  unfold unset
  cases hp : w.party? s with
  | none => exact .refl w
  | some p => exact quiet_setEndpoint hp rfl (.of_eq rfl rfl rfl)

theorem quiet_releaseBoth (w : Session) : w.Quiet ((release .main w).release .ext) :=
  (quiet_release w .main).trans (quiet_release _ .ext)

theorem quiet_putProxy (w : Session) (name : String) (proxy : Side × Identifier) :
    w.Quiet (w.putProxy name proxy) := by
  have hnamed : w.Quiet { w with proxies := Keyed.insert name proxy w.proxies } :=
    quiet_of_eq rfl rfl (fun s => by cases s <;> rfl) fun _ h => h
  exact hnamed.trans (quiet_releaseBoth _)

theorem quiet_takeProxy {name : String} {i : Identifier} (h : w.takeProxy name s i = .ok w') :
    w.Quiet w' := by
  rcases takeProxy_eq_ok h with rfl | rfl
  · exact .refl _
  · exact quiet_putProxy w name (s, i)

theorem quiet_spawnAwait (i : Nat) (s : Side) (w : Session) : w.Quiet (w.spawnAwait i s) := by
  have hset : w.Quiet { w with callers := w.callers.modify i fun c => { c with held := false } } :=
    quiet_of_eq rfl rfl (fun s => by cases s <;> rfl) fun _ h => h
  exact hset.trans (quiet_spawn _ s false rfl)

theorem quiet_dropHeld (w : Session) (i : Nat) (c : Caller) : w.Quiet (w.dropHeld i c) := by
  unfold dropHeld
  split
  · exact (quiet_setCall i c.call false w).trans (quiet_dropCall _ c.side c.call)
  · exact .refl w

/-- A call is noted under its label, and the one that had the label before is let go of. -/
theorem quiet_noteCall (w : Session) (callers : List Caller) (i : Nat) (s : Side) (hold : Bool)
    (former : Option (Nat × Caller)) :
    w.Quiet (match former with
      | some (j, c) =>
        (if hold then { w with callers := callers }
          else ({ w with callers := callers } : Session).spawnAwait i s).dropHeld j c
      | none =>
        if hold then { w with callers := callers }
          else ({ w with callers := callers } : Session).spawnAwait i s) := by
  have hnote : w.Quiet { w with callers := callers } :=
    quiet_of_eq rfl rfl (fun s => by cases s <;> rfl) fun _ h => h
  have hwait : w.Quiet (if hold then { w with callers := callers }
      else ({ w with callers := callers } : Session).spawnAwait i s) := by
    split
    · exact hnote
    · exact hnote.trans (quiet_spawnAwait i s _)
  split
  · next j c => exact hwait.trans (quiet_dropHeld _ j c)
  · exact hwait

theorem quiet_call (w : Session) (target : Target) (label : String) (shape : Shape) (hold : Bool)
    (method : String) (args : List Value) :
    w.Quiet (w.call target label shape hold method args).1 := by
  unfold Session.call
  cases target with
  | proxy s i => exact (quiet_request w s i.id method args).trans (quiet_noteCall _ _ _ _ hold _)
  | service s i => exact (quiet_invoke w s i method args).trans (quiet_noteCall _ _ _ _ hold _)

theorem quiet_notify {target : Target} {method : String} {args : List Value}
    (h : w.notify target method args = .ok w') : w.Quiet w' := by
  obtain ⟨p, proxy, step, hp, hstep, rfl⟩ := notify_eq_ok h
  exact quiet_take hp (.of_calm (Endpoint.calm_notifyProxy hstep))
    (Endpoint.minds_notifyProxy hstep)

theorem quiet_await (w : Session) (label : String) : w.Quiet (w.await label) := by
  unfold Session.await
  split
  · split
    · exact quiet_spawnAwait _ _ w
    · exact .refl w
  · exact .refl w

theorem quiet_cancel (w : Session) (label : String) : w.Quiet (w.cancel label).1 := by
  unfold cancel
  split
  · exact .refl w
  · next c _ =>
      cases hp : w.party? c.side with
      | none => exact .refl w
      | some p =>
          exact quiet_take hp (.of_calm (c.call.calm_cancelWith .cancelled p.endpoint))
            (c.call.minds_cancelWith .cancelled p.endpoint)

/-- Tasks that wait for a call are told, one after the other, that it is dropped. -/
theorem quiet_tell (i : Nat) {waiting : List (Ticket × Task)} (h : ∀ x ∈ waiting, w.Idle x.1) :
    w.Quiet (waiting.foldl
      (fun w (x : Ticket × Task) => wake [x.1] (w.setWork x.1 (.awaitCall i true))) w) := by
  induction waiting generalizing w with
  | nil => exact .refl w
  | cons x rest ih =>
      obtain ⟨hx, hrest⟩ := List.forall_mem_cons.mp h
      have htold := (quiet_setWork hx (.awaitCall i true) fun _ _ => rfl).trans
        (quiet_wake [x.1] _)
      exact htold.trans (ih fun y hy => htold.idle (hrest y hy))

theorem quiet_dropCaller (h : w.Numbered) (label : String) : w.Quiet (w.dropCaller label) := by
  unfold dropCaller
  split
  · exact .refl w
  · next i c _ =>
      split
      · exact quiet_dropHeld w i c
      · refine quiet_tell i fun x hx => ?_
        obtain ⟨hmem, hwaits⟩ := List.mem_filter.mp hx
        refine h.idle hmem ?_
        -- a task that waits for a call runs no handler
        obtain ⟨v, side, work, holds⟩ := x
        cases work with
        | awaitCall j dropped => rfl
        | _ => cases hwaits

/-! ## Whatever happens -/

/-- A property of sessions that quiet steps and turns keep, and that does not say who is ready. -/
structure Lasting (Q : Session → Prop) : Prop where
  quiet : ∀ {w w' : Session}, Q w → w.Quiet w' → Q w'
  queue : ∀ {w : Session} (ready : List Ticket), Q w → Q { w with ready := ready }
  turn : ∀ {w : Session} {t : Ticket}, w.Staffed (t :: w.ready) → Q w → Q (w.turn t)

/-- A staffed session with a property. -/
def Holds (Q : Session → Prop) (w : Session) : Prop := w.Staffed w.ready ∧ Q w

namespace Lasting

variable {Q : Session → Prop} (hQ : Lasting Q)

include hQ

theorem holds_quiet (h : Holds Q w) (hq : w.Quiet w') : Holds Q w' :=
  ⟨h.1.ready hq, hQ.quiet h.2 hq⟩

/-- What lasts is kept as long as tasks take turns. -/
theorem serves : schedule.Serves (Holds Q) where
  next t rest w hready h := by
    have hstaffed : ({ w with ready := rest } : Session).Staffed (t :: rest) := by
      rw [← show w.ready = t :: rest from hready]
      refine ⟨⟨h.1.numbered.tickets, h.1.numbered.fresh⟩, fun s e he => ?_,
        fun p hp habort hstop => ?_⟩
      · exact h.1.sides s e (by cases s <;> exact he)
      · refine h.1.awake p hp habort ?_
        generalize p.side = s at hstop ⊢
        cases s <;> exact hstop
    exact ⟨hstaffed.turn.staffed, hQ.turn hstaffed (hQ.queue rest h.2)⟩
  wake ts w h := hQ.holds_quiet h (quiet_wake ts w)

theorem settle (h : Holds Q w) : Holds Q w.settle := hQ.serves.settle h

theorem clock (h : Holds Q w) (now : Nat) : Holds Q { w with now := now } :=
  hQ.holds_quiet h (quiet_of_eq rfl rfl (fun s => by cases s <;> rfl) fun _ h => h)

theorem advance (h : Holds Q w) (ms : Nat) : Holds Q (w.advance ms) :=
  hQ.serves.advanceTo _ (fun n _ _ h => hQ.clock h (max n _)) (fun _ h => hQ.clock h _) _
    (hQ.settle h)

/-- **What lasts is kept by everything that users and tasks do.** -/
theorem next (h : Holds Q w) (h' : Next w w') : Holds Q w' := by
  cases h' with
  | set hset => exact hQ.holds_quiet h (quiet_set hset)
  | unset s i => exact hQ.holds_quiet h (quiet_unset w s i)
  | cloneHandle s => exact hQ.holds_quiet h (quiet_modifyParty w s fun _ => rfl)
  | dropHandle s =>
      have hback : w.Quiet (w.modifyParty s fun p => { p with handles := p.handles - 1 }) :=
        quiet_modifyParty w s fun _ => rfl
      exact hQ.holds_quiet h (hback.trans (quiet_release _ s))
  | takeProxy htake => exact hQ.holds_quiet h (quiet_takeProxy htake)
  | cloneProxy source name =>
      refine hQ.holds_quiet h ?_
      unfold Session.cloneProxy
      split
      · exact .refl w
      · exact quiet_putProxy w name _
  | dropProxy name =>
      have hback : w.Quiet { w with proxies := w.proxies.filter fun p => p.1 ≠ name } :=
        quiet_of_eq rfl rfl (fun s => by cases s <;> rfl) fun _ h => h
      exact hQ.holds_quiet h (hback.trans (quiet_releaseBoth _))
  | call target label shape hold method args =>
      exact hQ.holds_quiet h (quiet_call w target label shape hold method args)
  | notify hnotify => exact hQ.holds_quiet h (quiet_notify hnotify)
  | await label => exact hQ.holds_quiet h (quiet_await w label)
  | cancel label => exact hQ.holds_quiet h (quiet_cancel w label)
  | dropCaller label => exact hQ.holds_quiet h (quiet_dropCaller h.1.numbered label)
  | startClose s => exact hQ.holds_quiet h (quiet_spawn w s true rfl)
  | startAwaitClosed s => exact hQ.holds_quiet h (quiet_spawn w s true rfl)
  | startAwaitEnd s => exact hQ.holds_quiet h (quiet_spawn w s true rfl)
  | openGate name =>
      exact hQ.holds_quiet h ((quiet_setPermits name _ w).trans (quiet_wake _ _))
  | newRecord =>
      exact hQ.holds_quiet h (quiet_of_eq rfl rfl (fun s => by cases s <;> rfl) fun _ h => h)
  | turn t => exact ⟨(h.1.but t).turn.staffed, hQ.turn (h.1.but t) h.2⟩
  | settle => exact hQ.settle h
  | advance ms => exact hQ.advance h ms

end Lasting

/-- Sessions that come of a session. The clock may stand anywhere, and the link may come into any
state by itself or through a peer. -/
inductive Later (w : Session) : Session → Prop where
  | here : Later w w
  | next {w' w'' : Session} (h : Later w w') (h' : Next w' w'') : Later w w''
  | clock {w' : Session} (h : Later w w') (now) : Later w { w' with now := now }
  | change {w' : Session} (h : Later w w') (link wakes) : Later w (w'.setLink link wakes)

theorem Lasting.later {Q : Session → Prop} (hQ : Lasting Q) (h : Holds Q w) (h' : w.Later w') :
    Holds Q w' := by
  induction h' with
  | here => exact h
  | next _ hnext ih => exact hQ.next ih hnext
  | clock _ now ih => exact hQ.clock ih now
  | change _ link wakes ih => exact hQ.holds_quiet ih (quiet_setLink _ link wakes)

theorem Reached.later {link : Link} {configs : List Config} (h : Reached link configs w) :
    (ofLink link configs).Later w := by
  induction h with
  | start => exact .here
  | next _ h' ih => exact ih.next h'
  | clock _ now ih => exact ih.clock now
  | change _ link' wakes ih => exact ih.change link' wakes

/-- A peer that sends a message changes the link only. -/
theorem Reached.peerSend {link : Link} {configs : List Config} (h : Reached link configs w)
    (s : Side) (msg : Bytes) : Reached link configs (w.peerSend s msg).1 := by
  unfold Session.peerSend
  split
  · unfold peerPut
    split
    · exact h.change _ _
    · exact h
  · exact h.change _ _
  · dsimp only
    have hsent := h.change (w.link.send s.opposite peer (.fresh msg)).state
      (w.link.send s.opposite peer (.fresh msg)).wakes
    split
    · exact hsent
    · exact hsent
    · exact hsent.change _ _

/-- A session in which nothing runs. -/
structure Unstaffed (w : Session) : Prop where
  numbered : w.Numbered
  crew : w.crew = []
  runs : ∀ s, ∀ e ∈ w.endpoint? s, e.runs = []

theorem Unstaffed.staffed (h : w.Unstaffed) : w.Staffed w.ready := by
  refine ⟨h.numbered, fun s e he => ?_, fun p hp => ?_⟩
  · have hruns := h.runs s e he
    have hof : w.crewOf s = [] := by
      unfold crewOf
      rw [h.crew]
      rfl
    rw [hof]
    refine ⟨by rw [hruns]; rfl, by rw [hruns]; exact List.nodup_nil, ?_, ?_⟩
    all_goals
      intro r hr
      rw [hruns] at hr
      cases hr
  · rw [h.crew] at hp
    cases hp

theorem Unstaffed.spawn (h : w.Unstaffed) (s : Side) (work : Work) (holds : Bool)
    (hwork : ∀ t, post? (t, ⟨s, work, holds⟩) = none) : (w.spawn s work holds).Unstaffed := by
  refine ⟨h.numbered.spawn s work holds, ?_, fun s' e he => h.runs s' e (by cases s' <;> exact he)⟩
  rw [crew_spawn, hwork, h.crew]
  rfl

/-- An endpoint that is opened gets its loops. -/
theorem Unstaffed.openSide (h : w.Unstaffed) (c : Config) : (w.openSide c).Unstaffed := by
  unfold Session.openSide
  refine Unstaffed.spawn (Unstaffed.spawn ?_ _ _ _ fun _ => rfl) _ _ _ fun _ => rfl
  split
  · refine ⟨⟨h.numbered.tickets, h.numbered.fresh⟩, h.crew, fun s e he => ?_⟩
    cases s with
    | main =>
        obtain rfl := Option.some.inj he
        rfl
    | ext => exact h.runs .ext e he
  · refine ⟨⟨h.numbered.tickets, h.numbered.fresh⟩, h.crew, fun s e he => ?_⟩
    cases s with
    | main => exact h.runs .main e he
    | ext =>
        obtain rfl := Option.some.inj he
        rfl

/-- Endpoints that have just been opened have nothing to do. -/
theorem unstaffed_ofLink (link : Link) (configs : List Config) :
    (ofLink link configs).Unstaffed := by
  refine ofLink_induction ?_ (fun _ c h => h.openSide c) configs
  refine ⟨⟨List.nodup_nil, fun x hx => by cases hx⟩, rfl, fun s e he => ?_⟩
  cases s <;> cases he

/-- **Every session that comes of a link is staffed.** -/
theorem Reached.staffed {link : Link} {configs : List Config} (h : Reached link configs w) :
    w.Staffed w.ready := by
  have hlasting : Lasting fun _ => True :=
    ⟨fun _ _ => trivial, fun _ _ => trivial, fun _ _ => trivial⟩
  exact (hlasting.later ⟨(unstaffed_ofLink link configs).staffed, trivial⟩ h.later).1

end Session

end PeerRpc
