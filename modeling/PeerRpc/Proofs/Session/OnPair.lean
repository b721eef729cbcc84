import Mathlib.Logic.Relation
import PeerRpc.Proofs.Session.Courses
import PeerRpc.Proofs.Session.Turns

/-!
# PeerRpc.Proofs.Session.OnPair -- a session on a pair in one process is a run of a duo

Whatever users do in a session with two endpoints on a pair, and however its tasks take turns and
its clock moves on, the session shows a duo after some moves (`shows_of_next`): its endpoints are the
endpoints of the duo. So what is true of every run of a duo is true of these sessions, as long as no
endpoint has used up its ids.
-/

namespace PeerRpc

namespace Session

variable {w w' : Session} {d : Duo Service} {s : Side} {t : Ticket}

/-! ## Services, handles and proxies -/

theorem Shows.set (h : w.Shows d) {i : Identifier} {service : Service} {old : Option Service}
    (hset : w.set s i service = .ok (w', old)) : d.Leads w'.Shows := by
  obtain ⟨p, hp, he⟩ := h.exists_party s
  unfold Session.set at hset
  rw [hp] at hset
  dsimp only at hset
  rw [he] at hset
  cases hstep : (d.host s).endpoint.set i service with
  | error err => rw [hstep] at hset; cases hset
  | ok x =>
      rw [hstep] at hset
      obtain ⟨rfl, -⟩ := Prod.mk.inj (Except.ok.inj hset)
      apply Duo.Leads.move (.op s (.set i service)) trivial
      apply Duo.Leads.here
      have hop : (d.host s).operate (.set i service) =
          ({ d.host s with endpoint := x.1 }, []) := by
        simp only [Host.operate, hstep]
      apply h.operate (.set i service) (x.1, []) <;> rw [hop]

theorem Shows.unset (h : w.Shows d) (s : Side) (i : Identifier) :
    d.Leads (w.unset s i).1.Shows := by
  obtain ⟨p, hp, he⟩ := h.exists_party s
  unfold Session.unset
  rw [hp]
  dsimp only
  rw [he]
  apply Duo.Leads.move (.op s (.unset i)) trivial
  apply Duo.Leads.here
  exact h.operate (.unset i) (((d.host s).endpoint.unset i).1, []) rfl rfl rfl rfl rfl

theorem Shows.releaseBoth (h : w.Shows d) : d.Leads ((Session.release .main w).release .ext).Shows :=
  (h.release .main).trans fun _ h' => h'.release .ext

theorem Shows.putProxy (h : w.Shows d) (name : String) (proxy : Side × Identifier) :
    d.Leads (w.putProxy name proxy).Shows := by
  have hnamed : Shows { w with proxies := Keyed.insert name proxy w.proxies } d :=
    h.same ⟨rfl, fun _ => rfl, rfl, rfl, rfl, rfl⟩
  exact hnamed.releaseBoth

theorem Shows.takeProxy (h : w.Shows d) {name : String} {i : Identifier}
    (htake : w.takeProxy name s i = .ok w') : d.Leads w'.Shows := by
  rcases takeProxy_eq_ok htake with rfl | rfl
  · exact Duo.Leads.here h
  · exact h.putProxy name (s, i)

/-! ## Calls under labels -/

/-- A task is started that waits for a call. -/
theorem Shows.spawnAwait (h : w.Shows d) {i : Nat} {c : Caller} (hc : w.callers[i]? = some c) :
    (w.spawnAwait i c.side).Shows d := by
  have hbegun := h.modifyCaller (i := i) (f := fun c => { c with held := false }) (fun _ => rfl)
    fun c hc => (h.sides c.side).callers c (List.mem_of_getElem? hc) rfl
  refine hbegun.spawn (s := c.side) (.awaitCall i false) false hbegun.high ?_
  refine ⟨{ c with held := false }, ?_, rfl⟩
  rw [List.getElem?_modify_eq, hc]
  rfl

theorem caller?_eq_some {label : String} {i : Nat} {c : Caller}
    (h : w.caller? label = some (i, c)) : w.callers[i]? = some c := by
  obtain ⟨j, -, hj⟩ := Option.bind_eq_some_iff.mp h
  obtain ⟨c', hc', heq⟩ := Option.map_eq_some_iff.mp hj
  obtain ⟨rfl, rfl⟩ := Prod.mk.inj heq
  exact hc'

theorem Shows.dropHeld (h : w.Shows d) {i : Nat} {c : Caller}
    (hk : (d.host c.side).Knows c.call)
    (hside : ∀ c', w.callers[i]? = some c' → c'.side = c.side) :
    d.Leads (w.dropHeld i c).Shows := by
  unfold Session.dropHeld
  split
  · have hset := h.setCall (i := i) c.call false fun c' hc' => (hside c' hc').symm ▸ hk
    exact hset.dropCall hk
  · exact Duo.Leads.here h

/-- A call gets its label, and all others keep theirs. -/
theorem Shows.label (h : w.Shows d) {c : Caller} (hk : (d.host c.side).Knows c.call) (hold : Bool)
    (hw : w' = if hold then { w with callers := w.callers ++ [c] }
      else ({ w with callers := w.callers ++ [c] } : Session).spawnAwait w.callers.length c.side) :
    w'.Shows d ∧ ∀ i c₀, w.caller? c.label = some (i, c₀) → (d.host c₀.side).Knows c₀.call ∧
      ∀ c', w'.callers[i]? = some c' → c'.side = c₀.side := by
  have hnew : Shows { w with callers := w.callers ++ [c] } d := by
    apply h.setCallers
    · intro c' hc'
      rcases List.mem_append.mp hc' with hc' | hc'
      · exact (h.sides c'.side).callers c' hc' rfl
      · obtain rfl := List.mem_singleton.mp hc'
        exact hk
    · intro i c' hc'
      refine ⟨c', ?_, rfl⟩
      rw [List.getElem?_append_left (List.getElem?_eq_some_iff.mp hc').1]
      exact hc'
  -- the calls that were made before stay where they are
  have hplace : ∀ i < w.callers.length, w'.callers[i]? = w.callers[i]? := by
    intro i hi
    subst hw
    cases hold with
    | true => exact List.getElem?_append_left hi
    | false =>
        refine (List.getElem?_modify_ne _ _ (Nat.ne_of_gt hi)).trans ?_
        exact List.getElem?_append_left hi
  refine ⟨?_, fun i c₀ hc₀ => ?_⟩
  · subst hw
    cases hold with
    | true => exact hnew
    | false => exact hnew.spawnAwait List.getElem?_concat_length
  · have hc₀ := caller?_eq_some hc₀
    refine ⟨(h.sides c₀.side).callers c₀ (List.mem_of_getElem? hc₀) rfl, fun c' hc' => ?_⟩
    rw [hplace i (List.getElem?_eq_some_iff.mp hc₀).1, hc₀] at hc'
    rw [Option.some.inj hc']

/-- **A call is made under a label**, and whoever had the label before is let go of. -/
theorem Shows.call (h : w.Shows d) (target : Target) (label : String) (shape : Shape)
    (hold : Bool) (method : String) (args : List Value) :
    d.Leads (w.call target label shape hold method args).1.Shows := by
  unfold Session.call
  cases target with
  | proxy s i =>
      apply (h.request s i.id method args).trans
      rintro d₁ ⟨h₁, hk₁⟩
      obtain ⟨hlabel, hformer⟩ := h₁.label (c := ⟨label, s, _, shape, true⟩) hk₁ hold rfl
      dsimp only
      split
      · next j c heq => exact hlabel.dropHeld (hformer j c heq).1 (hformer j c heq).2
      · exact Duo.Leads.here hlabel
  | service s i =>
      apply (h.invoke s i method args).trans
      rintro d₁ ⟨h₁, hk₁⟩
      obtain ⟨hlabel, hformer⟩ := h₁.label (c := ⟨label, s, _, shape, true⟩) hk₁ hold rfl
      dsimp only
      split
      · next j c heq => exact hlabel.dropHeld (hformer j c heq).1 (hformer j c heq).2
      · exact Duo.Leads.here hlabel

theorem Shows.notify (h : w.Shows d) {target : Target} {method : String} {args : List Value}
    (hnotify : w.notify target method args = .ok w') : d.Leads w'.Shows := by
  obtain ⟨p, proxy, step, hp, hstep, rfl⟩ := notify_eq_ok hnotify
  obtain ⟨p', hp', he⟩ := h.exists_party target.side
  obtain rfl := Option.some.inj (hp.symm.trans hp')
  rw [he] at hstep
  apply Duo.Leads.move (.op target.side (.notifyProxy proxy method args)) trivial
  apply Duo.Leads.here
  have hop : (d.host target.side).operate (.notifyProxy proxy method args) =
      (d.host target.side).follow step := by
    simp only [Host.operate, hstep, Host.attempt]
  apply h.operate <;> rw [hop] <;> rfl

theorem Shows.await (h : w.Shows d) (label : String) : (w.await label).Shows d := by
  unfold Session.await
  split
  · next i c hc =>
      split
      · exact h.spawnAwait (caller?_eq_some hc)
      · exact h
  · exact h

theorem Shows.cancelCaller (h : w.Shows d) (label : String) :
    d.Leads (w.cancel label).1.Shows := by
  unfold Session.cancel
  split
  · exact Duo.Leads.here h
  · next i c hc =>
      have hk := (h.sides c.side).callers c (List.mem_of_getElem? (caller?_eq_some hc)) rfl
      obtain ⟨p, hp, he⟩ := h.exists_party c.side
      rw [hp]
      dsimp only
      rw [he]
      exact h.cancel hk

/-- Whoever waits for a call is told that it is to let go of it. -/
theorem Shows.tell {i : Nat} (waiting : List (Ticket × Task)) (h : w.Shows d)
    (hwaiting : ∀ x ∈ waiting, w.Owns x.2.side x.1 ∧ 4 < x.1 ∧
      w.Attends x.2.side (.awaitCall i true)) :
    (waiting.foldl (fun w x => Session.wake [x.1] (w.setWork x.1 (.awaitCall i true))) w).Shows
      d := by
  -- on those who wait: telling one of them leaves the others to be told
  induction waiting generalizing w with
  | nil => exact h
  | cons x rest ih =>
      obtain ⟨hown, hhigh, hattends⟩ := hwaiting x List.mem_cons_self
      have hset := h.goOn hown hhigh (.awaitCall i true) hhigh hattends
      apply ih (hset.same (same_wake _ _))
      intro y hy
      obtain ⟨hown, hhigh, hattends⟩ := hwaiting y (List.mem_cons_of_mem _ hy)
      exact ⟨(hown.setWork x.1 _).of_eq rfl rfl, hhigh, hattends.of_eq rfl⟩

theorem Shows.dropCaller (h : w.Shows d) (label : String) :
    d.Leads (w.dropCaller label).Shows := by
  unfold Session.dropCaller
  split
  · exact Duo.Leads.here h
  · next i c hc =>
      have hc := caller?_eq_some hc
      split
      · apply h.dropHeld
        · exact (h.sides c.side).callers c (List.mem_of_getElem? hc) rfl
        · intro c' hc'
          rw [Option.some.inj (hc.symm.trans hc')]
      · apply Duo.Leads.here
        apply h.tell
        intro x hx
        obtain ⟨t, side, work, holds⟩ := x
        obtain ⟨hmem, hwork⟩ := List.mem_filter.mp hx
        have hdoes := (h.sides side).does _ hmem rfl
        have hattends := (h.sides side).attends _ hmem rfl
        cases work with
        | awaitCall j dropped =>
            obtain rfl : j = i := of_decide_eq_true hwork
            exact ⟨h.owns hmem, hdoes, hattends⟩
        | _ => cases hwork

/-! ## Time -/

/-- A duo in which time has passed at both endpoints. -/
def later (ms : Nat) (d : Duo Service) : Duo Service :=
  d.run [.op .main (.wait ms), .op .ext (.wait ms)]

theorem desk_later (ms : Nat) (d : Duo Service) (s : Side) :
    (later ms d).desk s =
      { d.desk s with chronicle := (d.desk s).chronicle.act (.op (.wait ms)) } := by
  cases s <;> rfl

/-- The clock moves forward. -/
theorem Shows.wait (h : w.Shows d) (ms : Nat) :
    Shows { w with now := w.now + ms } (later ms d) := by
  refine ⟨h.link, h.tickets, h.fresh, h.high, fun s => ?_⟩
  rw [desk_later]
  obtain ⟨hendpoint, hnow, hsound, htidy, hconcluded, hdo, hreader, hwriter, hcallers, hattend⟩ :=
    h.sides s
  refine ⟨hendpoint, ?_, hsound.step _, htidy.step _, ?_, ?_, hreader, hwriter, ?_, hattend⟩
  · show (d.desk s).host.now + ms = w.now + ms
    rw [hnow]
  · intro p hp
    exact (hconcluded p hp).step (.op (.wait ms))
  · intro x hx hs
    exact (hdo x hx hs).run [.op (.wait ms)] fun _ => rfl
  · intro c hc hs
    exact (hcallers c hc hs).step (.op (.wait ms))

/-! ## Runs -/

/-- Some run of a duo has a property, or an endpoint has used up its ids in it. No handler there
fires the signal of its own call. -/
def Runs (l : ChannelLimits) (c : Side → Config) (P : Duo Service → Prop) : Prop :=
  ∃ moves, (∀ m ∈ moves, m.Meets fun o => ∀ serial, o ≠ .stop serial) ∧
    (P ((Duo.ofConfigs l c).run moves) ∨
      ∃ s, (((Duo.ofConfigs l c).run moves).host s).endpoint.nextId = 0)

section Runs

variable {l : ChannelLimits} {c : Side → Config} {P Q : Duo Service → Prop}

/-- A run goes on. -/
theorem Runs.goOn (h : Runs l c P)
    (hPQ : ∀ d, P d → ∃ more, (∀ m ∈ more, m.Meets fun o => ∀ serial, o ≠ .stop serial) ∧
      (Q (d.run more) ∨ ∃ s, ((d.run more).host s).endpoint.nextId = 0)) :
    Runs l c Q := Duo.run_then h hPQ

theorem Runs.leads (h : Runs l c P) (hPQ : ∀ d, P d → d.Leads Q) : Runs l c Q := by
  refine h.goOn fun d hd => ?_
  obtain ⟨more, hmore, hQ⟩ := hPQ d hd
  refine ⟨more, fun m hm => ?_, hQ⟩
  cases m with
  | op s o =>
      rintro serial rfl
      exact hmore _ hm
  | _ => trivial

theorem Runs.mono (h : Runs l c P) (hPQ : ∀ d, P d → Q d) : Runs l c Q :=
  h.leads fun d hd => .here (hPQ d hd)

theorem Runs.later (h : Runs l c P) (ms : Nat) (hPQ : ∀ d, P d → Q (later ms d)) : Runs l c Q := by
  refine h.goOn fun d hd => ⟨_, ?_, Or.inl (hPQ d hd)⟩
  intro m hm
  rcases List.mem_cons.mp hm with rfl | hm
  · nofun
  · obtain rfl := List.mem_singleton.mp hm
    nofun

/-- A session with two endpoints that have just been opened. -/
theorem shows_ofLink (l : ChannelLimits) (hc : ∀ s, (c s).side = s) :
    (ofLink (.memoryPair l) [c .main, c .ext]).Shows (Duo.ofConfigs l c) := by
  have hstart : ofLink (.memoryPair l) [c .main, c .ext] =
      { link := .memoryPair l
        main := some { endpoint := .ofConfig (c .main) }
        ext := some { endpoint := .ofConfig (c .ext) }
        ready := [1, 2, 3, 4]
        nextTicket := 5
        tasks := [(1, ⟨.main, .read .fresh, false⟩), (2, ⟨.main, .write none, false⟩),
          (3, ⟨.ext, .read .fresh, false⟩), (4, ⟨.ext, .write none, false⟩)] } := by
    unfold ofLink openSide
    simp only [List.foldl, hc]
    rfl
  rw [hstart]
  refine ⟨rfl, ?_, ?_, Nat.lt_succ_self 4, fun s => ?_⟩
  · show ([1, 2, 3, 4] : List Nat).Nodup
    decide
  · intro x hx
    have hticket : x.1 ∈ ([1, 2, 3, 4] : List Nat) := List.mem_map_of_mem hx
    have hall : ∀ t ∈ ([1, 2, 3, 4] : List Nat), t < 5 := by decide
    exact hall x.1 hticket
  · refine ⟨by cases s <;> rfl, rfl, Host.sound_ofConfig (c s), Host.tidy_ofConfig (c s), ?_, ?_, ?_,
      ?_, ?_, ?_⟩
    · exact fun p hp => absurd hp List.not_mem_nil
    · intro x hx hs
      subst hs
      simp only [List.mem_cons, List.not_mem_nil, or_false] at hx
      rcases hx with rfl | rfl | rfl | rfl
      · exact And.intro rfl rfl
      · exact ⟨rfl, rfl, rfl⟩
      · exact And.intro rfl rfl
      · exact ⟨rfl, rfl, rfl⟩
    · intro _
      refine ⟨.fresh, false, ?_⟩
      cases s <;> simp [Duo.readerTicket]
    · intro _
      refine ⟨none, false, ?_⟩
      cases s <;> simp [Duo.writerTicket]
    · exact fun p hp => absurd hp List.not_mem_nil
    · intro x hx _
      simp only [List.mem_cons, List.not_mem_nil, or_false] at hx
      rcases hx with rfl | rfl | rfl | rfl <;> trivial

/-- Turns of tasks take no time. -/
theorem keeps_runs (l : ChannelLimits) (c : Side → Config) (T : Nat → Prop) :
    schedule.Keeps fun w => Runs l c fun d => w.Shows d ∧ T w.now where
  turn t w h := by
    refine h.leads fun d ⟨hd, hnow⟩ => ?_
    -- an endpoint keeps the time of the session, and no act of a turn changes it
    have hkept := (hd.turn t).keep (s := .main) (Q := fun h => h.now = (d.host .main).now)
      (fun h a ha hQ => (h.now_step ha).trans hQ) rfl
    refine hkept.mono fun d' ⟨hd', hnow'⟩ => ⟨hd', ?_⟩
    have hsame : (w.turn t).now = w.now :=
      (hd'.sides .main).now.symm.trans (hnow'.trans (hd.sides .main).now)
    show T (w.turn t).now
    rw [hsame]
    exact hnow
  ready r w h := h.mono fun d ⟨hd, hnow⟩ => ⟨hd.same ⟨rfl, fun _ => rfl, rfl, rfl, rfl, rfl⟩, hnow⟩

/-- The clock moves to a time that has not passed. -/
theorem Shows.clock (h : w.Shows d) {now : Nat} (hnow : w.now ≤ now) :
    Shows { w with now := now } (later (now - w.now) d) := by
  have hwait := h.wait (now - w.now)
  rw [Nat.add_sub_cancel' hnow] at hwait
  exact hwait

theorem Runs.settle (h : Runs l c w.Shows) : Runs l c w.settle.Shows := by
  have hsettle := (keeps_runs l c fun _ => True).settle (h.mono fun d hd => ⟨hd, trivial⟩)
  exact hsettle.mono fun d hd => hd.1

/-- The clock stops at every deadline, where tasks take turns. -/
theorem Runs.advance (h : Runs l c w.Shows) (ms : Nat) : Runs l c (w.advance ms).Shows := by
  have hkeeps := keeps_runs l c fun now => now ≤ w.settle.now + ms
  have hlimit : Runs l c fun d => w.settle.Shows d ∧ w.settle.now ≤ w.settle.now + ms :=
    h.settle.mono fun d hd => ⟨hd, Nat.le_add_right _ _⟩
  have hadvance := hkeeps.advanceTo (w.settle.now + ms) ?_ ?_ Schedule.patience hlimit
  · exact hadvance.mono fun d hd => hd.1
  · -- a deadline that has passed does not move the clock back
    intro n w₁ hn h₁
    refine h₁.later (max n w₁.now - w₁.now) fun d ⟨hd, hnow⟩ => ⟨?_, ?_⟩
    · exact hd.clock (Nat.le_max_right n w₁.now)
    · exact Nat.max_le.mpr ⟨hn, hnow⟩
  · -- at the end it moves to its limit
    intro w₁ h₁
    refine h₁.later (w.settle.now + ms - w₁.now) fun d ⟨hd, hnow⟩ => ⟨?_, ?_⟩
    · exact hd.clock hnow
    · exact Nat.le_refl _

/-- **Whatever users do in a session on a pair, a duo does as well.** -/
theorem Runs.next (h : Runs l c w.Shows) (hnext : Next w w') : Runs l c w'.Shows := by
  -- most of what users do changes nothing that a duo has
  have hsame : w.Same w' → Runs l c w'.Shows := fun hw => h.mono fun d hd => hd.same hw
  have hspawn : ∀ s work holds, (∀ k : Desk Service, ∀ t, 4 < t → k.Does s t work) →
      (∀ w : Session, w.Attends s work) → Runs l c (w.spawn s work holds).Shows :=
    fun s work holds hdoes hattends => h.mono fun d hd =>
      hd.spawn work holds (hdoes _ _ hd.high) (hattends w)
  cases hnext with
  | set hset => exact h.leads fun d hd => hd.set hset
  | unset s i => exact h.leads fun d hd => hd.unset s i
  | cloneHandle s => exact hsame (same_modifyParty w s fun _ => rfl)
  | dropHandle s =>
      have hback := same_modifyParty w s (f := fun p => { p with handles := p.handles - 1 })
        fun _ => rfl
      exact h.leads fun d hd => (hd.same hback).release s
  | takeProxy htake => exact h.leads fun d hd => hd.takeProxy htake
  | cloneProxy source name =>
      refine h.leads fun d hd => ?_
      unfold Session.cloneProxy
      split
      · exact Duo.Leads.here hd
      · exact hd.putProxy name _
  | dropProxy name =>
      refine h.leads fun d hd => Shows.releaseBoth (hd.same ?_)
      exact ⟨rfl, fun _ => rfl, rfl, rfl, rfl, rfl⟩
  | call target label shape hold method args =>
      exact h.leads fun d hd => hd.call target label shape hold method args
  | notify hnotify => exact h.leads fun d hd => hd.notify hnotify
  | await label => exact h.mono fun d hd => hd.await label
  | cancel label => exact h.leads fun d hd => hd.cancelCaller label
  | dropCaller label => exact h.leads fun d hd => hd.dropCaller label
  | startClose s => exact hspawn s _ _ (fun _ _ ht => ht) fun _ => trivial
  | startAwaitClosed s => exact hspawn s _ _ (fun _ _ ht => ht) fun _ => trivial
  | startAwaitEnd s => exact hspawn s _ _ (fun _ _ ht => ht) fun _ => trivial
  | openGate name => exact hsame ⟨rfl, fun _ => rfl, rfl, rfl, rfl, rfl⟩
  | newRecord => exact hsame ⟨rfl, fun _ => rfl, rfl, rfl, rfl, rfl⟩
  | turn t => exact h.leads fun d hd => hd.turn t
  | settle => exact h.settle
  | advance ms => exact h.advance ms

/-- **A session on a pair shows a run of a duo**, whatever its users do, in whichever order its tasks
take turns and however its clock moves on, unless an endpoint has used up its ids. -/
theorem shows_of_next (hc : ∀ s, (c s).side = s)
    (h : Relation.ReflTransGen Next (ofLink (.memoryPair l) [c .main, c .ext]) w) :
    Runs l c w.Shows := by
  induction h with
  | refl => exact ⟨[], fun _ hm => absurd hm List.not_mem_nil, Or.inl (shows_ofLink l hc)⟩
  | tail _ hnext ih => exact ih.next hnext

end Runs

end Session

end PeerRpc
