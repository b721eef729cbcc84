import PeerRpc.Proofs.Bench.Seats

/-!
# PeerRpc.Proofs.Bench.Desks -- the desks of a bench

`Journal.desk` takes the desk of a side out of a bench with its past. Whatever happens on the bench
is some steps of the desk of each side that has a stream end (`Journal.steps_run`): what the tasks of
the side do are its own steps, and what happens elsewhere only uses its pipes. So what every step of
a desk keeps holds of every run of a bench.

A task at its turn first does something at its end and then, if it is done, may be the last one on an
end that was let go of. `Bench.Turned` is the first half, and `Bench.steps_release` the second.
-/

namespace PeerRpc

theorem Side.eq_opposite {s u : Side} (h : u ≠ s) : u = s.opposite := by
  cases s with
  | main =>
      cases u with
      | main => exact absurd rfl h
      | ext => rfl
  | ext =>
      cases u with
      | main => rfl
      | ext => exact absurd rfl h

theorem Side.opposite_ne (s : Side) : s.opposite ≠ s := by
  cases s <;> decide

namespace Bench

open Function (update update_self update_of_ne update_eq_self)

variable {b b' b₁ : Bench} {s u : Side} {t : Ticket} {e e' : Stream.End} {a : Account}
variable {severs spoils : Prop} {n? : Option Stream.Work} {r? : Option Result}
variable {g : Stream.End → Stream.End}

/-- The desk of a side, with the account of what has happened there. -/
def desk (b : Bench) (s : Side) (a : Account) : Desk where
  toAccount := a
  fin := b.endOf s
  now := b.now
  gone := b.gone.contains s
  works := b.work? s
  results := b.finished.filter fun x => (a.jobs x.1).isSome

theorem endOf_eq (h : b.link.streamEnd? s = some e) : b.endOf s = e := by
  unfold endOf
  rw [h]
  rfl

/-- What is allowed to happen: an outbound pipe is only severed from outside if `severs`, and a look
at what arrives only fails if `spoils`. -/
def Move.Allowed (severs spoils : Prop) : Move → Prop
  | outside .sever => severs
  | outside (.spoil _) => spoils
  | _ => True

/-! ## Letting go -/

/-- What letting go of an end does not change. -/
structure Alike (e e' : Stream.End) : Prop where
  output : e'.output = e.output
  capacity : e'.outbound.capacity = e.outbound.capacity
  outbound : e'.outbound.content = e.outbound.content
  inbound : e'.inbound.content = e.inbound.content

theorem Alike.refl (e : Stream.End) : Alike e e := ⟨rfl, rfl, rfl, rfl⟩

theorem Alike.isStalled (h : Alike e e') : e'.isStalled = e.isStalled := by
  unfold Stream.End.isStalled
  rw [h.output, h.capacity, h.outbound]

/-- The end that faces another one cuts both pipes: it ends one stream, and takes nothing from the
other any more. -/
theorem Desk.steps_cut (d : Desk) (h : severs) : Desk.Steps severs spoils d { d with
    fin := { d.fin with
      inbound := d.fin.inbound.closeWrite.1
      outbound := d.fin.outbound.closeRead.1 } } := by
  have hended : Stream.Around d.fin { d.fin with inbound := d.fin.inbound.closeWrite.1 } [] :=
    ⟨rfl, ⟨(List.append_nil _).symm, fun _ => rfl, fun _ => rfl⟩, ⟨0, rfl⟩, rfl⟩
  have hfirst : Desk.Step severs spoils d _ := .around _ _ hended
  rw [List.append_nil] at hfirst
  exact (Relation.ReflTransGen.single hfirst).tail (.severs h)

/-- An end that is neither held nor used is let go of. -/
def Idle (b : Bench) (u : Side) : Prop :=
  ¬(b.held.contains u || b.gone.contains u || b.tasks.any fun t => t.2.side = u) = true

theorem release_of_idle (h : b.Idle u) : b.release u = wake (b.link.drop u).2
    { b with link := (b.link.drop u).1, gone := u :: b.gone } := if_neg h

theorem desk_release (h : b.Idle u) (hend : (b.release u).endOf s = e') :
    (b.release u).desk s a =
      { b.desk s a with fin := e', gone := (u :: b.gone).contains s } := by
  subst hend
  rw [release_of_idle h]
  rfl

theorem Idle.works (h : b.Idle u) (t : Ticket) : b.work? u t = none := by
  unfold Idle at h
  simp only [Bool.or_eq_true, List.any_eq_true, decide_eq_true_eq, not_or, not_exists] at h
  cases hx : b.tasks.find? fun x => x.1 = t with
  | none =>
      unfold work?
      rw [hx]
      rfl
  | some x =>
      rw [work?_of_find? hx]
      exact if_neg fun hside => h.2 x ⟨List.mem_of_find?_eq_some hx, hside⟩

/-- An end that is let go of cuts both pipes. -/
theorem steps_release_own (spoils : Prop) (h : b.Idle s) (hs : b.link.Seats severs s e) (a : Account) :
    (b.release s).link.Seats severs s e.drop.1 ∧
      Desk.Steps severs spoils (b.desk s a) ((b.release s).desk s a) := by
  have hlink : (b.release s).link = b.link.act s fun e => e.drop.1 := by
    rw [release_of_idle h]
    exact Link.drop_eq hs.streams s
  have hs' := hs.act fun e => e.drop.1
  rw [← hlink] at hs'
  refine ⟨hs', .single ?_⟩
  have hcontains : (s :: b.gone).contains s = true := by simp
  rw [desk_release h (endOf_eq hs'.own), hcontains, ← endOf_eq hs.own]
  exact .falls h.works

/-- The end that faces an end, if there is one, is let go of. -/
theorem steps_release_opposite (h : b.Idle s.opposite) (hs : b.link.Seats severs s e)
    (a : Account) : ∃ e', (b.release s.opposite).link.Seats severs s e' ∧ Alike e e' ∧
      Desk.Steps severs spoils (b.desk s a) ((b.release s.opposite).desk s a) := by
  have hlink : (b.release s.opposite).link = b.link.act s.opposite fun e => e.drop.1 := by
    rw [release_of_idle h]
    exact Link.drop_eq hs.streams s.opposite
  have hcontains : (s.opposite :: b.gone).contains s = b.gone.contains s := by
    simp [(Side.opposite_ne s).symm]
  cases hf : b.link.streamEnd? s.opposite with
  | none =>
      rw [Link.act_of_none hf] at hlink
      have hs' : (b.release s.opposite).link.Seats severs s e := hlink ▸ hs
      refine ⟨e, hs', .refl e, ?_⟩
      rw [desk_release h (endOf_eq hs'.own), hcontains, ← endOf_eq hs.own]
      exact .refl
  | some f =>
      obtain ⟨hsevers, hin, hout⟩ := hs.other f hf
      have hs' := hs.act_opposite hf fun e => e.drop.1
      have hcut : { e with inbound := f.drop.1.outbound, outbound := f.drop.1.inbound } =
          { e with inbound := e.inbound.closeWrite.1, outbound := e.outbound.closeRead.1 } := by
        rw [hin, hout]
        rfl
      rw [← hlink, hcut] at hs'
      refine ⟨_, hs', ⟨rfl, rfl, rfl, rfl⟩, ?_⟩
      rw [desk_release h (endOf_eq hs'.own), hcontains, ← endOf_eq hs.own]
      exact Desk.steps_cut _ hsevers

/-- **Letting go of an end**, if it is neither held nor used. -/
theorem steps_release (spoils : Prop) (hs : b.link.Seats severs s e) (u : Side) (a : Account) :
    ∃ e',
    (b.release u).link.Seats severs s e' ∧ Alike e e' ∧
      Desk.Steps severs spoils (b.desk s a) ((b.release u).desk s a) := by
  by_cases hidle : b.Idle u
  · by_cases hu : u = s
    · subst hu
      obtain ⟨hs', hsteps⟩ := steps_release_own spoils hidle hs a
      exact ⟨_, hs', ⟨rfl, rfl, rfl, rfl⟩, hsteps⟩
    · obtain rfl := Side.eq_opposite hu
      exact steps_release_opposite hidle hs a
  · have hsame : b.release u = b := if_pos (not_not.mp hidle)
    rw [hsame]
    exact ⟨e, hs, .refl e, .refl⟩

/-! ## Turns -/

/-- A bench after a task on an end has done something there at its turn, before the end is let go of
for want of tasks. -/
structure Turned (b b₁ : Bench) (t : Ticket) (u : Side) (g : Stream.End → Stream.End)
    (n? : Option Stream.Work) (r? : Option Result) : Prop where
  link : b₁.link = b.link.act u g
  now : b₁.now = b.now
  gone : b₁.gone = b.gone
  own : b₁.work? u = update (b.work? u) t n?
  others : ∀ s, s ≠ u → b₁.work? s = b.work? s
  finished : b₁.finished = (r?.map fun r => (t, r)).toList ++ b.finished

/-- A task that is no more is on no end. -/
theorem Turned.without {x : Ticket × Task} (hx : (b.tasks.find? fun x => x.1 = t) = some x)
    (htasks : b₁.tasks = b.tasks.filter fun x => x.1 ≠ t)
    (link : b₁.link = b.link.act x.2.side g) (now : b₁.now = b.now) (gone : b₁.gone = b.gone)
    (finished : b₁.finished = (r?.map fun r => (t, r)).toList ++ b.finished) :
    Turned b b₁ t x.2.side g none r? := by
  have hwork (s : Side) : b₁.work? s = update (b.work? s) t none := by
    funext v
    have hsame : b₁.work? s v = work? { b with tasks := b.tasks.filter fun x => x.1 ≠ t } s v := by
      unfold work?
      rw [htasks]
    rw [hsame, work?_filter, Function.update_apply]
  refine ⟨link, now, gone, hwork _, fun s hs => ?_, finished⟩
  have hnone : b.work? s t = none := by
    rw [work?_of_find? hx]
    exact if_neg (Ne.symm hs)
  rw [hwork s, ← hnone]
  exact update_eq_self _ _

/-- What the task came to is a result on its end. -/
theorem Turned.results (h : Turned b b₁ t u g n? r?) {jobs : Ticket → Option Job}
    (hjob : (jobs t).isSome = true) : (b₁.finished.filter fun x => (jobs x.1).isSome) =
      (r?.map fun r => (t, r)).toList ++ b.finished.filter fun x => (jobs x.1).isSome := by
  rw [h.finished, List.filter_append]
  cases r? with
  | none => rfl
  | some r => exact congrArg (· ++ _) (List.filter_eq_self.mpr (by simpa using hjob))

theorem Turned.desk_own (h : Turned b b₁ t s g n? r?) (hs : b.link.Seats severs s e)
    (hjob : (a.jobs t).isSome = true) : b₁.desk s a =
      { b.desk s a with
        fin := g e
        works := update (b.work? s) t n?
        results := (r?.map fun r => (t, r)).toList ++ (b.desk s a).results } := by
  have hs₁ := hs.act g
  rw [← h.link] at hs₁
  unfold desk
  rw [endOf_eq hs₁.own, h.now, h.gone, h.own, h.results hjob]

theorem Turned.desk_other (h : Turned b b₁ t u g n? r?) (hu : u ≠ s) (hjob : a.jobs t = none) :
    b₁.desk s a = { b.desk s a with fin := b₁.endOf s } := by
  have hresults : (b₁.finished.filter fun x => (a.jobs x.1).isSome) =
      b.finished.filter fun x => (a.jobs x.1).isSome := by
    rw [h.finished, List.filter_append]
    cases r? with
    | none => rfl
    | some r =>
        refine (congrArg (· ++ _) (List.filter_eq_nil_iff.mpr ?_)).trans (List.nil_append _)
        simp [hjob]
  unfold desk
  rw [h.now, h.gone, h.others s (Ne.symm hu), hresults]

/-- A task that goes on stays on its end. -/
theorem Turned.goesOn {x : Ticket × Task} (hx : (b.tasks.find? fun x => x.1 = t) = some x)
    {l : Link} (link : l = b.link.act x.2.side g) {wakes : List Ticket} {w : Work} :
    Turned b ((wake wakes { b with link := l }).setWork t w) t x.2.side g (some w.onStream)
      none := by
  have hwork (s : Side) : ((wake wakes { b with link := l }).setWork t w).work? s =
      update (b.work? s) t ((b.work? s t).map fun _ => w.onStream) := by
    funext v
    rw [Function.update_apply]
    exact work?_setWork w
  refine ⟨link, rfl, rfl, ?_, fun s hs => ?_, rfl⟩
  · have hsome : b.work? x.2.side t = some x.2.work.onStream := by
      rw [work?_of_find? hx]
      exact if_pos rfl
    rw [hwork, hsome]
    rfl
  · have hnone : b.work? s t = none := by
      rw [work?_of_find? hx]
      exact if_neg (Ne.symm hs)
    rw [hwork, hnone, Option.map_none, ← hnone]
    exact update_eq_self _ _

theorem acting?_release : (b.release u).acting? s t = b.acting? s t := by
  unfold release
  split <;> rfl

/-- **A task that is taken back** leaves its end. -/
theorem turned_of_aborted {x : Ticket × Task} (hx : (b.tasks.find? fun x => x.1 = t) = some x)
    (haborted : x.2.aborted = true) (hstreams : b.link.Streams) : ∃ b₁,
    Turned b b₁ t x.2.side (fun e => (x.2.work.onStream.abandon t e).1) none none ∧
      b.turn t = b₁.release x.2.side := by
  obtain ⟨wakes, habandon⟩ := abandon_eq hstreams t x.2
  rw [turn_of_aborted hx haborted, habandon]
  exact ⟨{ wake wakes { b with link := _ } with tasks := b.tasks.filter fun x => x.1 ≠ t },
    Turned.without hx rfl rfl rfl rfl rfl, rfl⟩

/-- **A task at its turn** tries once at its end. -/
theorem turned_of_acting {x : Ticket × Task} (hx : (b.tasks.find? fun x => x.1 = t) = some x)
    (haborted : x.2.aborted = false) (hstreams : b.link.Streams) : ∃ b₁ n? r?,
    Turned b b₁ t x.2.side (fun e => (x.2.work.onStream.attempt b.now t e).state) n? r? ∧
      (b.turn t = b₁ ∨ b.turn t = b₁.release x.2.side) ∧
      (b₁.acting? x.2.side t).isNone = r?.isSome ∧
      ∀ e, b.link.streamEnd? x.2.side = some e →
        n? = x.2.work.onStream.next? b.now t e ∧ r? = x.2.work.onStream.result? b.now t e := by
  have hstate := Work.state_tryOn hstreams b.now x.2.side t x.2.work
  have hprogress (e : Stream.End) (he : b.link.streamEnd? x.2.side = some e) :=
    Work.progress_tryOn he b.now t x.2.work
  rw [turn_of_acting hx haborted]
  generalize x.2.work.tryOn b.now x.2.side t b.link = r at hstate hprogress ⊢
  obtain ⟨l, wakes, progress⟩ := r
  cases progress with
  | pending w =>
      refine ⟨(wake wakes { b with link := l }).setWork t w, some w.onStream, none,
        Turned.goesOn hx hstate, Or.inl rfl, ?_, hprogress⟩
      have hacting : ((wake wakes { b with link := l }).acting? x.2.side t).isSome = true := by
        show (b.acting? x.2.side t).isSome = true
        rw [acting?_of_find? hx, if_pos ⟨rfl, haborted⟩]
        rfl
      exact Option.isNone_eq_false_iff.mpr (acting?_setWork w hacting)
  | done r =>
      refine ⟨{ wake wakes { b with link := l } with
          finished := (t, r) :: b.finished
          tasks := b.tasks.filter fun x => x.1 ≠ t }, none, some r,
        Turned.without hx rfl hstate rfl rfl rfl, Or.inr rfl, ?_, hprogress⟩
      exact congrArg Option.isNone (acting?_filter (b := b) (s := x.2.side) (t := t))

/-! ## What passes at a turn -/

theorem passed_of_drained {p p' : Pipe} (h : p.Drained p') :
    p'.content.drop p.content.length = [] := by
  rcases h.content with hsame | hnil
  · rw [hsame]
    exact List.drop_length
  · rw [hnil]
    exact List.drop_nil

theorem passed_of_fed {p p' : Pipe} {bs : Bytes} (h : p.Fed p' bs) :
    p'.content.drop p.content.length = bs := by
  rw [h.content, List.drop_left]

theorem passed_of_taken {p p' : Pipe} (h : ∃ n, p'.content = p.content.drop n) :
    p'.content.drop p.content.length = [] := by
  obtain ⟨n, hn⟩ := h
  rw [hn, List.drop_drop]
  exact List.drop_eq_nil_of_le (Nat.le_add_left _ _)

namespace Moment

variable {m : Moment} {e₁ e₂ : Stream.End}

theorem carried_of (before : m.before.link.streamEnd? s = some e)
    (after : m.after.link.streamEnd? s = some e₂) (h : Alike e₁ e₂) :
    m.carried s = e₁.outbound.content.drop e.outbound.content.length := by
  unfold carried
  rw [endOf_eq before, endOf_eq after, h.outbound]

theorem arrived_of (before : m.before.link.streamEnd? s = some e)
    (after : m.after.link.streamEnd? s = some e₂) (h : Alike e₁ e₂) :
    m.arrived s = e₁.inbound.content.drop e.inbound.content.length := by
  unfold arrived
  rw [endOf_eq before, endOf_eq after, h.inbound]

end Moment

/-! ## Journals -/

namespace Journal

variable {j : Journal} {m : Move}

/-- What a move comes to. -/
def moment (j : Journal) (m : Move) : Moment := ⟨j.bench, m, j.bench.move j.past.length m⟩

/-- The account of what has happened at the end of a side. -/
def account (j : Journal) (s : Side) : Account where
  jobs := j.job? s
  carried := j.carried s
  arrived := j.arrived s
  obtained := j.obtained s
  closers := j.closers s
  stalled := j.stalled s

/-- The desk of a side. -/
def desk (j : Journal) (s : Side) : Desk := j.bench.desk s (j.account s)

theorem job?_length : j.job? s j.past.length = none := by
  cases hjob : j.job? s j.past.length with
  | none => rfl
  | some job => exact absurd (lt_of_job? (hjob ▸ rfl : (j.job? s _).isSome = true)) (Nat.lt_irrefl _)

/-- A move gives a ticket to the task that it starts. -/
theorem job?_move : (j.move m).job? s = update (j.job? s) j.past.length
    ((j.moment m).started?.bind fun x => if x.1 = s then some x.2 else none) := by
  funext t
  by_cases ht : t = j.past.length
  · rw [ht, update_self]
    exact job?_move_length
  · rw [update_of_ne ht]
    by_cases hlt : t < j.past.length
    · exact job?_move_of_lt hlt
    · have hnone {k : Journal} (hlength : k.past.length ≤ t) : k.job? s t = none := by
        cases hjob : k.job? s t with
        | none => rfl
        | some job =>
            have hsome : (k.job? s t).isSome = true := by rw [hjob]; rfl
            exact absurd (lt_of_job? hsome) (Nat.not_lt.mpr hlength)
      have hlength : (j.move m).past.length = j.past.length + 1 := List.length_append
      have hgreater : j.past.length < t := Nat.lt_of_le_of_ne (Nat.not_lt.mp hlt) (Ne.symm ht)
      have hbefore : j.job? s t = none := hnone (Nat.le_of_lt hgreater)
      have hafter : (j.move m).job? s t = none := hnone (hlength.symm ▸ hgreater)
      rw [hbefore, hafter]

theorem job?_move_of_none
    (h : ((j.moment m).started?.bind fun x => if x.1 = s then some x.2 else none) = none) :
    (j.move m).job? s = j.job? s := by
  rw [job?_move, h, ← job?_length (j := j) (s := s)]
  exact update_eq_self _ _

theorem carried_move : (j.move m).carried s = j.carried s ++ (j.moment m).carried s := by
  show (j.past ++ [j.moment m]).flatMap _ = _
  rw [List.flatMap_append, List.flatMap_singleton]
  rfl

theorem arrived_move : (j.move m).arrived s = j.arrived s ++ (j.moment m).arrived s := by
  show (j.past ++ [j.moment m]).flatMap _ = _
  rw [List.flatMap_append, List.flatMap_singleton]
  rfl

theorem turns_move {p : Moment → Ticket → Work → Bool} : (j.move m).turns s p =
    j.turns s p ++ (((j.moment m).acting? s).bind fun x =>
      if p (j.moment m) x.1 x.2 then some (x.1, j.bench.now) else none).toList := by
  show (j.past ++ [j.moment m]).filterMap _ = _
  rw [List.filterMap_append]
  refine congrArg (j.turns s p ++ ·) ?_
  rw [List.filterMap_cons]
  split <;> next h => exact (congrArg Option.toList h).symm

/-- A move at which no task on an end takes its turn. -/
theorem account_quiet (acting : (j.moment m).acting? s = none)
    (carried : (j.moment m).carried s = []) : (j.move m).account s =
      { j.account s with
        jobs := (j.move m).job? s
        arrived := j.arrived s ++ (j.moment m).arrived s } := by
  unfold account obtained closers stalled
  rw [carried_move, carried, arrived_move, turns_move, turns_move, turns_move, acting]
  simp only [Option.bind_none, Option.toList_none, List.append_nil]

/-- A move at which a task on an end takes its turn. -/
theorem account_acting {w : Work} (jobs : (j.move m).job? s = j.job? s)
    (acting : (j.moment m).acting? s = some (t, w)) (arrived : (j.moment m).arrived s = []) :
    (j.move m).account s =
      { j.account s with
        carried := j.carried s ++ (j.moment m).carried s
        obtained := j.obtained s ++
          if w.onStream.obtains t (j.bench.endOf s) then [(t, j.bench.now)] else []
        closers := j.closers s ++
          if w.onStream.marks (j.bench.endOf s) then [(t, j.bench.now)] else []
        stalled := j.stalled s ++
          if ((j.moment m).after.acting? s t).isNone && ((j.moment m).after.endOf s).isStalled then
            [(t, j.bench.now)] else [] } := by
  have htoList (c : Bool) : (if c then some (t, j.bench.now) else none).toList =
      if c then [(t, j.bench.now)] else [] := by
    cases c <;> rfl
  unfold account obtained closers stalled
  rw [jobs, carried_move, arrived_move, arrived, turns_move, turns_move, turns_move, acting]
  simp only [Option.bind_some, htoList, List.append_nil]
  rfl

/-- A move at which nothing passes and no task on an end takes its turn. -/
theorem account_still {e₂ : Stream.End} (acting : (j.moment m).acting? s = none)
    (before : j.bench.link.streamEnd? s = some e)
    (after : (j.move m).bench.link.streamEnd? s = some e₂) (h : Alike e e₂) :
    (j.move m).account s = { j.account s with jobs := (j.move m).job? s } := by
  have harrived : (j.moment m).arrived s = [] :=
    (Moment.arrived_of before after h).trans List.drop_length
  have hcarried : (j.moment m).carried s = [] :=
    (Moment.carried_of before after h).trans List.drop_length
  rw [account_quiet acting hcarried, harrived, List.append_nil]
  rfl

/-- A move that changes nothing on the bench. -/
theorem steps_nothing (hs : j.bench.link.Seats severs s e) (bench : (j.move m).bench = j.bench)
    (jobs : (j.move m).job? s = j.job? s) (acting : (j.moment m).acting? s = none) : ∃ e',
    (j.move m).bench.link.Seats severs s e' ∧
      Desk.Steps severs spoils (j.desk s) ((j.move m).desk s) := by
  have hs' : (j.move m).bench.link.Seats severs s e := bench.symm ▸ hs
  refine ⟨e, hs', ?_⟩
  unfold desk
  rw [account_still acting hs.own hs'.own (.refl e), jobs, bench]
  exact .refl

/-! ## The turn of a task -/

theorem Tidy.job_of_find? {x : Ticket × Task} (h : j.Tidy)
    (hx : (j.bench.tasks.find? fun x => x.1 = t) = some x) :
    (j.job? x.2.side t).isSome = true := by
  have ht : x.1 = t := by simpa using List.find?_some hx
  exact ht ▸ h.tasks x (List.mem_of_find?_eq_some hx)

theorem job?_turn : (j.move (.turn t)).job? s = j.job? s := job?_move_of_none rfl

theorem moment_acting_of_none (h : j.bench.acting? s t = none) :
    (j.moment (.turn t)).acting? s = none := by
  show (j.bench.acting? s t).map _ = none
  rw [h]
  rfl

/-- A bench after a turn, and after its end is let go of if need be. -/
theorem steps_after (spoils : Prop) (hs : b₁.link.Seats severs s e)
    (hor : b' = b₁ ∨ b' = b₁.release u) (a : Account) : ∃ e', b'.link.Seats severs s e' ∧ Alike e e' ∧
      Desk.Steps severs spoils (b₁.desk s a) (b'.desk s a) := by
  rcases hor with rfl | rfl
  · exact ⟨e, hs, .refl e, .refl⟩
  · exact steps_release spoils hs u a

/-- **A task that tries** on an end. -/
theorem steps_tries {x : Ticket × Task} (h : j.Tidy) (hs : j.bench.link.Seats severs s e)
    (hx : (j.bench.tasks.find? fun x => x.1 = t) = some x) (hside : x.2.side = s)
    (haborted : x.2.aborted = false) : ∃ e',
    (j.move (.turn t)).bench.link.Seats severs s e' ∧
      Desk.Steps severs spoils (j.desk s) ((j.move (.turn t)).desk s) := by
  subst hside
  have hend : j.bench.endOf x.2.side = e := endOf_eq hs.own
  have hjob := h.job_of_find? hx
  have hacting : j.bench.acting? x.2.side t = some x.2.work := by
    rw [acting?_of_find? hx]
    exact if_pos ⟨rfl, haborted⟩
  have hwork : j.bench.work? x.2.side t = some x.2.work.onStream := by
    rw [work?_of_find? hx]
    exact if_pos rfl
  obtain ⟨b₁, n?, r?, hturned, hor, hdone, hcomes⟩ := turned_of_acting hx haborted hs.streams
  obtain ⟨rfl, rfl⟩ := hcomes e hs.own
  obtain ⟨moved, huses⟩ := Stream.uses_attempt j.bench.now t e x.2.work.onStream
  have hs₁ := hs.act fun e => (x.2.work.onStream.attempt j.bench.now t e).state
  rw [← hturned.link] at hs₁
  obtain ⟨e₂, hs₂, halike, hsteps⟩ := steps_after spoils hs₁ hor
    ((j.move (.turn t)).account x.2.side)
  refine ⟨e₂, hs₂, .head ?_ hsteps⟩
  have harrived : (j.moment (.turn t)).arrived x.2.side = [] := by
    rw [Moment.arrived_of hs.own hs₂.own halike]
    exact passed_of_drained huses.inbound
  have hcarried : (j.moment (.turn t)).carried x.2.side = _ :=
    Moment.carried_of hs.own hs₂.own halike
  have hmoment : (j.moment (.turn t)).acting? x.2.side = some (t, x.2.work) :=
    congrArg (Option.map fun w => (t, w)) hacting
  have hafter : ((j.moment (.turn t)).after.acting? x.2.side t).isNone =
      (x.2.work.onStream.result? j.bench.now t e).isSome := by
    rw [← hdone]
    show ((j.bench.turn t).acting? x.2.side t).isNone = _
    rcases hor with hor | hor
    · rw [hor]
    · rw [hor, acting?_release]
  have hstalled : ((j.moment (.turn t)).after.endOf x.2.side).isStalled =
      (x.2.work.onStream.attempt j.bench.now t e).state.isStalled := by
    have hfin : (j.moment (.turn t)).after.endOf x.2.side = e₂ := endOf_eq hs₂.own
    rw [hfin, halike.isStalled]
  have htried : b₁.desk x.2.side ((j.move (.turn t)).account x.2.side) =
      (j.desk x.2.side).tried t x.2.work.onStream := by
    rw [account_acting job?_turn hmoment harrived, hturned.desk_own hs hjob, hcarried, hafter,
      hstalled, hend]
    unfold Desk.tried desk Bench.desk
    rw [hend]
    rfl
  rw [htried]
  exact .tries t _ hwork

/-- **A task that is taken back** on an end. -/
theorem steps_leaves {x : Ticket × Task} (hs : j.bench.link.Seats severs s e) (h : j.Tidy)
    (hx : (j.bench.tasks.find? fun x => x.1 = t) = some x) (hside : x.2.side = s)
    (haborted : x.2.aborted = true) : ∃ e',
    (j.move (.turn t)).bench.link.Seats severs s e' ∧
      Desk.Steps severs spoils (j.desk s) ((j.move (.turn t)).desk s) := by
  subst hside
  have hend : j.bench.endOf x.2.side = e := endOf_eq hs.own
  have hjob := h.job_of_find? hx
  have hacting : j.bench.acting? x.2.side t = none := by
    rw [acting?_of_find? hx]
    refine if_neg fun hno => ?_
    rw [haborted] at hno
    exact nomatch hno.2
  have hwork : j.bench.work? x.2.side t = some x.2.work.onStream := by
    rw [work?_of_find? hx]
    exact if_pos rfl
  obtain ⟨b₁, hturned, hor⟩ := turned_of_aborted hx haborted hs.streams
  have huses := Stream.uses_abandon t e x.2.work.onStream
  have hs₁ := hs.act fun e => (x.2.work.onStream.abandon t e).1
  rw [← hturned.link] at hs₁
  obtain ⟨e₂, hs₂, halike, hsteps⟩ := steps_after spoils hs₁ (Or.inr hor)
    ((j.move (.turn t)).account x.2.side)
  refine ⟨e₂, hs₂, .head ?_ hsteps⟩
  have harrived : (j.moment (.turn t)).arrived x.2.side = [] := by
    rw [Moment.arrived_of hs.own hs₂.own halike]
    exact passed_of_drained huses.inbound
  have hcarried : (j.moment (.turn t)).carried x.2.side = [] := by
    rw [Moment.carried_of hs.own hs₂.own halike]
    exact passed_of_fed huses.outbound
  have hleft : b₁.desk x.2.side ((j.move (.turn t)).account x.2.side) =
      { j.desk x.2.side with
        fin := (x.2.work.onStream.abandon t (j.desk x.2.side).fin).1
        works := update (j.desk x.2.side).works t none } := by
    have hfin : (j.desk x.2.side).fin = e := hend
    rw [account_quiet (moment_acting_of_none hacting) hcarried, job?_turn, harrived,
      List.append_nil, hturned.desk_own hs hjob, hfin]
    rfl
  rw [hleft]
  exact .leaves t _ hwork

/-- Others use the pipes. -/
theorem step_used {e₁ e₂ : Stream.End} {moved : Bytes} (jobs : (j.move m).job? s = j.job? s)
    (acting : (j.moment m).acting? s = none) (before : j.bench.link.streamEnd? s = some e)
    (after : (j.move m).bench.link.streamEnd? s = some e₂) (around : Stream.Around e e₁ moved)
    (h : Alike e₁ e₂)
    (used : ∀ a : Account, a.jobs = j.job? s → b₁.desk s a = { j.bench.desk s a with fin := e₁ }) :
    Desk.Step severs spoils (j.desk s) (b₁.desk s ((j.move m).account s)) := by
  have hend : (j.desk s).fin = e := endOf_eq before
  have harrived : (j.moment m).arrived s = moved := by
    rw [Moment.arrived_of before after h]
    exact passed_of_fed around.inbound
  have hcarried : (j.moment m).carried s = [] := by
    rw [Moment.carried_of before after h]
    exact passed_of_taken around.outbound
  have hdesk : b₁.desk s ((j.move m).account s) =
      { j.desk s with fin := e₁, arrived := (j.desk s).arrived ++ moved } := by
    rw [used _ jobs, account_quiet acting hcarried, harrived, jobs]
    rfl
  rw [hdesk]
  exact .around e₁ moved (hend.symm ▸ around)

/-- **A turn on the other end** only uses the pipes. -/
theorem steps_facing {x : Ticket × Task} (hs : j.bench.link.Seats severs s e) (h : j.Tidy)
    (hx : (j.bench.tasks.find? fun x => x.1 = t) = some x) (hside : x.2.side ≠ s)
    (hturned : j.bench.Turned b₁ t x.2.side g n? r?)
    (hor : j.bench.turn t = b₁ ∨ j.bench.turn t = b₁.release x.2.side)
    (huses : ∀ f, ∃ moved, Stream.Uses f (g f) moved) : ∃ e',
    (j.move (.turn t)).bench.link.Seats severs s e' ∧
      Desk.Steps severs spoils (j.desk s) ((j.move (.turn t)).desk s) := by
  have hjob : j.job? s t = none := by
    cases hjob : j.job? s t with
    | none => rfl
    | some job => exact absurd (side_unique (h.job_of_find? hx) (hjob ▸ rfl)) hside
  have hacting : j.bench.acting? s t = none := by
    rw [acting?_of_find? hx]
    exact if_neg fun hno => hside hno.1
  obtain ⟨e₁, moved, hs₁, haround⟩ : ∃ e₁ moved, b₁.link.Seats severs s e₁ ∧
      Stream.Around e e₁ moved := by
    rw [hturned.link, Side.eq_opposite hside]
    cases hf : j.bench.link.streamEnd? s.opposite with
    | none =>
        rw [Link.act_of_none hf]
        exact ⟨e, [], hs, .refl e⟩
    | some f =>
        obtain ⟨moved, huses⟩ := huses f
        obtain ⟨-, hin, hout⟩ := hs.other f hf
        exact ⟨_, moved, hs.act_opposite hf g, huses.around hin hout⟩
  obtain ⟨e₂, hs₂, halike, hsteps⟩ := steps_after spoils hs₁ hor
    ((j.move (.turn t)).account s)
  refine ⟨e₂, hs₂, .head ?_ hsteps⟩
  refine step_used job?_turn (moment_acting_of_none hacting) hs.own hs₂.own haround halike ?_
  intro a ha
  rw [hturned.desk_other hside (by rw [ha, hjob]), endOf_eq hs₁.own]

/-- **A turn** is some steps of every desk. -/
theorem steps_turn (hs : j.bench.link.Seats severs s e) (h : j.Tidy) (t : Ticket) : ∃ e',
    (j.move (.turn t)).bench.link.Seats severs s e' ∧
      Desk.Steps severs spoils (j.desk s) ((j.move (.turn t)).desk s) := by
  cases hx : j.bench.tasks.find? fun x => x.1 = t with
  | none =>
      have hacting : j.bench.acting? s t = none := by
        unfold acting?
        rw [hx]
        rfl
      exact steps_nothing hs (turn_of_none hx) job?_turn (moment_acting_of_none hacting)
  | some x =>
      cases haborted : x.2.aborted with
      | false =>
          by_cases hside : x.2.side = s
          · exact steps_tries h hs hx hside haborted
          · obtain ⟨b₁, n?, r?, hturned, hor, -⟩ := turned_of_acting hx haborted hs.streams
            exact steps_facing hs h hx hside hturned hor fun f => Stream.uses_attempt _ t f _
      | true =>
          by_cases hside : x.2.side = s
          · exact steps_leaves hs h hx hside haborted
          · obtain ⟨b₁, hturned, hor⟩ := turned_of_aborted hx haborted hs.streams
            exact steps_facing hs h hx hside hturned (Or.inr hor) fun f =>
              ⟨[], Stream.uses_abandon t f _⟩

/-- What a task comes to at its turn is what it comes to at its end. -/
theorem results_turn {w : Work} (h : j.Tidy) (hs : j.bench.link.Seats severs s e)
    (hacting : j.bench.acting? s t = some w) : (j.move (.turn t)).results s =
      ((w.onStream.result? j.bench.now t e).map fun r => (t, r)).toList ++ j.results s := by
  obtain ⟨x, hx, rfl, haborted, rfl⟩ := exists_of_acting? hacting
  have hjob := h.job_of_find? hx
  obtain ⟨b₁, n?, r?, hturned, hor, -, hcomes⟩ := turned_of_acting hx haborted hs.streams
  obtain ⟨-, rfl⟩ := hcomes e hs.own
  have hfinished : (j.move (.turn t)).bench.finished = b₁.finished := by
    show (j.bench.turn t).finished = _
    rcases hor with hor | hor
    · rw [hor]
    · rw [hor]
      unfold release
      split <;> rfl
  unfold results
  rw [hfinished, job?_turn]
  exact hturned.results hjob

/-! ## The other moves -/

theorem bench_start {u : Side} (hheld : j.bench.held.contains u = true) (job : Job) :
    (j.move (.start u job)).bench = wake [j.past.length]
      { j.bench with tasks := j.bench.tasks ++ [(j.past.length, ⟨u, job.work, false⟩)] } :=
  if_pos hheld

theorem job?_start {u : Side} (hheld : j.bench.held.contains u = true) (job : Job) (s : Side) :
    (j.move (.start u job)).job? s =
      update (j.job? s) j.past.length (if u = s then some job else none) := by
  have hstarted : (j.moment (.start u job)).started? = some (u, job) := if_pos hheld
  rw [job?_move, hstarted]
  rfl

/-- The next ticket is that of no task. -/
theorem Tidy.ne_length (h : j.Tidy) : ∀ x ∈ j.bench.tasks, x.1 ≠ j.past.length := fun x hx =>
  Nat.ne_of_lt (lt_of_job? (h.tasks x hx))

/-- A task that starts gets the next ticket, and nothing else changes. -/
theorem desk_start (hs : j.bench.link.Seats severs s e) (h : j.Tidy) {u : Side} (job : Job)
    (hheld : j.bench.held.contains u = true) :
    (j.move (.start u job)).bench.link.Seats severs s e ∧ (j.move (.start u job)).desk s =
      { j.desk s with
        jobs := update (j.job? s) j.past.length (if u = s then some job else none)
        works :=
          update (j.bench.work? s) j.past.length (if u = s then some job.onStream else none) } := by
  have hbench := bench_start hheld job
  have hs' : (j.move (.start u job)).bench.link.Seats severs s e := by
    rw [hbench]
    exact hs
  have hworks : (j.move (.start u job)).bench.work? s =
      update (j.bench.work? s) j.past.length (if u = s then some job.onStream else none) := by
    funext v
    rw [hbench, Function.update_apply]
    exact work?_start h.ne_length job.work
  have hresults : (j.bench.finished.filter fun x =>
        (update (j.job? s) j.past.length (if u = s then some job else none) x.1).isSome) =
      j.bench.finished.filter fun x => (j.job? s x.1).isSome := by
    refine List.filter_congr fun x hx => ?_
    rw [update_of_ne (Nat.ne_of_lt (h.finished x hx))]
  refine ⟨hs', ?_⟩
  unfold desk Bench.desk
  rw [account_still (m := .start u job) rfl hs.own hs'.own (.refl e), job?_start hheld, hworks,
    hbench]
  exact congrArg (Desk.mk _ _ _ _ _) hresults

/-- **A start** of a task, on the same end or another. -/
theorem steps_start (hs : j.bench.link.Seats severs s e) (h : j.Tidy) (u : Side) (job : Job) :
    ∃ e', (j.move (.start u job)).bench.link.Seats severs s e' ∧
      Desk.Steps severs spoils (j.desk s) ((j.move (.start u job)).desk s) := by
  by_cases hheld : j.bench.held.contains u = true
  · obtain ⟨hs', hdesk⟩ := desk_start hs h job hheld
    refine ⟨e, hs', ?_⟩
    rw [hdesk]
    by_cases hu : u = s
    · subst hu
      rw [if_pos rfl, if_pos rfl]
      refine .single (.begins _ job job?_length ?_)
      show j.bench.gone.contains u = false
      rw [List.contains_eq_mem, decide_eq_false_iff_not]
      exact fun hgone => (h.gone u hgone).1 (List.contains_iff_mem.mp hheld)
    · -- on another end, the ticket is no more known here than before
      have hjob : j.job? s j.past.length = none := job?_length
      have hwork : j.bench.work? s j.past.length = none := by
        unfold work?
        rw [List.find?_eq_none.mpr]
        · rfl
        · intro x hx
          simpa using h.ne_length x hx
      have hsame : update (j.job? s) j.past.length none = j.job? s := hjob ▸ update_eq_self _ _
      have hsame' : update (j.bench.work? s) j.past.length none = j.bench.work? s :=
        hwork ▸ update_eq_self _ _
      rw [if_neg hu, if_neg hu, hsame, hsame']
      exact .refl
  · have hbench : (j.move (.start u job)).bench = j.bench := if_neg hheld
    have hstarted : (j.moment (.start u job)).started? = none := if_neg hheld
    exact steps_nothing hs hbench (job?_move_of_none (by rw [hstarted]; rfl)) rfl

/-- A task that is to be taken back goes on until its turn. -/
theorem steps_abort (hs : j.bench.link.Seats severs s e) (t : Ticket) : ∃ e',
    (j.move (.abort t)).bench.link.Seats severs s e' ∧
      Desk.Steps severs spoils (j.desk s) ((j.move (.abort t)).desk s) := by
  refine ⟨e, hs, ?_⟩
  have hworks : (j.bench.abort t).work? s = j.bench.work? s := funext fun v => work?_abort
  have hsame : (j.move (.abort t)).desk s = j.desk s := by
    unfold desk
    rw [account_still (m := .abort t) rfl hs.own hs.own (.refl e), job?_move_of_none rfl]
    exact congrArg (fun works => { j.desk s with works := works }) hworks
  rw [hsame]

theorem steps_letGo (hs : j.bench.link.Seats severs s e) (u : Side) : ∃ e',
    (j.move (.letGo u)).bench.link.Seats severs s e' ∧
      Desk.Steps severs spoils (j.desk s) ((j.move (.letGo u)).desk s) := by
  obtain ⟨e', hs', halike, hsteps⟩ := steps_release spoils
    (b := { j.bench with held := j.bench.held.filter (· ≠ u) }) hs u (j.account s)
  refine ⟨e', hs', ?_⟩
  have haccount : (j.move (.letGo u)).account s = j.account s := by
    rw [account_still (m := .letGo u) rfl hs.own hs'.own halike, job?_move_of_none rfl]
    rfl
  unfold desk
  rw [haccount]
  exact hsteps

theorem steps_wait (hs : j.bench.link.Seats severs s e) (ms : Nat) : ∃ e',
    (j.move (.wait ms)).bench.link.Seats severs s e' ∧
      Desk.Steps severs spoils (j.desk s) ((j.move (.wait ms)).desk s) := by
  refine ⟨e, hs, ?_⟩
  have hdesk : (j.move (.wait ms)).desk s = { j.desk s with now := (j.desk s).now + ms } := by
    unfold desk
    rw [account_still (m := .wait ms) rfl hs.own hs.own (.refl e), job?_move_of_none rfl]
    rfl
  rw [hdesk]
  exact .single (.waits ms)

/-- What happens on the other side of the pipes only uses them, or severs one, or spoils a look. -/
theorem around_apply (e : Stream.End) {o : Outside} (hsever : o ≠ .sever)
    (hspoil : ∀ text, o ≠ .spoil text) : ∃ bs, Stream.Around e (o.apply e).1 bs := by
  cases o with
  | supply bs =>
      by_cases hcut : e.inbound.cut = true
      · have hsame : (Outside.supply bs).apply e = (e, []) := if_pos hcut
        rw [hsame]
        exact ⟨[], .refl e⟩
      · have hput : (Outside.supply bs).apply e = _ := if_neg hcut
        rw [hput]
        exact ⟨bs, rfl, ⟨rfl, fun hno => absurd hno hcut, id⟩, ⟨0, rfl⟩, rfl⟩
  | finish => exact ⟨[], rfl, ⟨(List.append_nil _).symm, fun _ => rfl, fun _ => rfl⟩, ⟨0, rfl⟩, rfl⟩
  | spoil text => exact absurd rfl (hspoil text)
  | serve n capacity => exact ⟨[], rfl, .refl _, ⟨n, rfl⟩, rfl⟩
  | sever => exact absurd rfl hsever

/-- **What happens outside** happens to the only end. -/
theorem steps_outside (hs : j.bench.link.Seats severs s e) {o : Outside}
    (allowed : (Move.outside o).Allowed severs spoils) : ∃ e',
    (j.move (.outside o)).bench.link.Seats severs s e' ∧
      Desk.Steps severs spoils (j.desk s) ((j.move (.outside o)).desk s) := by
  have hjobs : (j.move (.outside o)).job? s = j.job? s := job?_move_of_none rfl
  by_cases hbare : j.bench.link = .bare s e
  · have hbench : (j.move (.outside o)).bench =
        wake (o.apply e).2 { j.bench with link := .bare s (o.apply e).1 } := by
      show j.bench.outside o = _
      unfold outside
      rw [hbare]
    have hs' : (j.move (.outside o)).bench.link.Seats severs s (o.apply e).1 := by
      rw [hbench]
      refine ⟨if_pos rfl, fun f hf => ?_⟩
      exact absurd (Link.eq_of_streamEnd?_bare hf) (Side.opposite_ne s).symm
    have hdesk (a : Account) : (j.move (.outside o)).bench.desk s a =
        { j.bench.desk s a with fin := (o.apply e).1 } := by
      unfold Bench.desk
      rw [endOf_eq hs'.own, hbench]
      rfl
    have hend : (j.desk s).fin = e := endOf_eq hs.own
    refine ⟨_, hs', .single ?_⟩
    have hstill (halike : Alike e (o.apply e).1) : (j.move (.outside o)).desk s =
        { j.desk s with fin := (o.apply e).1 } := by
      unfold desk
      rw [hdesk, account_still rfl hs.own hs'.own halike, hjobs]
      rfl
    by_cases hsever : o = .sever
    · subst hsever
      rw [hstill ⟨rfl, rfl, rfl, rfl⟩, ← hend]
      exact .severs allowed
    · by_cases hspoil : ∃ text, o = .spoil text
      · obtain ⟨text, rfl⟩ := hspoil
        rw [hstill ⟨rfl, rfl, rfl, rfl⟩, ← hend]
        exact .spoils allowed text
      · obtain ⟨bs, haround⟩ := around_apply e hsever fun text hno => hspoil ⟨text, hno⟩
        exact step_used hjobs rfl hs.own hs'.own haround (.refl _) fun a _ => hdesk a
  · refine steps_nothing hs ?_ hjobs rfl
    show j.bench.outside o = _
    unfold outside
    split
    · next s' f hlink =>
        have hown := hs.own
        rw [hlink] at hown hbare
        obtain rfl := Link.eq_of_streamEnd?_bare hown
        have hf : (Link.bare s' f).streamEnd? s' = some f := if_pos rfl
        rw [hf] at hown
        exact absurd (congrArg (Link.bare s') (Option.some.inj hown)) hbare
    · rfl

/-! ## Runs -/

/-- **A move** is some steps of the desk of a side. -/
theorem steps_move (hs : j.bench.link.Seats severs s e) (h : j.Tidy)
    (allowed : m.Allowed severs spoils) : ∃ e', (j.move m).bench.link.Seats severs s e' ∧
      Desk.Steps severs spoils (j.desk s) ((j.move m).desk s) := by
  cases m with
  | start u job => exact steps_start hs h u job
  | turn t => exact steps_turn hs h t
  | abort t => exact steps_abort hs t
  | letGo u => exact steps_letGo hs u
  | wait ms => exact steps_wait hs ms
  | outside o => exact steps_outside hs allowed

/-- **A run** is some steps of the desk of each side that has a stream end. -/
theorem steps_run (hs : j.bench.link.Seats severs s e) (h : j.Tidy) {moves : List Move}
    (allowed : ∀ m ∈ moves, m.Allowed severs spoils) :
    (j.run moves).Tidy ∧ (∃ e', (j.run moves).bench.link.Seats severs s e') ∧
      Desk.Steps severs spoils (j.desk s) ((j.run moves).desk s) := by
  refine run_induction (P := fun k => k.Tidy ∧ (∃ e', k.bench.link.Seats severs s e') ∧
    Desk.Steps severs spoils (j.desk s) (k.desk s)) ⟨h, ⟨e, hs⟩, .refl⟩ ?_ allowed
  rintro k m hm ⟨htidy, ⟨e', hs'⟩, hsteps⟩
  obtain ⟨e'', hs'', hmore⟩ := steps_move hs' htidy hm
  exact ⟨htidy.move m, ⟨e'', hs''⟩, hsteps.trans hmore⟩

end Journal

end Bench

end PeerRpc
