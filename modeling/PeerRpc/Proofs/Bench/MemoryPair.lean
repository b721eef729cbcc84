import PeerRpc.Proofs.Bench.Lanes

/-!
# PeerRpc.Proofs.Bench.MemoryPair -- two memory ends that face each other

What holds of every run of a bench with a memory pair (`messages_pass`). In each direction there is
one order in which sends are first tried, in which their messages enter the queue, and in which they
are received. A receive fails only when nothing is left, in the queue or beside it. Once either end
was closed, or has gone, a send that is started is refused at once and leaves the queues alone.
-/

namespace PeerRpc

namespace Bench

namespace Moment

/-- What the task on an end that takes its turn comes to, if it is done. -/
def ended? (m : Moment) (s : Side) : Option (Ticket × Result) :=
  (m.acting? s).bind fun x => m.after.finished.find? fun y => y.1 = x.1

/-- The messages that enter the queue into which an end sends. One of them may be received at the same
move. -/
def entered (m : Moment) (s : Side) : List Bytes :=
  (((m.ended? s.opposite).bind fun x => x.2.message?).toList ++
    (m.after.pair.outgoing s).messages).drop (m.before.pair.outgoing s).messages.length

end Moment

namespace Journal

variable {j : Journal} {m : Move} {s u : Side} {t n : Ticket} {w : Work} {msg : Bytes}

/-- All messages that have entered the queue into which an end sends, the first first. -/
def entered (j : Journal) (s : Side) : List Bytes := j.past.flatMap fun m => m.entered s

/-- A task has closed an end, or an end has gone. -/
def IsShut (j : Journal) : Prop :=
  j.bench.gone ≠ [] ∨ ∃ s t r, (t, r) ∈ j.results s ∧ j.job? s t = some .close

theorem entered_move : (j.move m).entered s = j.entered s ++ (j.moment m).entered s := by
  show (j.past ++ [j.moment m]).flatMap _ = _
  rw [List.flatMap_append, List.flatMap_singleton]
  rfl

/-! ## What every move keeps -/

/-- What holds of a bench with a memory pair. -/
structure Joined (j : Journal) : Prop where
  tidy : j.Tidy
  link : ∃ p, j.bench.link = .memory p
  sound : j.table.Sound
  lanes : ∀ s, ∃ entered, j.table.Lane s entered ∧ entered.map Prod.snd = j.entered s

theorem table_ofLink (l : ChannelLimits) :
    (ofLink (.memoryPair l)).table = Table.ofLimits l := by
  have hearlier : (ofLink (.memoryPair l)).earlier = fun _ _ => False := by
    funext t u
    refine propext (iff_of_false ?_ not_false)
    rintro ⟨-, -, m, hm, -⟩
    cases hm
  unfold table
  rw [hearlier]
  rfl

theorem joined_ofLink (l : ChannelLimits) : (ofLink (.memoryPair l)).Joined where
  tidy := tidy_ofLink _
  link := ⟨_, rfl⟩
  sound := (table_ofLink l).symm ▸ Table.sound_ofLimits l
  lanes s := ⟨[], (table_ofLink l).symm ▸ Table.lane_ofLimits l s, rfl⟩

/-- What a task has come to at its turn. -/
theorem ended?_tried (h : j.table.Sound) (hw : j.table.doing s t = some w)
    (acting : (j.moment m).acting? s = some (t, w))
    (finished : (j.move m).bench.finished = (j.table.tried s t w).finished) :
    (j.moment m).ended? s =
      (w.tryPair s t j.bench.pair).progress.done?.map fun r => (t, r) := by
  have hold : (j.bench.finished.find? fun y => y.1 = t) = none := by
    rw [List.find?_eq_none]
    intro x hx hxt
    exact h.unended s t w hw (of_decide_eq_true hxt ▸ List.mem_map_of_mem hx)
  unfold Moment.ended?
  rw [acting]
  show ((j.move m).bench.finished.find? fun y => y.1 = t) = _
  rw [finished]
  show (List.find? _ (((w.tryPair s t j.bench.pair).progress.done?.map fun r => (t, r)).toList ++
    j.bench.finished)) = _
  rw [List.find?_append, hold, Option.or_none]
  cases (w.tryPair s t j.bench.pair).progress.done? with
  | none => rfl
  | some r => exact List.find?_cons_of_pos (decide_eq_true rfl)

/-- What tasks have received after a move is what they had received before it, and what the task
whose turn it was receives. -/
theorem Joined.received_move (h : j.Joined) (m : Move) (s : Side) :
    (j.move m).received s =
      j.received s ++ (((j.moment m).ended? s).bind fun x => x.2.message?).toList := by
  obtain ⟨p, hp⟩ := h.link
  obtain ⟨-, d, hmoves, hafter⟩ := moves_table hp h.tidy m
  have hreceived : (j.move m).received s = d.received s := hafter.received s
  have hquiet (hnone : (j.moment m).acting? s = none) : (j.moment m).ended? s = none := by
    unfold Moment.ended?
    rw [hnone]
    rfl
  rw [hreceived]
  cases hmoves with
  | rests quiet =>
      rw [hquiet (quiet s)]
      exact (List.append_nil _).symm
  | begins u t job new quiet =>
      rw [hquiet (quiet s), Table.received_begun h.sound u job new s]
      exact (List.append_nil _).symm
  | leaves u t w runs quiet =>
      rw [hquiet (quiet s)]
      exact (List.append_nil _).symm
  | tries u t w runs acts others =>
      rw [Table.received_tried h.sound runs s]
      by_cases hs : s = u
      · subst hs
        rw [if_pos rfl, ended?_tried h.sound runs acts hafter.finished]
        refine congrArg (fun o : Option Bytes => j.received s ++ o.toList) ?_
        show (w.tryPair s t j.bench.pair).progress.done?.bind Result.message? = _
        rw [Option.bind_map]
        rfl
      · rw [if_neg hs, hquiet (others s hs)]
        rfl

/-- **A move** keeps the order of each direction. -/
theorem Joined.move (h : j.Joined) (m : Move) : (j.move m).Joined := by
  obtain ⟨p, hp⟩ := h.link
  obtain ⟨hlink, d, hmoves, hafter⟩ := moves_table hp h.tidy m
  have hsteps := hmoves.steps.trans hafter.steps
  refine ⟨h.tidy.move m, hlink, h.sound.steps hsteps, fun s => ?_⟩
  obtain ⟨entered, hlane, hentered⟩ := h.lanes s
  obtain ⟨moved, hlane'⟩ := hlane.steps h.sound hsteps
  refine ⟨entered ++ moved, hlane', ?_⟩
  -- what is in the queue or has been received now was there before, but for what has entered
  have hbefore : j.received s.opposite ++ (j.bench.pair.outgoing s).messages =
      entered.map Prod.snd := hlane.passed
  have hnow : (j.move m).received s.opposite ++ ((j.move m).bench.pair.outgoing s).messages =
      (entered ++ moved).map Prod.snd := hlane'.passed
  rw [h.received_move m s.opposite, List.map_append, ← hbefore, List.append_assoc,
    List.append_assoc, List.append_cancel_left_eq] at hnow
  have hmoment : (j.moment m).entered s = moved.map Prod.snd := by
    show List.drop _ (_ ++ ((j.move m).bench.pair.outgoing s).messages) = _
    rw [hnow]
    exact List.drop_left
  rw [entered_move, hmoment, List.map_append, hentered]

theorem Joined.run (h : j.Joined) (moves : List Move) : (j.run moves).Joined := by
  have hall : ∀ m ∈ moves, (fun _ : Move => True) m := fun _ _ => trivial
  exact run_induction h (fun _ m _ hj => hj.move m) hall

/-! ## One direction -/

/-- What a pair has conveyed from an end to the other: the messages of the sends `entered`. -/
structure Conveys (j : Journal) (s : Side) (entered : List (Ticket × Bytes)) : Prop where
  /-- These are the messages that have entered the queue. -/
  whole : entered.map Prod.snd = j.entered s
  sends : ∀ x ∈ entered, j.job? s x.1 = some (.send x.2)
  /-- No send puts its message into the queue twice. -/
  once : (entered.map Prod.fst).Nodup
  /-- The message of a send that was done, or had been taken back, when another send was started
  stands before the other's. -/
  order : ∀ x ∈ entered, ∀ y ∈ entered, j.earlier y.1 x.1 → [x, y].Sublist entered
  /-- Every send that has succeeded is among them. -/
  delivered : ∀ t msg, (t, .ok none) ∈ j.results s → j.job? s t = some (.send msg) →
    (t, msg) ∈ entered
  /-- The other end has received the first of them. -/
  received : j.received s.opposite <+: entered.map Prod.snd
  /-- A receive that fails at its turn finds no message that waits, in the queue or beside it, and
  all that have entered have been received. -/
  emptied : ∀ t err, j.job? s.opposite t = some .recv →
    (j.moment (.turn t)).ended? s.opposite = some (t, .error err) →
    err = .closed ∧ (j.bench.pair.outgoing s).contents = [] ∧
      j.received s.opposite = entered.map Prod.snd

/-- Of two different members that may not stand the other way round, the one stands before the
other. -/
theorem sublist_of_pairwise {α : Type} {R : α → α → Prop} {l : List α} {x y : α}
    (h : l.Pairwise R) (hx : x ∈ l) (hy : y ∈ l) (hne : x ≠ y) (hyx : ¬R y x) :
    [x, y].Sublist l := by
  induction h with
  | nil => cases hx
  | @cons a l ha hl ih =>
      rcases List.mem_cons.mp hx with rfl | hx'
      · have hy' : y ∈ l := (List.mem_cons.mp hy).resolve_left (Ne.symm hne)
        exact (List.singleton_sublist.mpr hy').cons_cons x
      · rcases List.mem_cons.mp hy with rfl | hy'
        · exact absurd (ha x hx') hyx
        · exact (ih hx' hy').cons a

/-- What a task has come to at its turn, if it was not to be taken back. -/
theorem Joined.ended?_turn (h : j.Joined) (hw : j.bench.acting? s t = some w) :
    (j.moment (.turn t)).ended? s =
      (w.tryPair s t j.bench.pair).progress.done?.map fun r => (t, r) := by
  obtain ⟨p, hp⟩ := h.link
  obtain ⟨-, hafter⟩ := table_turn hp hw
  exact ended?_tried h.sound (doing?_of_acting? hw) (congrArg (Option.map fun w => (t, w)) hw)
    hafter.finished

/-- What a failed receive has come to, and what it found. -/
theorem Joined.emptied (h : j.Joined) {err : TransportError}
    (hjob : j.job? s.opposite t = some .recv)
    (hended : (j.moment (.turn t)).ended? s.opposite = some (t, .error err)) :
    err = .closed ∧ (j.bench.pair.outgoing s).contents = [] := by
  obtain ⟨x, hx, -⟩ := Option.bind_eq_some_iff.mp hended
  obtain ⟨w, hw, -⟩ := Option.map_eq_some_iff.mp hx
  rw [h.ended?_turn hw] at hended
  obtain ⟨job, hjob', hserves⟩ := h.sound.works _ t w (doing?_of_acting? hw)
  obtain rfl : job = .recv := Option.some.inj (hjob'.symm.trans hjob)
  obtain ⟨op, rfl⟩ := hserves.recv
  obtain ⟨r, hr, hpair⟩ := Option.map_eq_some_iff.mp hended
  obtain rfl : r = .error err := congrArg Prod.snd hpair
  have hdone : (Memory.recv s.opposite t op.onPair j.bench.pair).progress.done?.map
      (fun r => r.map some) = some (.error err) := (Progress.done?_map ..).symm.trans hr
  have hend : j.bench.pair.incoming s.opposite = j.bench.pair.outgoing s := by
    show j.bench.pair.outgoing s.opposite.opposite = _
    rw [Side.opposite_opposite]
  cases Memory.fetched_recv (hend ▸ h.sound.orderly s) t op.onPair with
  | message msg moved hprogress =>
      rw [hprogress] at hdone
      cases hdone
  | closed hprogress hempty =>
      rw [hprogress] at hdone
      cases hdone
      exact ⟨rfl, hend ▸ hempty⟩
  | waits op' hprogress =>
      rw [hprogress] at hdone
      cases hdone

theorem Joined.conveys (h : j.Joined) (s : Side) : ∃ entered, j.Conveys s entered := by
  obtain ⟨entered, hlane, hentered⟩ := h.lanes s
  have hpassed : j.received s.opposite ++ (j.bench.pair.outgoing s).messages =
      entered.map Prod.snd := hlane.passed
  have hadmits := hlane.admits.sublist (List.sublist_append_left _ _)
  refine ⟨entered, hentered, hadmits.jobs, hadmits.once, fun x hx y hy hxy => ?_,
    fun t msg ht hjob => ?_, ?_, fun t err hjob hended => ?_⟩
  · refine sublist_of_pairwise hadmits.order hx hy ?_ (not_not.mpr hxy)
    rintro rfl
    exact h.sound.later _ hxy
  · exact hlane.delivered t msg (List.mem_filter.mp ht).1 hjob
  · exact ⟨_, hpassed⟩
  · obtain ⟨hclosed, hempty⟩ := h.emptied hjob hended
    refine ⟨hclosed, hempty, ?_⟩
    rw [← hpassed, (List.append_eq_nil_iff.mp hempty).1, List.append_nil]

/-! ## After an end was closed or has gone -/

/-- What becomes of the sends that are started at the `n`th move or later. -/
structure Refuses (j : Journal) (n : Nat) : Prop where
  results : ∀ s t msg r, n ≤ t → j.job? s t = some (.send msg) → (t, r) ∈ j.results s →
    r = .error .closed
  /-- One that takes its turn is done at once. -/
  atOnce : ∀ s t msg w, n ≤ t → j.job? s t = some (.send msg) → j.bench.acting? s t = some w →
    (j.moment (.turn t)).ended? s = some (t, .error .closed)
  /-- Nothing enters a queue then, or joins those that wait beside it. -/
  nothing : ∀ s t msg w, n ≤ t → j.job? s t = some (.send msg) → j.bench.acting? s t = some w →
    ∀ e, ((j.move (.turn t)).bench.pair.outgoing e).messages =
        (j.bench.pair.outgoing e).messages ∧
      ((j.move (.turn t)).bench.pair.outgoing e).senders = (j.bench.pair.outgoing e).senders

theorem Joined.late (h : j.Joined) (hshut : j.IsShut) : j.table.Late j.past.length := by
  have hold {s : Side} {t : Ticket} {msg : Bytes} (hn : j.past.length ≤ t) :
      j.table.jobs s t ≠ some (.send msg) := by
    intro hjob
    have hknown : (j.job? s t).isSome = true := by
      rw [show j.job? s t = some (.send msg) from hjob]
      rfl
    exact absurd (lt_of_job? hknown) (Nat.not_lt.mpr hn)
  refine ⟨h.sound.shut (hshut.imp_right ?_), fun s t msg w hn hjob => absurd hjob (hold hn),
    fun s t msg r hn hjob => absurd hjob (hold hn)⟩
  rintro ⟨s, t, r, hr, hjob⟩
  exact ⟨s, t, r, (List.mem_filter.mp hr).1, hjob⟩

theorem Joined.refuses (h : j.Joined) (hlate : j.table.Late n) : j.Refuses n := by
  obtain ⟨p, hp⟩ := h.link
  have htried {s : Side} {t : Ticket} {msg : Bytes} {w : Work} (hn : n ≤ t)
      (hjob : j.job? s t = some (.send msg)) (hw : j.bench.acting? s t = some w) :
      w.tryPair s t j.bench.pair = .done j.bench.pair (.error .closed) [] := by
    rw [hlate.fresh s t msg w hn hjob (doing?_of_acting? hw)]
    exact Work.tryPair_of_fired hlate.fired msg
  refine ⟨fun s t msg r hn hjob hr => ?_, fun s t msg w hn hjob hw => ?_,
    fun s t msg w hn hjob hw e => ?_⟩
  · exact hlate.refused s t msg r hn hjob (List.mem_filter.mp hr).1
  · rw [h.ended?_turn hw, htried hn hjob hw]
    rfl
  · have hpair : (j.table.tried s t w).pair = j.bench.pair :=
      congrArg Try.state (htried hn hjob hw)
    have hafter : (j.move (.turn t)).table.pair = j.bench.pair ∨
        ∃ u, (j.move (.turn t)).table.pair = (j.bench.pair.drop u).1 := by
      rcases (table_turn hp hw).2 with hd | ⟨u, hd⟩
      · rw [hd]
        exact Or.inl hpair
      · rw [hd]
        exact Or.inr ⟨u, congrArg (fun p => (p.drop u).1) hpair⟩
    rcases hafter with hd | ⟨u, hd⟩
    · have hsame : (j.move (.turn t)).bench.pair = j.bench.pair := hd
      rw [hsame]
      exact ⟨rfl, rfl⟩
    · have hsame : (j.move (.turn t)).bench.pair = (j.bench.pair.drop u).1 := hd
      rw [hsame]
      exact (Memory.passes_drop h.sound.orderly u e).same

theorem Joined.late_run (h : j.Joined) (hlate : j.table.Late n) (moves : List Move) :
    (j.run moves).Joined ∧ (j.run moves).table.Late n := by
  have hall : ∀ m ∈ moves, (fun _ : Move => True) m := fun _ _ => trivial
  refine run_induction (P := fun j => j.Joined ∧ j.table.Late n) ⟨h, hlate⟩ ?_ hall
  rintro k m - ⟨hk, hlatek⟩
  obtain ⟨p, hp⟩ := hk.link
  obtain ⟨-, d, hmoves, hafter⟩ := moves_table hp hk.tidy m
  exact ⟨hk.move m, hlatek.steps hk.sound (hmoves.steps.trans hafter.steps)⟩

/-- If an end is shut, all sends that are started from now on are refused. -/
def StaysShut (j : Journal) : Prop :=
  j.IsShut → ∀ moves, (j.run moves).Refuses j.past.length

end Journal

/-- **Messages pass in order** between two memory ends, whatever tasks send, receive and close there,
whichever of them are taken back, whichever ends are let go of, and in whatever order the tasks take
their turns; and an end that is shut stays shut. -/
theorem messages_pass (l : ChannelLimits) (moves : List Move) :
    (∀ s, ∃ entered, ((Journal.ofLink (.memoryPair l)).run moves).Conveys s entered) ∧
      ((Journal.ofLink (.memoryPair l)).run moves).StaysShut := by
  have hjoined := (Journal.joined_ofLink l).run moves
  refine ⟨hjoined.conveys, fun hshut later => ?_⟩
  obtain ⟨hlater, hlate⟩ := hjoined.late_run (hjoined.late hshut) later
  exact hlater.refuses hlate

/-- There is room for one message. The second send is taken back while it waits; the third waits
behind it and is let in by the receive. -/
example :
    let j := (Journal.ofLink (.memoryPair { queueCapacity := 1 })).run
      [.start .main (.send [1]), .start .main (.send [2]), .turn 0, .turn 1,
        .start .main (.send [3]), .turn 4, .abort 1, .turn 1, .start .ext .recv, .turn 8]
    j.entered .main = [[1], [3]] ∧ j.received .ext = [[1]] := by decide +kernel

end Bench

end PeerRpc
