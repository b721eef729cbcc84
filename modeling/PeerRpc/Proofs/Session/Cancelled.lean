import PeerRpc.Proofs.Endpoint.Answers
import PeerRpc.Proofs.Session.Later
import PeerRpc.Service.Kit
import PeerRpc.Session.Peer

/-!
# PeerRpc.Proofs.Session.Cancelled -- what becomes of a handler whose caller cancels

A run that may be aborted is not aborted on the spot. It is made ready, and in its next turn its
handler goes on once more before the run is ended (`exists_endRun_of_stopped`): only if the handler
has come to no outcome by then is the caller told that the request was cancelled. After that turn
the run is over for good (`withdrawn_run`), whoever takes turns in between and whatever they do.

So a handler that waits until it is told to stop is not aborted but answers (`hang_answers`).
-/

namespace PeerRpc

namespace Endpoint

variable {e e' e'' : Endpoint Service} {m : Message}

/-- The answers to requests that wait to be sent. -/
def answers (e : Endpoint Service) : List Outbound := e.outbound.filter Outbound.isReply

/-- A later state of an endpoint, in which this message has been queued to answer a request, and no
other message has. A closed endpoint queues none. -/
def Answers (e e' : Endpoint Service) (m : Message) : Prop :=
  e'.answers = e.answers ++ [{ message := m }] ∨ e'.answers = e.answers ∧ e'.isOpen = false

theorem Minds.answers_eq (h : e.Minds e') : e'.answers = e.answers := by
  obtain ⟨more, hmore, hsilent⟩ := h.outbound
  have hnone : more.filter Outbound.isReply = [] :=
    List.filter_eq_nil_iff.mpr fun o ho => by rw [hsilent o ho]; exact Bool.false_ne_true
  unfold Endpoint.answers
  rw [hmore, List.filter_append, hnone, List.append_nil]

theorem Minds.answers (h : e.Minds e') (h' : e'.Answers e'' m) : e.Answers e'' m := by
  unfold Answers at h' ⊢
  rwa [h.answers_eq] at h'

theorem Answers.minds (h : e.Answers e' m) (h' : e'.Minds e'') : e.Answers e'' m := by
  unfold Answers at h ⊢
  rw [h'.answers_eq]
  exact h.imp_right fun hclosed => ⟨hclosed.1, h'.isOpen hclosed.2⟩

/-- A run that answers a request ends with one answer. -/
theorem answers_finish {serial : Nat} {r : Run Service} {id : RequestId}
    (hr : e.run? serial = some r) (hid : r.request = some id) (o : Outcome) :
    e.Answers (e.finish serial o).1 (o.message id) := by
  have hreply : ({ message := o.message id } : Outbound).isReply = true := by
    rw [← answer_toReply, Outbound.isReply, Outbound.answers?_answer]
    rfl
  rw [finish_of_request hr hid, sendReply, enqueue_fst, answer_toReply]
  unfold Answers Endpoint.answers
  dsimp only
  cases e.isOpen with
  | true =>
      left
      rw [if_pos rfl, List.filter_append, List.filter_singleton, hreply]
      rfl
  | false => exact Or.inr ⟨rfl, rfl⟩

end Endpoint

namespace Session

variable {w w' : Session} {s : Side} {t u : Ticket} {q : List Ticket}

/-! ## The last turn of a handler -/

theorem Quiet.exists_minds (h : w.Quiet w') {e : Endpoint Service} (he : e ∈ w.endpoint? s) :
    ∃ e' ∈ w'.endpoint? s, e.Minds e' := by
  have hrel := h.endpoints s
  rw [show w.endpoint? s = some e from he] at hrel
  generalize w'.endpoint? s = a at hrel ⊢
  cases hrel with
  | some hminds => exact ⟨_, rfl, hminds⟩

theorem Quiet.isStopped (h : w.Quiet w') {serial : Nat} (hstop : w.isStopped s serial = true) :
    w'.isStopped s serial = true := by
  rw [isStopped_eq, Option.any_eq_true] at hstop ⊢
  obtain ⟨e, he, hstop⟩ := hstop
  obtain ⟨e', he', hminds⟩ := h.exists_minds he
  exact ⟨e', he', hminds.toSameRuns.isStopped hstop⟩

/-- What the caller is told of a handler that is to be aborted: its own outcome if it has come to
one, and otherwise that the request was cancelled. -/
def lastWord (id : RequestId) : Came → Message
  | .inr o => o.message id
  | .inl _ => .replyErr id .requestCancelled

/-- **The last turn of a handler.** If it may be aborted and has been told to stop, its handler goes
on once more, and then its run is ended, whether or not the handler has come to an outcome. -/
theorem exists_endRun_of_stopped {run : Run Service} (habort : run.abortable = true)
    (hstop : w.isStopped s run.serial = true) (t : Ticket) (pause : Pause) :
    ∃ w₁ o, w.Quiet w₁ ∧ w.handleTurn t s run pause = w₁.endRun t s run.serial o ∧
      ∀ id, o.message id = lastWord id (w.resume t s run.serial pause).2 := by
  have hresume := (covers_quiet s).resume t run.serial pause w
  unfold Session.handleTurn
  split
  · next w₁ o heq =>
      rw [heq] at hresume ⊢
      exact ⟨w₁, o, hresume, rfl, fun _ => rfl⟩
  · next w₁ pause' heq =>
      rw [heq] at hresume ⊢
      have hboth : (run.abortable && w₁.isStopped s run.serial) = true := by
        rw [habort, hresume.isStopped hstop]
        rfl
      rw [if_pos hboth]
      exact ⟨_, .aborted, hresume.trans ((covers_quiet s).abandon t pause' w₁), rfl, fun _ => rfl⟩

theorem endpoint?_atEndpoint_self {e : Endpoint Service} (he : w.endpoint? s = some e)
    (f : Endpoint Service → Endpoint.Step Service) :
    (w.atEndpoint s f).endpoint? s = some (f e).1 := by
  obtain ⟨p, hp, rfl⟩ := Option.map_eq_some_iff.mp he
  unfold atEndpoint
  rw [hp]
  exact endpoint?_take_self hp _

theorem Staffed.exists_run? (h : w.Staffed q) {p : Post} (hp : p ∈ w.crew) {e : Endpoint Service}
    (he : e ∈ w.endpoint? p.side) :
    ∃ r, e.run? p.run.serial = some r ∧ r.serial < e.nextRun ∧ r.asBegun = p.run := by
  have hmans := h.sides p.side e he
  obtain ⟨r, hr, hrun⟩ := hmans.exists_run (mem_crewOf.mpr ⟨hp, rfl⟩)
  have hserial : r.serial = p.run.serial := by rw [← hrun]; rfl
  exact ⟨r, (Endpoint.run?_eq_some_iff hmans.serials).mpr ⟨hr, hserial⟩, hmans.begun r hr, hrun⟩

/-- A task that ends its run answers the request, and the run is over. -/
theorem Staffed.answers_endRun {p : Post} (h : w.Staffed (p.ticket :: w.ready)) (hp : p ∈ w.crew)
    {id : RequestId} (hid : p.run.request = some id) {e : Endpoint Service}
    (he : e ∈ w.endpoint? p.side) (o : Outcome) :
    ∃ e' ∈ (w.endRun p.ticket p.side p.run.serial o).endpoint? p.side,
      e.Answers e' (o.message id) ∧ e'.Ended p.run.serial := by
  have hback := (quiet_setHolds w p.ticket false).trans (quiet_release _ p.side)
  obtain ⟨e₁, he₁, hminds⟩ := hback.exists_minds he
  obtain ⟨r, hr, hbegun, hrun⟩ := (h.quiet hback).exists_run? (hback.crew.symm ▸ hp) he₁
  have hserial : r.serial = p.run.serial := by rw [← hrun]; rfl
  have hrequest : r.request = some id := (congrArg Run.request hrun).trans hid
  -- nothing is answered before the run is finished, nor afterwards
  have he₂ := endpoint?_atEndpoint_self he₁ fun e => e.finish p.run.serial o
  have hend := quiet_endTask_without
    ((release p.side (w.modifyTask p.ticket fun task => { task with holds := false })).atEndpoint
      p.side fun e => e.finish p.run.serial o) p.ticket p.side
  obtain ⟨e', he', hminds'⟩ := hend.exists_minds he₂
  refine ⟨e', he', ?_, ?_⟩
  · exact (hminds.answers (Endpoint.answers_finish hr hrequest o)).minds hminds'
  · exact hminds'.toSameRuns.follows.ended (Endpoint.ended_finish (hserial ▸ hbegun) o)

/-! ## Runs that are over -/

/-- The run with this number has ended at the endpoint of a side, and no task works on it. -/
structure Over (w : Session) (s : Side) (serial : Nat) : Prop where
  ended : ∃ e ∈ w.endpoint? s, e.Ended serial
  crew : ∀ p ∈ w.crewOf s, p.run.serial ≠ serial

theorem Staffed.over_of_ended (h : w.Staffed q) {e : Endpoint Service} (he : e ∈ w.endpoint? s)
    {serial : Nat} (hend : e.Ended serial) : w.Over s serial := by
  refine ⟨⟨e, he, hend⟩, fun p hp hserial => ?_⟩
  obtain ⟨r, hr, hrun⟩ := (h.sides s e he).exists_run hp
  exact hend.gone r hr ((congrArg Run.serial hrun).trans hserial)

/-- A task that runs a handler, has been told to stop, and is ready. -/
structure Awaits (w : Session) (p : Post) : Prop where
  crew : p ∈ w.crew
  ready : p.ticket ∈ w.ready
  stopped : w.isStopped p.side p.run.serial = true

theorem Numbered.turn_of_handle (h : w.Numbered) {run : Run Service} {pause : Pause} {holds : Bool}
    (hx : (t, ⟨s, .handle run pause, holds⟩) ∈ w.tasks) :
    w.turn t = w.handleTurn t s run pause := by
  have hfind : (w.tasks.find? fun x => x.1 = t) = some (t, ⟨s, .handle run pause, holds⟩) :=
    (find?_key_iff h.tickets).mpr ⟨hx, rfl⟩
  unfold Session.turn
  rw [hfind]

/-- **A task that has been told to stop takes its turn**: the request is answered, and the run is
over. -/
theorem Staffed.answers_turn {p : Post} (h : w.Staffed (p.ticket :: w.ready)) (hp : p ∈ w.crew)
    (habort : p.run.abortable = true) (hstop : w.isStopped p.side p.run.serial = true)
    {id : RequestId} (hid : p.run.request = some id) {pause : Pause} {holds : Bool}
    (hx : (p.ticket, ⟨p.side, .handle p.run pause, holds⟩) ∈ w.tasks) :
    ∃ e ∈ w.endpoint? p.side, ∃ e' ∈ (w.turn p.ticket).endpoint? p.side,
      e.Answers e' (lastWord id (w.resume p.ticket p.side p.run.serial pause).2) ∧
        e'.Ended p.run.serial := by
  obtain ⟨w₁, o, hquiet, hturn, hword⟩ := exists_endRun_of_stopped habort hstop p.ticket pause
  rw [isStopped_eq, Option.any_eq_true] at hstop
  obtain ⟨e, he, -⟩ := hstop
  obtain ⟨e₁, he₁, hminds⟩ := hquiet.exists_minds he
  obtain ⟨e', he', hanswer, hend⟩ :=
    (h.quiet hquiet).answers_endRun (hquiet.crew.symm ▸ hp) hid he₁ o
  rw [← hturn, ← h.numbered.turn_of_handle hx] at he'
  refine ⟨e, he, e', he', ?_, hend⟩
  rw [← hword]
  exact hminds.answers hanswer

/-! ## Whatever happens meanwhile -/

theorem Leads.exists_follows (h : w.Leads w') {e : Endpoint Service} (he : e ∈ w.endpoint? s) :
    ∃ e' ∈ w'.endpoint? s, e.Follows e' := by
  obtain ⟨deeds, hdeeds⟩ := h s
  rw [show w.endpoint? s = some e from he] at hdeeds
  exact ⟨_, hdeeds, e.follows_deeds deeds⟩

/-- Somebody else takes a turn: a task that has been told to stop stays where it is. -/
theorem Staffed.stays {p : Post} (h : w.Staffed (t :: w.ready)) (hp : p ∈ w.crew)
    (hstop : w.isStopped p.side p.run.serial = true) (hne : p.ticket ≠ t) :
    p ∈ (w.turn t).crew ∧ (w.turn t).isStopped p.side p.run.serial = true := by
  have hturned := h.turn
  have hp' := hturned.crew p hp hne
  refine ⟨hp', ?_⟩
  rw [isStopped_eq, Option.any_eq_true] at hstop ⊢
  obtain ⟨e, he, hstop⟩ := hstop
  obtain ⟨e', he', hfollows⟩ := (leads_turn t w).exists_follows he
  have hmans := h.sides p.side e he
  have htold := hfollows.told (Endpoint.told_of_isStopped hmans.serials hmans.begun hstop)
  obtain ⟨r', hr', -, -⟩ := hturned.staffed.exists_run? hp' he'
  exact ⟨e', he', htold.isStopped hr'⟩

/-- What is left for a task that has been told to stop. It waits as long as others take their turns.
When it takes its own its run is over, and the request is answered with the last word of the handler
and with nothing else. -/
structure Parts (w : Session) (p : Post) (id : RequestId) : Prop where
  stays : ∀ t, t ≠ p.ticket → (w.turn t).Awaits p
  ends : (w.turn p.ticket).Over p.side p.run.serial
  answered : ∃ pause holds, (p.ticket, ⟨p.side, .handle p.run pause, holds⟩) ∈ w.tasks ∧
    ∃ e ∈ w.endpoint? p.side, ∃ e' ∈ (w.turn p.ticket).endpoint? p.side,
      e.Answers e' (lastWord id (w.resume p.ticket p.side p.run.serial pause).2)

theorem Staffed.parts {p : Post} (h : w.Staffed w.ready) (hp : p ∈ w.crew)
    (habort : p.run.abortable = true) (hstop : w.isStopped p.side p.run.serial = true)
    {id : RequestId} (hid : p.run.request = some id) : w.Parts p id := by
  obtain ⟨pause, holds, hx, -⟩ := exists_task hp
  obtain ⟨e, he, e', he', hanswer, hend⟩ :=
    (h.but p.ticket).answers_turn hp habort hstop hid hx
  refine ⟨fun t ht => ?_, (h.but p.ticket).turn.staffed.over_of_ended he' hend, pause, holds, hx, e,
    he, e', he', hanswer⟩
  obtain ⟨hp', hstop'⟩ := (h.but t).stays hp hstop (Ne.symm ht)
  exact ⟨hp', (h.but t).turn.staffed.awake p hp' habort hstop', hstop'⟩

/-- **A task that has been told to stop stays where it is, until its run is over.** -/
theorem lasting_parts {p : Post} (habort : p.run.abortable = true) {id : RequestId}
    (hid : p.run.request = some id) : Lasting fun w =>
      p ∈ w.crew ∧ w.isStopped p.side p.run.serial = true ∨
        ∃ e ∈ w.endpoint? p.side, e.Ended p.run.serial where
  quiet h hq := by
    rcases h with ⟨hp, hstop⟩ | ⟨e, he, hend⟩
    · exact Or.inl ⟨hq.crew.symm ▸ hp, hq.isStopped hstop⟩
    · obtain ⟨e', he', hminds⟩ := hq.exists_minds he
      exact Or.inr ⟨e', he', hminds.toSameRuns.follows.ended hend⟩
  queue ready h := by
    generalize p.side = s at h ⊢
    cases s <;> exact h
  turn {w t} hstaffed h := by
    rcases h with ⟨hp, hstop⟩ | ⟨e, he, hend⟩
    · by_cases ht : p.ticket = t
      · subst ht
        obtain ⟨pause, holds, hx, -⟩ := exists_task hp
        obtain ⟨-, -, e', he', -, hend⟩ := hstaffed.answers_turn hp habort hstop hid hx
        exact Or.inr ⟨e', he', hend⟩
      · exact Or.inl (hstaffed.stays hp hstop ht)
    · obtain ⟨e', he', hfollows⟩ := (leads_turn t w).exists_follows he
      exact Or.inr ⟨e', he', hfollows.ended hend⟩

/-! ## A request is withdrawn -/

/-- The request that is withdrawn when task `u` takes its turn, because the task is a reader and
receives a cancel. -/
def withdrawn? (w : Session) (u : Ticket) : Option (Side × RequestId) :=
  match w.tasks.find? fun x => x.1 = u with
  | some (_, ⟨s, .read op, _⟩) =>
    if w.isOpen s then
      match (w.link.recv s u op).progress with
      | .done (.ok frame) =>
        match Codec.decodeMessage frame with
        | .ok (.cancel id) => some (s, id)
        | _ => none
      | _ => none
    else none
  | _ => none

theorem withdrawn?_eq_some {id : RequestId} (h : w.withdrawn? u = some (s, id)) :
    ∃ v op holds frame,
      (w.tasks.find? fun x => x.1 = u) = some (v, ⟨s, .read op, holds⟩) ∧ w.isOpen s = true ∧
        (w.link.recv s u op).progress = .done (.ok frame) ∧
          Codec.decodeMessage frame = .ok (.cancel id) := by
  unfold withdrawn? at h
  split at h
  · next v s' op holds hfind =>
      split at h
      · next hopen =>
          split at h
          · next frame hrecv =>
              split at h
              · next hdecode =>
                  obtain ⟨rfl, rfl⟩ := Prod.mk.inj (Option.some.inj h)
                  exact ⟨v, op, holds, frame, hfind, hopen, hrecv, hdecode⟩
              · cases h
          · cases h
      · cases h
  · cases h

/-- A reader that receives a cancel tells the run to stop that answers the request. -/
theorem endpoint?_turn_of_withdrawn {id : RequestId} (h : w.withdrawn? u = some (s, id))
    {e : Endpoint Service} (he : w.endpoint? s = some e) {r : Run Service}
    (hr : e.runFor? id = some r) : (w.turn u).endpoint? s = some (e.fire r.serial).1 := by
  obtain ⟨v, op, holds, frame, hfind, hopen, hrecv, hdecode⟩ := withdrawn?_eq_some h
  obtain ⟨w₁, he₁, hturn⟩ : ∃ w₁ : Session, w₁.endpoint? s = some e ∧
      w.turn u = (w₁.atEndpoint s fun e => e.receive frame).again u := by
    refine ⟨(w.setLink (w.link.recv s u op).state (w.link.recv s u op).wakes).setWork u
      (.read .fresh), ?_, ?_⟩
    · rw [← he]
      cases s <;> rfl
    · unfold Session.turn
      rw [hfind]
      dsimp only [readTurn]
      rw [if_pos hopen, hrecv]
  have hreceive : e.receive frame = e.fire r.serial := by
    obtain ⟨p, hp, rfl⟩ := Option.map_eq_some_iff.mp he
    have hopen' : p.endpoint.isOpen = true := by
      unfold isOpen at hopen
      rwa [hp] at hopen
    unfold Endpoint.receive
    rw [if_pos hopen', hdecode]
    dsimp only [Endpoint.dispatch]
    rw [hr]
  calc (w.turn u).endpoint? s
      = (w₁.atEndpoint s fun e => e.receive frame).endpoint? s := by
        rw [hturn]
        cases s <;> rfl
    _ = some (e.receive frame).1 := endpoint?_atEndpoint_self he₁ _
    _ = some (e.fire r.serial).1 := by rw [hreceive]

/-- **A request is withdrawn while its handler runs.** If the handler may be aborted, its task is
ready from then on and stays where it is until it takes its turn. In this turn the handler goes on
once more; the request is answered with its outcome if it comes to one, and otherwise with an error
that says that the request was cancelled. Then the run is over for good. -/
theorem withdrawn_run {link : Link} {configs : List Config} (h : Reached link configs w)
    {id : RequestId} (hcancel : w.withdrawn? u = some (s, id)) {e : Endpoint Service}
    (he : w.endpoint? s = some e) {r : Run Service} (hr : e.runFor? id = some r)
    (hcancellable : Handler.isCancellable r.handler r.method = true) :
    ∃ p ∈ w.crew, p.side = s ∧ p.run = r.asBegun ∧ (w.turn u).Awaits p ∧
      ∀ w', (w.turn u).Later w' →
        (w'.Awaits p ∧ w'.Parts p id) ∨ w'.Over s r.serial := by
  have hstaffed := h.staffed
  have hmans := hstaffed.sides s e he
  have hmem : r ∈ e.runs := List.mem_of_find?_eq_some hr
  have hfound := List.find?_some hr
  have hrequest : r.request = some id := of_decide_eq_true hfound
  obtain ⟨p, hpost, hrun⟩ := hmans.exists_post hmem
  obtain ⟨hp, rfl⟩ := mem_crewOf.mp hpost
  have hid : p.run.request = some id := (congrArg Run.request hrun).trans hrequest
  have hserial : p.run.serial = r.serial := by rw [hrun]; rfl
  have habort : p.run.abortable = true := by
    rw [hrun]
    show r.abortable = true
    rw [hmans.terms r hmem, hrequest, hcancellable]
    rfl
  -- the reader, which runs no handler, tells the run to stop
  obtain ⟨v, op, holds, frame, hfind, -⟩ := withdrawn?_eq_some hcancel
  have hidle : w.Idle u := idle_of_find? hstaffed.numbered hfind rfl
  have hturned := (hstaffed.but u).turn
  have hp' := hturned.crew p hp (hidle p hp)
  have hstop : (w.turn u).isStopped p.side p.run.serial = true := by
    rw [isStopped_eq, endpoint?_turn_of_withdrawn hcancel he hr, Option.any_some, hserial]
    exact Endpoint.isStopped_fire hmans.serials hmem
  have hawaits : (w.turn u).Awaits p :=
    ⟨hp', hturned.staffed.awake p hp' habort hstop, hstop⟩
  refine ⟨p, hp, rfl, hrun, hawaits, fun w' hw' => ?_⟩
  obtain ⟨hstaffed', hw'⟩ :=
    (lasting_parts habort hid).later ⟨hturned.staffed, Or.inl ⟨hp', hstop⟩⟩ hw'
  rcases hw' with ⟨hp', hstop⟩ | ⟨e', he', hend⟩
  · exact Or.inl ⟨⟨hp', hstaffed'.awake p hp' habort hstop, hstop⟩,
      hstaffed'.parts hp' habort hstop hid⟩
  · exact Or.inr (hstaffed'.over_of_ended he' (hserial ▸ hend))

/-! ## A handler that waits until it is told to stop -/

/-- The kit of services, hosted on a queue. -/
def hosting : Session :=
  match (ofLink (.memoryPair {}) [.ofSide .ext]).set .ext ⟨⟨6⟩, .ext, "commands"⟩ (.kit "kit") with
  | .ok (w, _) => w.settle
  | .error _ => ofLink (.memoryPair {}) [.ofSide .ext]

/-- A peer has called a method that waits until it is told to stop. -/
def hanging : Session :=
  (hosting.peerSend .ext (Cbor.encodeMessage (.request ⟨1⟩ ⟨6⟩ "hang" []))).1.settle

/-- The peer has cancelled the call. -/
def recalling : Session := (hanging.peerSend .ext (Cbor.encodeMessage (.cancel ⟨1⟩))).1

theorem reached_hosting : Reached (.memoryPair {}) [.ofSide .ext] hosting := by
  unfold hosting
  split
  · next w old hset => exact .next (.next .start (.set hset)) .settle
  · exact .start

theorem reached_recalling : Reached (.memoryPair {}) [.ofSide .ext] recalling :=
  ((reached_hosting.peerSend .ext _).next .settle).peerSend .ext _

theorem withdrawn_run_hang : ∃ e r, Reached (.memoryPair {}) [.ofSide .ext] recalling ∧
    recalling.withdrawn? 1 = some (.ext, ⟨1⟩) ∧ recalling.endpoint? .ext = some e ∧
      e.runFor? ⟨1⟩ = some r ∧ Handler.isCancellable r.handler r.method = true ∧
        ∃ p ∈ recalling.crew, p.side = .ext ∧ p.run = r.asBegun ∧ (recalling.turn 1).Awaits p ∧
          ∀ w', (recalling.turn 1).Later w' →
            (w'.Awaits p ∧ w'.Parts p ⟨1⟩) ∨ w'.Over .ext r.serial := by
  have hcancel : recalling.withdrawn? 1 = some (.ext, ⟨1⟩) := by decide +kernel
  have hruns : ((recalling.endpoint? .ext).bind fun e => e.runFor? ⟨1⟩).any
      (fun r => Handler.isCancellable r.handler r.method) = true := by decide +kernel
  obtain ⟨r, hr, hcancellable⟩ := (Option.any_eq_true _ _).mp hruns
  obtain ⟨e, he, hr⟩ := Option.bind_eq_some_iff.mp hr
  exact ⟨e, r, reached_recalling, hcancel, he, hr, hcancellable,
    withdrawn_run reached_recalling hcancel he hr hcancellable⟩

/-- The handler answers, although it may be aborted and the call has been cancelled. -/
theorem hang_answers : recalling.withdrawn? 1 = some (.ext, ⟨1⟩) ∧
    ((recalling.endpoint? .ext).bind fun e => e.runFor? ⟨1⟩).any
      (fun r => Handler.isCancellable r.handler r.method) = true ∧
    (recalling.settle.peerCollect .ext).2.1 =
      [Cbor.encodeMessage (.reply ⟨1⟩ (.string "hang saw cancel"))] := by decide +kernel

end Session

end PeerRpc
