import PeerRpc.Proofs.Session.Handlers
import PeerRpc.Proofs.Session.Loops

/-!
# PeerRpc.Proofs.Session.Turns -- a turn of a task is a number of moves

Whichever task takes its turn, the session that comes of it shows a duo to which the moves of a turn
lead (`Shows.turn`). What is left to say is said here, of those who close an endpoint and of those
who wait for one or for a call.
-/

namespace PeerRpc

namespace Session

variable {w w' : Session} {d : Duo Service} {s : Side} {t : Ticket}

/-! ## Who waits for which call -/

theorem Attends.hear {work : Work} (h : w.Attends s work) (s' : Side) (x : Event Service) :
    (Session.hear s' w x).Attends s work := by
  cases work with
  | awaitCall i dropped =>
      obtain ⟨c, hc, hside⟩ := h
      cases x with
      | settled id r =>
          refine ⟨c.hear s' (.settled id r), ?_, ?_⟩
          · show (w.callers.map _)[i]? = _
            rw [List.getElem?_map, hc]
            rfl
          · rw [← hside]
            unfold Caller.hear
            split <;> rfl
      | _ => exact ⟨c, hc, hside⟩
  | _ => trivial

theorem Attends.take {work : Work} (h : w.Attends s work) (s' : Side)
    (step : Endpoint.Step Service) : (w.take s' step).Attends s work := by
  apply take_induction (P := fun w' => w'.Attends s work) ?_ fun _ x h' => h'.hear s' x
  exact h.of_eq (w.callers_modifyParty s' _)

theorem Attends.pollCall {work : Work} (h : w.Attends s work) (s' : Side) (call : Call) :
    (w.pollCall s' call).1.Attends s work := by
  unfold Session.pollCall
  split
  · exact h
  · exact h.take s' _

/-- Callers whose calls the host knows. Those who were there before keep their places and sides. -/
theorem Shows.setCallers (h : w.Shows d) {callers : List Caller}
    (hk : ∀ c ∈ callers, (d.host c.side).Knows c.call)
    (hkept : ∀ (i : Nat) (c : Caller), w.callers[i]? = some c →
      ∃ c' : Caller, callers[i]? = some c' ∧ c'.side = c.side) :
    Shows { w with callers := callers } d := by
  refine ⟨h.link, h.tickets, h.fresh, h.high, fun s => ?_⟩
  have hs := h.sides s
  refine { hs with callers := ?_, attends := ?_ }
  · intro c hc hside
    obtain rfl := hside
    exact hk c hc
  · intro x hx hside
    have hattends := hs.attends x hx hside
    revert hattends
    cases x.2.work with
    | awaitCall i dropped =>
        rintro ⟨c, hc, hcs⟩
        obtain ⟨c', hc', hcs'⟩ := hkept i c hc
        exact ⟨c', hc', hcs'.trans hcs⟩
    | _ => exact fun _ => trivial

/-- A caller is changed, but not its side. -/
theorem Shows.modifyCaller (h : w.Shows d) {i : Nat} {f : Caller → Caller}
    (hside : ∀ c, (f c).side = c.side)
    (hk : ∀ c, w.callers[i]? = some c → (d.host c.side).Knows (f c).call) :
    Shows { w with callers := w.callers.modify i f } d := by
  apply h.setCallers
  · intro c hc
    obtain ⟨j, hj⟩ := List.mem_iff_getElem?.mp hc
    rw [List.getElem?_modify] at hj
    obtain ⟨c₀, hc₀, rfl⟩ := Option.map_eq_some_iff.mp hj
    split
    · next hij =>
        rw [hside]
        exact hk c₀ (hij ▸ hc₀)
    · exact (h.sides c₀.side).callers c₀ (List.mem_of_getElem? hc₀) rfl
  · intro j c hc
    refine ⟨if i = j then f c else c, ?_, ?_⟩
    · rw [List.getElem?_modify, hc]
      rfl
    · split
      · exact hside c
      · rfl

/-- The state of a call under a label is noted. -/
theorem Shows.setCall (h : w.Shows d) {i : Nat} (call : Call) (held : Bool)
    (hk : ∀ c, w.callers[i]? = some c → (d.host c.side).Knows call) :
    (w.setCall i call held).Shows d :=
  h.modifyCaller (f := fun c => { c with call := call, held := held }) (fun _ => rfl) hk

/-! ## Those who wait -/

/-- A task under a label ends. -/
theorem Shows.endLabelled (h : w.Shows d) (hown : w.Owns s t) (ht : 4 < t) (label : String)
    (x : Ending) : d.Leads (w.endLabelled t s label x).Shows := by
  have hnote : (w.noteEnding label x).Shows d :=
    h.same ⟨rfl, fun _ => rfl, rfl, rfl, rfl, rfl⟩
  exact hnote.endOther (hown.of_eq rfl rfl) ht

/-- **Whoever closes an endpoint** closes its end of the pair as well. -/
theorem Shows.closeTurn (h : w.Shows d) (hown : w.Owns s t) (ht : 4 < t) (op : Link.Closing) :
    d.Leads (w.closeTurn t s op).Shows := by
  apply Duo.Leads.move (.op s .close) trivial
  apply Duo.Leads.move (.shut s) trivial
  have hclose := h.close s
  have hclosed : ((d.move (.op s .close)).host s).endpoint.isOpen = false := by
    have hendpoint : ((d.move (.op s .close)).host s).endpoint =
        (d.host s).endpoint.close.1 := by
      show ((d.put s _ _).desk s).host.endpoint = _
      rw [Duo.desk_put]
      rfl
    rw [hendpoint]
    exact Endpoint.isOpen_close _
  have hown := hown.atEndpoint s Endpoint.close
  unfold Session.closeTurn
  generalize d.move (.op s .close) = d₁ at hclose hclosed
  generalize w.atEndpoint s Endpoint.close = w₁ at hclose hown
  rw [closeChannel_memory hclose.link]
  have hshut : d₁.move (.shut s) = d₁.put s d₁.pair.close.1 (d₁.desk s) := by
    unfold Duo.move
    dsimp only
    rw [hclosed, Duo.put_desk]
    rfl
  rw [hshut]
  exact (hclose.setLink s d₁.pair.close.1 d₁.pair.close.2).endLabelled (hown.setLink _ _) ht _ _

theorem Shows.awaitClosedTurn (h : w.Shows d) (hown : w.Owns s t) (ht : 4 < t) :
    d.Leads (w.awaitClosedTurn t s).Shows := by
  unfold Session.awaitClosedTurn
  split
  · exact Duo.Leads.here h
  · exact h.endLabelled hown ht _ _

theorem Shows.awaitEndTurn (h : w.Shows d) (hown : w.Owns s t) (ht : 4 < t) :
    d.Leads (w.awaitEndTurn t s).Shows := by
  unfold Session.awaitEndTurn
  split
  · exact Duo.Leads.here h
  · exact h.endLabelled hown ht _ _

/-- **Whoever waits for a call** looks at it, or lets go of it. -/
theorem Shows.awaitCallTurn (h : w.Shows d) (hown : w.Owns s t) (ht : 4 < t) {i : Nat}
    {dropped : Bool} (hattends : w.Attends s (.awaitCall i dropped)) :
    d.Leads (w.awaitCallTurn t s i dropped).Shows := by
  obtain ⟨c, hc, rfl⟩ := hattends
  have hk : (d.host c.side).Knows c.call :=
    (h.sides c.side).callers c (List.mem_of_getElem? hc) rfl
  unfold Session.awaitCallTurn
  rw [hc]
  dsimp only
  split
  · apply (h.dropCall hk).trans
    intro d₁ h₁
    exact h₁.endOther (hown.atEndpoint c.side _) ht
  · have hattends : w.Attends c.side (.awaitCall i dropped) := ⟨c, hc, rfl⟩
    have hattends := hattends.pollCall c.side c.call
    have hown := hown.pollCall c.side c.call
    apply (h.pollCall hk).trans
    rintro d₁ ⟨h₁, hk₁⟩
    -- the side of the call is the same after the poll
    have hset : ∀ held, ((w.pollCall c.side c.call).1.setCall i
        (w.pollCall c.side c.call).2.1 held).Shows d₁ := by
      intro held
      obtain ⟨c', hc', hside⟩ := hattends
      apply h₁.setCall
      intro c'' hc''
      obtain rfl := Option.some.inj (hc'.symm.trans hc'')
      rw [hside]
      exact hk₁
    split
    · next w₁ call r heq =>
        rw [heq] at hset hown
        exact (hset false).endLabelled (hown.of_eq rfl rfl) ht _ _
    · next w₁ call heq =>
        rw [heq] at hset
        exact Duo.Leads.here (hset false)

/-! ## Turns -/

/-- A task that does what it does already. -/
theorem Shows.same_setWork (h : w.Shows d) {task : Task} (ht : (t, task) ∈ w.tasks) :
    w.Same (w.setWork t task.work) := by
  refine ⟨rfl, fun _ => rfl, rfl, rfl, ?_, rfl⟩
  show w.tasks.map _ = w.tasks
  conv_rhs => rw [← List.map_id w.tasks]
  refine List.map_congr_left fun x hx => ?_
  dsimp only
  split
  · next hxt =>
      obtain rfl := h.task_eq hx ht hxt
      rfl
  · rfl

/-- **A turn of a task** is a number of moves, whatever the task does. -/
theorem Shows.turn (h : w.Shows d) (t : Ticket) : d.Leads (w.turn t).Shows := by
  unfold Session.turn
  split
  · exact Duo.Leads.here h
  · next x task hfind =>
      have hx := List.find?_some hfind
      obtain rfl : x = t := of_decide_eq_true hx
      have ht := List.mem_of_find?_eq_some hfind
      obtain ⟨s, work, holds⟩ := task
      have hown : w.Owns s x := h.owns ht
      have hdoes : (d.desk s).Does s x work := (h.sides s).does _ ht rfl
      cases work with
      | read op => exact h.readTurn ht
      | hangUp op => exact hdoes.elim
      | write sending =>
          cases sending with
          | none => exact h.writeTurn ht
          | some y =>
              obtain ⟨rfl, hwriting, hsending⟩ := hdoes
              exact Shows.sendTurn (h.same (h.same_setWork ht)) hown hwriting hsending
      | handle run pause => exact h.handleTurn ht
      | close op => exact h.closeTurn hown hdoes op
      | awaitClosed => exact h.awaitClosedTurn hown hdoes
      | awaitEnd => exact h.awaitEndTurn hown hdoes
      | awaitCall i dropped =>
          exact h.awaitCallTurn hown hdoes ((h.sides s).attends _ ht rfl)

end Session

end PeerRpc
