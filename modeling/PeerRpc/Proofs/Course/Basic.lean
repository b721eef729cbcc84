import Mathlib.Data.List.Induction
import PeerRpc.Proofs.Endpoint.Traffic

/-!
# PeerRpc.Proofs.Course.Basic -- an endpoint with its reader, its writer and its users

A `Deed` is one turn of somebody who works on an endpoint: of a caller, of a handler, of the reader,
of the writer, or of one who closes it. A turn is not interrupted. Deeds come in any order and any
number, and the channel is a part of a deed: what a reader receives and what a send comes to is
whatever the channel says, so a `Course`, an endpoint with all that was done at it, is over any
channel.

Reader and writer look whether the endpoint is closed before they look for a message. Nothing else
keeps a closed endpoint from acting on what the channel still holds or from sending what still waits.
-/

namespace PeerRpc

/-! ## Deeds -/

/-- One turn of somebody at an endpoint. -/
inductive Deed (η : Type) where
  /-- Calls a method of a service. -/
  | request (proxy : ProxyId) (method : String) (args : List Value)
  /-- Sends a notification to a service. -/
  | notify (proxy : ProxyId) (method : String) (args : List Value)
  /-- Ends a call: it is cancelled or dropped, or its time is over. -/
  | cancel (id : RequestId) (reason : CallError)
  /-- Changes which services are hosted. -/
  | serve (registry : Registry η)
  /-- A handler fires the signal of its own call. -/
  | stop (serial : Nat)
  /-- The task of a handler ends. -/
  | finish (serial : Nat) (o : Outcome)
  /-- Somebody closes the endpoint. -/
  | close
  /-- The last handle is dropped. -/
  | letGo
  /-- The reader takes its turn, and the channel has this for it, if anything. -/
  | read (received : Option (Except TransportError Bytes))
  /-- The writer, which is not sending, takes its turn. -/
  | hand
  /-- The writer learns what the sending of a message has come to. -/
  | sent (o : Outbound) (r : Except TransportError Unit)

/-- The message in a frame that an endpoint acts on, if it does. -/
def Endpoint.accepts? {η : Type} (e : Endpoint η) (frame : Bytes) : Option Message :=
  if e.isOpen then (Codec.decodeMessage frame).toOption else none

/-- An endpoint acts on the message that it accepts, and on nothing else. -/
theorem Endpoint.receive_eq {η : Type} [Handler η] (e : Endpoint η) (frame : Bytes) :
    e.receive frame = ((e.accepts? frame).map e.dispatch).getD (e, []) := by
  unfold receive accepts?
  split
  · cases Codec.decodeMessage frame <;> rfl
  · rfl

namespace Deed

variable {η : Type}

/-- Whether the deed is meant to close the endpoint: it does so on purpose, nobody holds the
endpoint any more, or the channel has ended or failed. -/
def isTrigger : Deed η → Bool
  | close => true
  | letGo => true
  | read (some (.error _)) => true
  | sent _ (.error err) => err.isTerminal
  | _ => false

/-- The message that the deed hands to the channel. -/
def hands? (e : Endpoint η) : Deed η → Option Outbound
  | hand => e.dequeue.map Prod.fst
  | _ => none

/-- The message that the deed acts on. -/
def accepts? (e : Endpoint η) : Deed η → Option Message
  | read (some (.ok frame)) => e.accepts? frame
  | _ => none

variable [Handler η]

/-- What a deed does. -/
def step (e : Endpoint η) : Deed η → Endpoint.Step η
  | request proxy method args => (e.request proxy method args).2
  | notify proxy method args =>
    match e.notifyProxy proxy method args with
    | .ok s => s
    | .error _ => (e, [])
  | cancel id reason => (e.cancelRequest id reason).2
  | serve registry => ({ e with registry := registry }, [])
  | stop serial => e.fire serial
  | finish serial o => e.finish serial o
  | close => e.close
  | letGo => e.close
  | read received =>
    if e.isOpen then
      match received with
      | none => (e, [])
      | some (.ok frame) => e.receive frame
      | some (.error _) => e.close
    else (e, [])
  | hand =>
    match e.dequeue with
    | some (_, e) => (e, [])
    | none => (e, [])
  | sent _ (.ok ()) => (e, [])
  | sent o (.error err) => if err.isTerminal then e.close else e.undeliverable o err

/-- Whatever the reason, an endpoint is closed in the same way. -/
theorem step_of_trigger {d : Deed η} (h : d.isTrigger = true) (e : Endpoint η) :
    d.step e = e.close := by
  cases d with
  | close => rfl
  | letGo => rfl
  | read received =>
      -- of what a channel may have for the reader only an error closes the endpoint
      obtain _ | err | frame := received
      · cases h
      · cases hopen : e.isOpen with
        | true => exact if_pos hopen
        | false =>
            rw [Endpoint.close_of_closed hopen]
            exact if_neg (by rw [hopen]; decide)
      · cases h
  | sent o r =>
      cases r with
      | ok u => cases h
      | error err => exact if_pos h
  | _ => cases h

end Deed

/-! ## Which operations leave an endpoint open -/

namespace Endpoint

variable {η : Type}

/-- A step that leaves it open whether an endpoint is open. -/
abbrev Steady (e : Endpoint η) (s : Step η) : Prop := s.1.isOpen = e.isOpen

theorem steady_enqueue (e : Endpoint η) (o : Outbound) : Steady e (e.enqueue o) := by
  simp [Steady]

theorem steady_settle (e : Endpoint η) (id : RequestId) (r : ProxyId → CallResult) :
    Steady e (e.settle id r) := by
  simp [Steady]

theorem steady_cancelRequest (e : Endpoint η) (id : RequestId) (reason : CallError) :
    Steady e (e.cancelRequest id reason).2 := by
  by_cases h : id ∈ e.waiting
  · rw [cancelRequest_of_waiting h]
    exact (steady_enqueue _ _).trans (steady_settle e id _)
  · rw [cancelRequest_of_not_waiting h]

theorem steady_fire (e : Endpoint η) (serial : Nat) : Steady e (e.fire serial) := by
  simp [Steady]

theorem steady_finish (e : Endpoint η) (serial : Nat) (o : Outcome) :
    Steady e (e.finish serial o) := by
  rcases e.finish_cases serial o with heq | ⟨id, heq⟩
  · rw [heq]
  · rw [heq]
    exact steady_enqueue _ _

theorem steady_receive [Handler η] (e : Endpoint η) (frame : Bytes) :
    Steady e (e.receive frame) := by
  rw [receive_eq]
  cases e.accepts? frame with
  | none => rfl
  | some m =>
      have h := e.handles_dispatch m
      show Steady e (e.dispatch m)
      generalize e.dispatch m = s at h ⊢
      cases h with
      | nothing => rfl
      | misses id proxy => exact steady_enqueue e _
      | starts request method args hg => rfl
      | settles id r => exact steady_settle e id r
      | fires serial => exact steady_fire e serial

theorem steady_undeliverable (e : Endpoint η) (o : Outbound) (err : TransportError) :
    Steady e (e.undeliverable o err) := by
  rcases e.undeliverable_cases o err with heq | ⟨id, r, heq⟩ | ⟨o', heq⟩
  · rw [heq]
  · exact heq ▸ steady_settle e id r
  · exact heq ▸ steady_enqueue e o'

theorem steady_notifyProxy {e : Endpoint η} {proxy : ProxyId} {method : String}
    {args : List Value} {s : Step η} (h : e.notifyProxy proxy method args = .ok s) :
    Steady e s := by
  obtain ⟨-, rfl⟩ := notifyProxy_eq_ok h
  exact steady_enqueue e _

end Endpoint

namespace Deed

variable {η : Type} [Handler η]

open Endpoint in
/-- A deed that is not meant to close the endpoint does not. -/
theorem steady_step {d : Deed η} (h : d.isTrigger = false) (e : Endpoint η) :
    Steady e (d.step e) := by
  cases d with
  | request proxy method args => exact isOpen_request e proxy method args
  | notify proxy method args =>
      simp only [step]
      split
      · next s hs => exact steady_notifyProxy hs
      · rfl
  | cancel id reason => exact steady_cancelRequest e id reason
  | serve registry => rfl
  | stop serial => exact steady_fire e serial
  | finish serial o => exact steady_finish e serial o
  | close => cases h
  | letGo => cases h
  | read received =>
      simp only [step]
      split
      · obtain _ | err | frame := received
        · rfl
        · cases h
        · exact steady_receive e frame
      · rfl
  | hand =>
      simp only [step]
      split
      · next o e' hd =>
          obtain ⟨-, rest, -, rfl⟩ := dequeue_eq_some.mp hd
          rfl
      · rfl
  | sent o r =>
      cases r with
      | ok u => rfl
      | error err =>
          simp only [isTrigger] at h
          simp only [step, h, Bool.false_eq_true, if_false]
          exact steady_undeliverable e o err

/-- An open endpoint is closed by the deeds that are meant to close it, and by no others. -/
theorem closes_iff {e : Endpoint η} (hopen : e.isOpen = true) (d : Deed η) :
    (d.step e).1.isOpen = false ↔ d.isTrigger = true := by
  cases h : d.isTrigger with
  | true =>
      rw [step_of_trigger h]
      exact iff_of_true e.isOpen_close rfl
  | false =>
      have hsteady : (d.step e).1.isOpen = e.isOpen := steady_step h e
      rw [hsteady, hopen]
      exact iff_of_false Bool.noConfusion Bool.noConfusion

end Deed

/-! ## Courses -/

/-- A deed where it is done. -/
structure Occasion (η : Type) where
  endpoint : Endpoint η
  deed : Deed η

namespace Occasion

variable {η : Type}

/-- The message that is handed to the channel. -/
def hands? (x : Occasion η) : Option Outbound := x.deed.hands? x.endpoint

/-- The message that is acted on. -/
def accepts? (x : Occasion η) : Option Message := x.deed.accepts? x.endpoint

variable [Handler η]

/-- The endpoint after the deed. -/
def after (x : Occasion η) : Endpoint η := (x.deed.step x.endpoint).1

/-- What happens. -/
def events (x : Occasion η) : List (Event η) := (x.deed.step x.endpoint).2

/-- Whether the endpoint is closed by the deed. -/
def closes (x : Occasion η) : Bool := x.endpoint.isOpen && !x.after.isOpen

end Occasion

/-- An endpoint with its past, the first occasion first. -/
structure Course (η : Type) where
  endpoint : Endpoint η
  past : List (Occasion η) := []

namespace Course

variable {η : Type}

/-- The course of an endpoint that has just been opened. -/
def ofConfig (c : Config) : Course η := { endpoint := .ofConfig c }

/-- Everything that has been handed to the channel, in order. -/
def handed (c : Course η) : List Outbound := c.past.flatMap fun x => x.hands?.toList

/-- Every message that has been acted on, in order. -/
def accepted (c : Course η) : List Message := c.past.flatMap fun x => x.accepts?.toList

variable [Handler η]

/-- One more deed. -/
def act (d : Deed η) (c : Course η) : Course η :=
  { endpoint := (d.step c.endpoint).1, past := c.past ++ [⟨c.endpoint, d⟩] }

/-- Some more deeds. -/
def run (deeds : List (Deed η)) (c : Course η) : Course η := deeds.foldl (fun c d => c.act d) c

/-- Everything that has happened, in order. -/
def events (c : Course η) : List (Event η) := c.past.flatMap Occasion.events

/-- How often the endpoint has been closed. -/
def closings (c : Course η) : Nat := c.past.countP Occasion.closes

theorem run_append (xs ys : List (Deed η)) (c : Course η) :
    c.run (xs ++ ys) = (c.run xs).run ys := by
  simp only [run, List.foldl_append]

theorem run_concat (xs : List (Deed η)) (d : Deed η) (c : Course η) :
    c.run (xs ++ [d]) = (c.run xs).act d := by
  rw [run_append]
  rfl

@[simp] theorem endpoint_act (d : Deed η) (c : Course η) :
    (c.act d).endpoint = (d.step c.endpoint).1 := rfl

@[simp] theorem past_act (d : Deed η) (c : Course η) :
    (c.act d).past = c.past ++ [⟨c.endpoint, d⟩] := rfl

@[simp] theorem events_act (d : Deed η) (c : Course η) :
    (c.act d).events = c.events ++ (d.step c.endpoint).2 := by
  simp [events, Occasion.events]

@[simp] theorem handed_act (d : Deed η) (c : Course η) :
    (c.act d).handed = c.handed ++ (d.hands? c.endpoint).toList := by
  simp [handed, Occasion.hands?]

@[simp] theorem accepted_act (d : Deed η) (c : Course η) :
    (c.act d).accepted = c.accepted ++ (d.accepts? c.endpoint).toList := by
  simp [accepted, Occasion.accepts?]

/-- A property that every deed keeps is kept by every list of deeds. -/
theorem run_induction {P : Course η → Prop} {c : Course η} (h₀ : P c)
    (hstep : ∀ x d, P x → P (x.act d)) (deeds : List (Deed η)) : P (c.run deeds) := by
  induction deeds using List.reverseRecOn with
  | nil => exact h₀
  | append_singleton deeds d ih =>
      rw [run_concat]
      exact hstep _ d ih

end Course

end PeerRpc
