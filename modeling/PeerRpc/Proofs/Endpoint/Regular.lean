import Mathlib.Data.List.Nodup
import PeerRpc.Call
import PeerRpc.Proofs.Endpoint.Operations

/-!
# PeerRpc.Proofs.Endpoint.Regular -- what all operations but a new call have in common

A step is `Balanced` when its events account for what it does to the calls: a call leaves `pending`
exactly when an event settles it, and no event settles a call that does not wait or settles one
twice. It is `Regular` when they account for its messages as well: a message joins `outbound`
exactly when an event says so, which takes an open endpoint. Such steps compose
(`Regular.andThen`), and every operation is one.
-/

namespace PeerRpc

namespace Endpoint

variable {η : Type}

/-- The events of a step account for what it does to calls. -/
structure Balanced (e : Endpoint η) (s : Step η) : Prop where
  nextId : s.1.nextId = e.nextId
  /-- A call stops waiting exactly when it is settled. -/
  pending : s.1.pending = e.pending.filter fun p => (resultFor? s.2 p.1).isNone
  /-- Only calls that wait are settled. -/
  settled : ∀ id ∈ settledIn s.2, id ∈ e.waiting
  /-- No call is settled twice. -/
  once : e.waiting.Nodup → (settledIn s.2).Nodup
  /-- A closed endpoint stays closed, and settles all its calls when it closes. -/
  isOpen : s.1.isOpen = true → e.isOpen = true
  closed : s.1.isOpen = false → e.isOpen = true → s.1.pending = []

/-- The events of a step account for what it does to calls and messages. -/
structure Regular (e : Endpoint η) (s : Step η) : Prop extends Balanced e s where
  config : s.1.config = e.config
  /-- Messages that are queued go to the end of those that wait. -/
  outbound : s.1.outbound = e.outbound ++ queuedIn s.2
  /-- Only an open endpoint queues messages. -/
  queued : queuedIn s.2 ≠ [] → e.isOpen = true

/-- A step that leaves calls alone. -/
theorem Balanced.of_silent {e : Endpoint η} {s : Step η} (hn : s.1.nextId = e.nextId)
    (hp : s.1.pending = e.pending) (hi : s.1.isOpen = e.isOpen) (hs : settledIn s.2 = []) :
    Balanced e s where
  nextId := hn
  pending := by
    have hnone (p : RequestId × ProxyId) : (resultFor? s.2 p.1).isNone = true := by
      rw [(resultFor?_eq_none_iff s.2 p.1).mpr (by simp [hs])]
      rfl
    simp [hp, hnone]
  settled := by simp [hs]
  once := by simp [hs]
  isOpen := fun h => hi ▸ h
  closed := by
    intro h h'
    rw [hi, h'] at h
    cases h

/-- A step that leaves calls and messages alone. -/
theorem Regular.of_silent {e : Endpoint η} {s : Step η} (hc : s.1.config = e.config)
    (hn : s.1.nextId = e.nextId) (hp : s.1.pending = e.pending) (ho : s.1.outbound = e.outbound)
    (hi : s.1.isOpen = e.isOpen) (hs : settledIn s.2 = []) (hq : queuedIn s.2 = []) :
    Regular e s where
  toBalanced := .of_silent hn hp hi hs
  config := hc
  outbound := by simp [ho, hq]
  queued := fun h => absurd hq h

/-- Doing nothing is regular. -/
theorem Regular.refl (e : Endpoint η) : Regular e (e, []) :=
  .of_silent rfl rfl rfl rfl rfl rfl rfl

/-- A regular step from an endpoint with the same calls and messages. -/
theorem Regular.of_eq {e e' : Endpoint η} {s : Step η} (h : Regular e' s)
    (hc : e'.config = e.config) (hn : e'.nextId = e.nextId) (hp : e'.pending = e.pending)
    (ho : e'.outbound = e.outbound) (hi : e'.isOpen = e.isOpen) : Regular e s where
  config := h.config.trans hc
  nextId := h.nextId.trans hn
  pending := by rw [h.pending, hp]
  settled := by
    have := h.settled
    rwa [waiting, hp] at this
  once := by
    have := h.once
    rwa [waiting, hp] at this
  outbound := by rw [h.outbound, ho]
  queued := fun hs => hi ▸ h.queued hs
  isOpen := fun hs => hi ▸ h.isOpen hs
  closed := fun hs he => h.closed hs (hi.trans he)

theorem Balanced.mem_waiting {e : Endpoint η} {s : Step η} (h : Balanced e s) (id : RequestId) :
    id ∈ s.1.waiting ↔ id ∈ e.waiting ∧ resultFor? s.2 id = none := by
  simp only [waiting, h.pending, List.mem_map, List.mem_filter, Option.isNone_iff_eq_none]
  constructor
  · rintro ⟨p, ⟨hp, hr⟩, rfl⟩
    exact ⟨⟨p, hp, rfl⟩, hr⟩
  · rintro ⟨⟨p, hp, rfl⟩, hr⟩
    exact ⟨p, ⟨hp, hr⟩, rfl⟩

theorem Balanced.nodup_waiting {e : Endpoint η} {s : Step η} (h : Balanced e s)
    (hn : e.waiting.Nodup) : s.1.waiting.Nodup := by
  unfold waiting
  rw [h.pending]
  exact (List.filter_sublist.map Prod.fst).nodup hn

/-- **Regular steps compose.** A call that the first step settles does not wait in the second. -/
theorem Regular.andThen {e : Endpoint η} {s : Step η} {f : Endpoint η → Step η}
    (hs : Regular e s) (hf : Regular s.1 (f s.1)) : Regular e (Endpoint.andThen s f) where
  config := hf.config.trans hs.config
  nextId := hf.nextId.trans hs.nextId
  pending := by
    show (f s.1).1.pending = _
    -- who waits after both steps has a result from neither
    rw [hf.pending, hs.pending, List.filter_filter]
    refine List.filter_congr fun p _ => ?_
    show _ = (resultFor? (s.2 ++ (f s.1).2) p.1).isNone
    rw [resultFor?_append]
    cases resultFor? s.2 p.1 <;> cases resultFor? (f s.1).2 p.1 <;> rfl
  settled := by
    intro id hid
    have hid' : id ∈ settledIn (s.2 ++ (f s.1).2) := hid
    rw [settledIn_append] at hid'
    rcases List.mem_append.mp hid' with h | h
    · exact hs.settled id h
    · exact ((hs.mem_waiting id).mp (hf.settled id h)).1
  once := by
    intro hn
    show (settledIn (s.2 ++ (f s.1).2)).Nodup
    rw [settledIn_append, List.nodup_append]
    refine ⟨hs.once hn, hf.once (hs.nodup_waiting hn), ?_⟩
    -- what the first step settles does not wait in the second
    intro id hid id' hid' heq
    subst heq
    exact (resultFor?_eq_none_iff s.2 id).mp ((hs.mem_waiting id).mp (hf.settled id hid')).2 hid
  outbound := by
    show (f s.1).1.outbound = e.outbound ++ queuedIn (s.2 ++ (f s.1).2)
    rw [hf.outbound, hs.outbound, queuedIn_append, List.append_assoc]
  queued := by
    intro h
    by_cases hq : queuedIn s.2 = []
    · refine hs.isOpen (hf.queued fun h' => h ?_)
      show queuedIn (s.2 ++ (f s.1).2) = []
      rw [queuedIn_append, hq, h', List.append_nil]
    · exact hs.queued hq
  isOpen := fun h => hs.isOpen (hf.isOpen h)
  closed := by
    intro h he
    show (f s.1).1.pending = []
    cases ho : s.1.isOpen with
    | true => exact hf.closed h ho
    | false => rw [hf.pending, hs.closed ho he, List.filter_nil]

/-! ## The operations -/

theorem regular_enqueue (e : Endpoint η) (o : Outbound) : Regular e (e.enqueue o) := by
  cases h : e.isOpen with
  | false =>
      have : e.enqueue o = (e, []) := by simp [enqueue, h]
      rw [this]
      exact .refl e
  | true =>
      have : e.enqueue o = ({ e with outbound := e.outbound ++ [o] }, [.queued o]) := by
        simp [enqueue, h]
      rw [this]
      exact ⟨.of_silent rfl rfl rfl rfl, rfl, rfl, fun _ => h⟩

/-- What the events of `settle` say about each call. -/
theorem resultFor?_settle (e : Endpoint η) (id id' : RequestId) (r : ProxyId → CallResult) :
    resultFor? (e.settle id r).2 id' =
      if id = id' then (e.pending.find? fun p => p.1 = id).map fun p => r p.2 else none := by
  rw [settle_snd]
  cases h : e.pending.find? fun p => p.1 = id with
  | none => simp [resultFor?]
  | some p => by_cases hid : id = id' <;> simp [resultFor?, Event.settles?, hid]

theorem regular_settle (e : Endpoint η) (id : RequestId) (r : ProxyId → CallResult) :
    Regular e (e.settle id r) where
  config := by simp
  nextId := by simp
  pending := by
    rw [settle_fst]
    refine List.filter_congr fun p hp => ?_
    rw [resultFor?_settle]
    by_cases hid : id = p.1
    · have hsome : (e.pending.find? fun q => q.1 = id).isSome = true := by
        rw [find?_pending_isSome, hid]
        exact List.mem_map_of_mem hp
      obtain ⟨q, hq⟩ := Option.isSome_iff_exists.mp hsome
      rw [if_pos hid, hq, decide_eq_false (not_not.mpr hid.symm)]
      rfl
    · rw [if_neg hid, decide_eq_true (Ne.symm hid)]
      rfl
  settled := by
    intro id' hid'
    rw [settle_snd] at hid'
    cases h : e.pending.find? fun p => p.1 = id with
    | none => simp [h, settledIn] at hid'
    | some p =>
        have : id' = id := by
          simpa [h, settledIn, Event.settled?] using hid'
        rw [this, ← find?_pending_isSome, h]
        rfl
  once := by
    intro _
    rw [settle_snd]
    cases e.pending.find? fun p => p.1 = id <;> simp [settledIn, Event.settled?]
  outbound := by
    rw [settle_fst, settle_snd]
    cases e.pending.find? fun p => p.1 = id <;> simp [queuedIn, Event.queued?]
  queued := by
    rw [settle_snd]
    cases e.pending.find? fun p => p.1 = id <;> simp [queuedIn, Event.queued?]
  isOpen := by simp
  closed := by
    intro h h'
    rw [settle_fst] at h
    rw [h] at h'
    cases h'

theorem regular_cancelRequest (e : Endpoint η) (id : RequestId) (reason : CallError) :
    Regular e (e.cancelRequest id reason).2 := by
  by_cases h : id ∈ e.waiting
  · rw [cancelRequest_of_waiting h]
    exact (regular_settle e id _).andThen (regular_enqueue _ _)
  · rw [cancelRequest_of_not_waiting h]
    exact .refl e

theorem regular_fire (e : Endpoint η) (serial : Nat) : Regular e (e.fire serial) := by
  refine .of_silent ?_ ?_ ?_ ?_ ?_ ?_ ?_
  · simp
  · simp
  · simp
  · simp
  · simp
  · rcases fire_snd e serial with h | h <;> rw [h] <;> rfl
  · rcases fire_snd e serial with h | h <;> rw [h] <;> rfl

theorem regular_start [Handler η] (e : Endpoint η) (request : Option RequestId) (proxy : ProxyId)
    (method : String) (args : List Value) (h : η) :
    Regular e (e.start request proxy method args h) :=
  .of_silent rfl rfl rfl rfl rfl rfl rfl

theorem regular_sendReply (e : Endpoint η) (id : RequestId) (reply : Except RemoteError Value) :
    Regular e (e.sendReply id reply) := regular_enqueue e _

theorem regular_finish (e : Endpoint η) (serial : Nat) (o : Outcome) :
    Regular e (e.finish serial o) := by
  rcases e.finish_cases serial o with heq | ⟨id, heq⟩
  · rw [heq]
    exact .of_silent rfl rfl rfl rfl rfl rfl rfl
  · rw [heq]
    exact (regular_sendReply _ id _).of_eq rfl rfl rfl rfl rfl

theorem regular_receive [Handler η] (e : Endpoint η) (frame : Bytes) :
    Regular e (e.receive frame) := by
  have h := e.handles_receive frame
  generalize e.receive frame = s at h ⊢
  cases h with
  | nothing => exact .refl e
  | misses id proxy => exact regular_sendReply e id _
  | starts request method args hg => exact regular_start e _ _ _ _ _
  | settles id r => exact regular_settle e id r
  | fires serial => exact regular_fire e serial

theorem regular_undeliverable (e : Endpoint η) (o : Outbound) (err : TransportError) :
    Regular e (e.undeliverable o err) := by
  rcases e.undeliverable_cases o err with heq | ⟨id, r, heq⟩ | ⟨o', heq⟩
  · exact heq ▸ .refl e
  · exact heq ▸ regular_settle e id r
  · exact heq ▸ regular_enqueue e o'

/-- Closing an open endpoint settles every call that waits. -/
theorem resultFor?_close {e : Endpoint η} (h : e.isOpen = true) (id : RequestId) :
    resultFor? e.close.2 id = if id ∈ e.waiting then some (.error .disconnected) else none := by
  have hruns : resultFor? ((e.runs.filter fun r => !r.fired).reverse.map
      (fun r => Event.fired r.serial) : List (Event η)) id = none := by
    rw [resultFor?_eq_none_iff]
    simp [settledIn, Event.settled?]
  have hpending : resultFor? (e.pending.map
      (fun p => Event.settled p.1 (.error .disconnected)) : List (Event η)) id =
      if id ∈ e.waiting then some (.error .disconnected) else none := by
    -- on the entries: the first one with the id tells the result
    unfold waiting
    induction e.pending with
    | nil => rfl
    | cons p rest ih =>
        by_cases hp : p.1 = id
        · simp [resultFor?, Event.settles?, hp]
        · have hp' : ¬ id = p.1 := Ne.symm hp
          simp only [List.map_cons, List.mem_cons, hp', false_or, ← ih]
          simp [resultFor?, Event.settles?, hp]
  rw [close_snd_of_open h]
  simp only [resultFor?_append, hruns, hpending]
  split <;> rfl

theorem settledIn_close {e : Endpoint η} (h : e.isOpen = true) :
    settledIn e.close.2 = e.waiting := by
  rw [close_snd_of_open h]
  simp only [settledIn_append]
  have hruns : settledIn ((e.runs.filter fun r => !r.fired).reverse.map
      (fun r => Event.fired r.serial) : List (Event η)) = [] := by
    simp [settledIn, Event.settled?]
  have hpending : settledIn (e.pending.map
      (fun p => Event.settled p.1 (.error .disconnected)) : List (Event η)) = e.waiting := by
    unfold waiting settledIn
    rw [List.filterMap_map, ← List.filterMap_eq_map]
    rfl
  rw [hruns, hpending, List.append_nil]
  show [] ++ e.waiting ++ [] = e.waiting
  rw [List.nil_append, List.append_nil]

theorem queuedIn_close (e : Endpoint η) : queuedIn e.close.2 = [] := by
  cases h : e.isOpen with
  | false => rw [close_of_closed h]; rfl
  | true =>
      rw [close_snd_of_open h]
      have hpending : queuedIn (e.pending.map
          (fun p => Event.settled p.1 (.error .disconnected)) : List (Event η)) = [] := by
        simp [queuedIn, Event.queued?]
      have hruns : queuedIn ((e.runs.filter fun r => !r.fired).reverse.map
          (fun r => Event.fired r.serial) : List (Event η)) = [] := by
        simp [queuedIn, Event.queued?]
      simp only [queuedIn_append, hpending, hruns]
      rfl

theorem regular_close (e : Endpoint η) : Regular e e.close := by
  cases h : e.isOpen with
  | false =>
      rw [close_of_closed h]
      exact .refl e
  | true =>
      refine { nextId := ?nextId, pending := ?pending, settled := ?settled, once := ?once,
               isOpen := fun _ => h, closed := ?closed, config := ?config, outbound := ?outbound,
               queued := fun hq => absurd (queuedIn_close e) hq }
      case nextId => rw [close_fst_of_open h]
      case pending =>
        rw [close_fst_of_open h]
        symm
        refine List.filter_eq_nil_iff.mpr fun p hp => ?_
        have hmem : p.1 ∈ e.waiting := List.mem_map_of_mem hp
        simp [resultFor?_close h, hmem]
      case settled =>
        rw [settledIn_close h]
        exact fun _ hid => hid
      case once =>
        rw [settledIn_close h]
        exact id
      case closed =>
        rw [close_fst_of_open h]
        exact fun _ _ => rfl
      case config => rw [close_fst_of_open h]
      case outbound => rw [close_fst_of_open h, queuedIn_close, List.append_nil]

theorem regular_notifyProxy {e : Endpoint η} {proxy : ProxyId} {method : String}
    {args : List Value} {s : Step η} (h : e.notifyProxy proxy method args = .ok s) :
    Regular e s := by
  obtain ⟨-, rfl⟩ := notifyProxy_eq_ok h
  exact regular_enqueue e _

theorem regular_notify {e : Endpoint η} {i : Identifier} {method : String}
    {args : List Value} {s : Step η} (h : e.notify i method args = .ok s) : Regular e s :=
  regular_notifyProxy (notify_eq_ok h)

end Endpoint

/-! ## Calls at an endpoint -/

namespace Call

variable {η : Type}

open Endpoint

theorem regular_cancel (c : Call) (reason : CallError) (e : Endpoint η) :
    Regular e (c.cancelWith reason e).2 := by
  unfold cancelWith
  split
  · exact .refl e
  · exact regular_cancelRequest e _ _

theorem regular_drop (c : Call) (e : Endpoint η) : Regular e (c.drop e) := by
  unfold Call.drop
  split
  · exact .refl e
  · exact c.regular_cancel _ e

section

variable {c : Call} {now : Nat} {e : Endpoint η}

/-- A result that is there is returned, and nothing else happens. -/
theorem poll_of_delivered {r : CallResult} (h : c.delivered = some r) :
    c.poll now e = (some r, { c with settled := true }, (e, [])) := by
  unfold poll
  rw [h]

/-- A call that is late is taken back with a timeout. -/
theorem poll_of_late (h : c.delivered = none) {d : Duration} (limit : c.limit = some d)
    (late : c.started + d.ticks ≤ now) :
    c.poll now e =
      (some (.error (.timeout d)), { c with settled := true },
        (c.cancelWith (.timeout d) e).2) := by
  unfold poll deadline?
  rw [h, limit]
  exact if_pos late

/-- A call that is not late stays as it is. -/
theorem poll_of_not_late (h : c.delivered = none)
    (early : ∀ d, c.limit = some d → ¬ c.started + d.ticks ≤ now) :
    c.poll now e = (none, c, (e, [])) := by
  unfold poll deadline?
  rw [h]
  cases limit : c.limit with
  | none => rfl
  | some d => exact if_neg (early d limit)

end

/-- What a look at a call comes to. -/
inductive Polled (c : Call) (now : Nat) (e : Endpoint η) : Prop
  | delivered (r : CallResult) (delivered : c.delivered = some r)
      (poll : c.poll now e = (some r, { c with settled := true }, (e, [])))
  | late (d : Duration) (none : c.delivered = none) (limit : c.limit = some d)
      (late : c.started + d.ticks ≤ now)
      (poll : c.poll now e =
        (some (.error (.timeout d)), { c with settled := true },
          (c.cancelWith (.timeout d) e).2))
  | early (none : c.delivered = none) (poll : c.poll now e = (.none, c, (e, [])))

theorem polled (c : Call) (now : Nat) (e : Endpoint η) : c.Polled now e := by
  cases hd : c.delivered with
  | some r => exact .delivered r hd (poll_of_delivered hd)
  | none =>
      by_cases hlate : ∃ d, c.limit = some d ∧ c.started + d.ticks ≤ now
      · obtain ⟨d, limit, late⟩ := hlate
        exact .late d hd limit late (poll_of_late hd limit late)
      · exact .early hd (poll_of_not_late hd fun d limit late => hlate ⟨d, limit, late⟩)

@[simp] theorem id_poll (c : Call) (now : Nat) (e : Endpoint η) :
    (c.poll now e).2.1.id = c.id := by
  rcases c.polled now e with ⟨_, _, poll⟩ | ⟨_, _, _, _, poll⟩ | ⟨_, poll⟩ <;> rw [poll]

@[simp] theorem delivered_poll (c : Call) (now : Nat) (e : Endpoint η) :
    (c.poll now e).2.1.delivered = c.delivered := by
  rcases c.polled now e with ⟨_, _, poll⟩ | ⟨_, _, _, _, poll⟩ | ⟨_, poll⟩ <;> rw [poll]

theorem regular_poll (c : Call) (now : Nat) (e : Endpoint η) :
    Regular e (c.poll now e).2.2 := by
  cases c.polled now e with
  | delivered r hd poll => exact poll ▸ .refl e
  | late d hn limit late poll => exact poll ▸ c.regular_cancel _ e
  | early hn poll => exact poll ▸ .refl e

end Call

end PeerRpc
