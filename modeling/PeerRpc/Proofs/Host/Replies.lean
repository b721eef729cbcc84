import Mathlib.Data.List.Nodup
import PeerRpc.Proofs.Host.Traffic

/-!
# PeerRpc.Proofs.Host.Replies -- every accepted request is answered once

A request is accepted unless its id is still being worked on. `replies` counts: at an open endpoint
the answers that were queued for an id, and the run for it if there is one, are as many as the
requests with that id that were accepted. The count is kept by every single act, so an answer goes
out at the moment at which its request leaves, and at no other. `Host.Posting` lists the kinds of
messages that an act queues, and only two of them are answers.

The peer may repeat ids and cancel as it likes, and handlers may end in any way and order, or not at
all.
-/

namespace PeerRpc

variable {η : Type}

/-- The act is the arrival of a request with this id, and the id is not being worked on. -/
def Moment.accepts (m : Moment η) (id : RequestId) : Bool :=
  match m.host.receives? m.act with
  | some (.request id' _ _ _) => id' = id && (m.host.endpoint.runFor? id).isNone
  | _ => false

namespace Endpoint

/-- How many runs answer the request with this id. -/
def working (e : Endpoint η) (id : RequestId) : Nat := e.runs.countP fun r => r.request = some id

theorem working_eq_zero (e : Endpoint η) (id : RequestId) :
    e.working id = 0 ↔ e.runFor? id = none := by
  simp [working, runFor?, List.countP_eq_zero]

end Endpoint

/-! ## Tidy runs -/

/-- The runs of a host are told apart by their numbers and by the requests that they answer. -/
structure Host.Tidy [Handler η] (h : Host η) : Prop where
  serials : (h.endpoint.runs.map Run.serial).Nodup
  begun : ∀ r ∈ h.endpoint.runs, r.serial < h.endpoint.nextRun
  requests : (h.endpoint.runs.filterMap Run.request).Nodup
  /-- A run is aborted only if it answers a request and its method allows it. -/
  abortable : ∀ r ∈ h.endpoint.runs,
    r.abortable = (r.request.isSome && Handler.isCancellable r.handler r.method)

namespace Host

variable [Handler η]

theorem tidy_ofConfig (c : Config) : (Host.ofConfig c : Host η).Tidy where
  serials := List.nodup_nil
  begun := by
    intro r hr
    have hr' : r ∈ ([] : List (Run η)) := hr
    simp at hr'
  requests := List.nodup_nil
  abortable := by
    intro r hr
    have hr' : r ∈ ([] : List (Run η)) := hr
    simp at hr'

theorem mem_runs_step (h : Host η) (a : Act η) (r : Run η) :
    r ∈ (h.step a).1.endpoint.runs ↔
      (∃ r₀ ∈ h.endpoint.runs, h.ends? a ≠ some r₀.serial ∧ r = r₀.tell (h.tells a r₀)) ∨
        h.starts? a = some r := by
  rw [(h.works_step a).runs, List.mem_append, List.mem_map, Option.mem_toList]
  simp only [List.mem_filter, decide_eq_true_eq, and_assoc, eq_comm (b := r)]

/-- What an act says of the run that it begins. -/
structure Starting (h : Host η) (a : Act η) (r : Run η) : Prop where
  serial : r.serial = h.endpoint.nextRun
  fired : r.fired = false
  abortable : r.abortable = (r.request.isSome && Handler.isCancellable r.handler r.method)
  /-- The run has the handler that is registered. -/
  hosted : h.endpoint.registry.get? r.proxy = some r.handler
  /-- A run that answers a request begins when the request arrives, -/
  receives : ∀ id, r.request = some id →
    h.receives? a = some (.request id r.proxy r.method r.args)
  /-- and only if no other run answers it. -/
  free : ∀ id, r.request = some id → h.endpoint.runFor? id = none

theorem starts?_eq_some {h : Host η} {a : Act η} {r : Run η} (hr : h.starts? a = some r) :
    h.Starting a r := by
  unfold starts? at hr
  split at hr
  · next id proxy method args hm =>
      split at hr
      · next hfree =>
          obtain ⟨g, hosted, rfl⟩ := Option.map_eq_some_iff.mp hr
          refine ⟨rfl, rfl, rfl, hosted, fun id' hid => ?_, fun id' hid => ?_⟩
          · obtain rfl := Option.some.inj hid
            exact hm
          · obtain rfl := Option.some.inj hid
            exact Option.isNone_iff_eq_none.mp hfree
      · cases hr
  · obtain ⟨g, hosted, rfl⟩ := Option.map_eq_some_iff.mp hr
    exact ⟨rfl, rfl, rfl, hosted, nofun, nofun⟩
  · cases hr

theorem Tidy.step {h : Host η} (hh : h.Tidy) (a : Act η) : (h.step a).1.Tidy := by
  have hruns := (h.works_step a).runs
  have hnext := (h.works_step a).nextRun
  refine { serials := ?serials, begun := ?begun, requests := ?requests, abortable := ?abortable }
  case serials =>
    rw [hruns, List.map_append, List.map_map, List.nodup_append]
    have hleft : ((h.endpoint.runs.filter fun r => h.ends? a ≠ some r.serial).map
        (Run.serial ∘ fun r => r.tell (h.tells a r))).Sublist (h.endpoint.runs.map Run.serial) :=
      List.filter_sublist.map Run.serial
    refine ⟨hleft.nodup hh.serials, ?_, ?_⟩
    · cases h.starts? a with
      | none => exact List.nodup_nil
      | some r => exact List.nodup_singleton _
    · rintro n hold _ hnew rfl
      obtain ⟨r, hr, rfl⟩ := List.mem_map.mp (hleft.subset hold)
      obtain ⟨r', hr', heq⟩ := List.mem_map.mp hnew
      have hlt := hh.begun r hr
      have hserial := (starts?_eq_some (Option.mem_toList.mp hr')).serial
      omega
  case begun =>
    intro r hr
    rw [hnext]
    rcases (h.mem_runs_step a r).mp hr with ⟨r₀, hr₀, -, rfl⟩ | hs
    · have := hh.begun r₀ hr₀
      exact Nat.lt_add_right _ this
    · rw [(starts?_eq_some hs).serial, hs]
      exact Nat.lt_succ_self _
  case requests =>
    rw [hruns, List.filterMap_append, List.filterMap_map, List.nodup_append]
    have hleft : ((h.endpoint.runs.filter fun r => h.ends? a ≠ some r.serial).filterMap
        (Run.request ∘ fun r => r.tell (h.tells a r))).Sublist
        (h.endpoint.runs.filterMap Run.request) :=
      List.filter_sublist.filterMap Run.request
    refine ⟨hleft.nodup hh.requests, ?_, ?_⟩
    · cases h.starts? a with
      | none => exact List.nodup_nil
      | some r => cases hid : r.request <;> simp [hid]
    · rintro id hold _ hnew rfl
      obtain ⟨r, hr, hid⟩ := List.mem_filterMap.mp (hleft.subset hold)
      obtain ⟨r', hr', hid'⟩ := List.mem_filterMap.mp hnew
      -- a run begins for a request only if no other run answers it
      have hfree := (starts?_eq_some (Option.mem_toList.mp hr')).free id hid'
      have := List.find?_eq_none.mp hfree r hr
      exact this (by simpa using hid)
  case abortable =>
    intro r hr
    rcases (h.mem_runs_step a r).mp hr with ⟨r₀, hr₀, -, rfl⟩ | hs
    · exact hh.abortable r₀ hr₀
    · exact (starts?_eq_some hs).abortable

/-- A run is known by its number. -/
theorem Tidy.run?_eq_some {h : Host η} (hh : h.Tidy) (r : Run η) :
    h.endpoint.run? r.serial = some r ↔ r ∈ h.endpoint.runs := by
  constructor
  · exact fun hr => List.mem_of_find?_eq_some hr
  · intro hr
    obtain ⟨xs, ys, hsplit⟩ := List.append_of_mem hr
    have hn := hh.serials
    rw [hsplit, List.map_append, List.map_cons, List.nodup_append] at hn
    have hxs : xs.find? (fun r' => r'.serial = r.serial) = none := by
      refine List.find?_eq_none.mpr fun r' hr' heq => ?_
      exact hn.2.2 r'.serial (List.mem_map_of_mem hr') r.serial List.mem_cons_self
        (by simpa using heq)
    unfold Endpoint.run?
    rw [hsplit, List.find?_append, hxs, Option.none_or]
    simp

/-- A run that answers a request is known by it. -/
theorem Tidy.runFor?_eq_some {h : Host η} (hh : h.Tidy) (id : RequestId) (r : Run η) :
    h.endpoint.runFor? id = some r ↔ r ∈ h.endpoint.runs ∧ r.request = some id := by
  constructor
  · intro hr
    exact ⟨List.mem_of_find?_eq_some hr, by simpa using List.find?_some hr⟩
  · rintro ⟨hr, hid⟩
    obtain ⟨xs, ys, hsplit⟩ := List.append_of_mem hr
    have hn := hh.requests
    rw [hsplit, List.filterMap_append, List.filterMap_cons, hid, List.nodup_append] at hn
    have hxs : xs.find? (fun r' => r'.request = some id) = none := by
      refine List.find?_eq_none.mpr fun r' hr' heq => ?_
      exact hn.2.2 id (List.mem_filterMap.mpr ⟨r', hr', by simpa using heq⟩) id
        List.mem_cons_self rfl
    unfold Endpoint.runFor?
    rw [hsplit, List.find?_append, hxs, Option.none_or]
    simp [hid]

/-- No two runs answer one request. -/
theorem Tidy.working_eq {h : Host η} (hh : h.Tidy) (id : RequestId) :
    h.endpoint.working id = if (h.endpoint.runFor? id).isSome then 1 else 0 := by
  cases hr : h.endpoint.runFor? id with
  | none => exact (h.endpoint.working_eq_zero id).mpr hr
  | some r =>
      obtain ⟨hmem, hid⟩ := (hh.runFor?_eq_some id r).mp hr
      have hcount : h.endpoint.working id =
          (h.endpoint.runs.filterMap Run.request).count id := by
        unfold Endpoint.working
        rw [List.count_eq_countP, List.countP_filterMap]
        refine List.countP_congr fun r _ => ?_
        cases r.request <;> simp
      have hmem' : id ∈ h.endpoint.runs.filterMap Run.request :=
        List.mem_filterMap.mpr ⟨r, hmem, hid⟩
      rw [hcount, List.count_eq_one_of_mem hh.requests hmem']
      rfl

/-- A run that ends is one less that answers its request. -/
theorem Tidy.working_filter {h : Host η} (hh : h.Tidy) {r : Run η} (hr : r ∈ h.endpoint.runs)
    (id : RequestId) :
    h.endpoint.working id =
      (h.endpoint.runs.filter fun r' => r'.serial ≠ r.serial).countP (fun r' => r'.request = some id)
        + if r.request = some id then 1 else 0 := by
  obtain ⟨xs, ys, hsplit⟩ := List.append_of_mem hr
  have hn := hh.serials
  rw [hsplit, List.map_append, List.map_cons, List.nodup_append, List.nodup_cons] at hn
  have hxs : ∀ r' ∈ xs, r'.serial ≠ r.serial := fun r' hr' =>
    hn.2.2 r'.serial (List.mem_map_of_mem hr') r.serial List.mem_cons_self
  have hys : ∀ r' ∈ ys, r'.serial ≠ r.serial := fun r' hr' heq =>
    hn.2.1.1 (heq ▸ List.mem_map_of_mem hr')
  have hfilter : h.endpoint.runs.filter (fun r' => r'.serial ≠ r.serial) = xs ++ ys := by
    rw [hsplit, List.filter_append, List.filter_cons_of_neg (by simp),
      List.filter_eq_self.mpr (by simpa using hxs), List.filter_eq_self.mpr (by simpa using hys)]
  unfold Endpoint.working
  rw [hfilter, hsplit, List.countP_append, List.countP_append, List.countP_cons]
  simp only [decide_eq_true_eq]
  omega

/-! ## What is queued -/

/-- An answer is the outcome of a run that ends. -/
structure Ends (h : Host η) (a : Act η) (id : RequestId) (o : Outbound) (r : Run η)
    (out : Outcome) : Prop where
  act : a = .op (.reap r.serial)
  run : h.endpoint.run? r.serial = some r
  request : r.request = some id
  ending : h.ending? r = some out
  message : o.message = out.message id

/-- An answer says that a service is not there. -/
structure Misses (h : Host η) (a : Act η) (id : RequestId) (o : Outbound) (proxy : ProxyId) :
    Prop where
  receives : ∃ method args, h.receives? a = some (.request id proxy method args)
  free : h.endpoint.runFor? id = none
  missing : h.endpoint.registry.get? proxy = none
  message : o.message = .replyErr id (.noSuchProxy proxy)

/-- **The kinds of messages that an act queues.** -/
inductive Posting (h : Host η) (a : Act η) (o : Outbound) : Prop
  /-- A call is made. -/
  | request (proxy : ProxyId) (method : String) (args : List Value)
      (message : o = { message := .request ⟨h.endpoint.nextId⟩ proxy method args })
      (next : h.endpoint.nextId ≠ 0) (granted : h.endpoint.refusal? proxy method args = none)
      (step : h.step a = h.begin proxy method args (h.endpoint.request proxy method args))
      (op : a = .op (.request proxy method args) ∨
        ∃ i : Identifier, i.id = proxy ∧ a = .op (.invoke i method args))
  /-- A service is notified. -/
  | notification (proxy : ProxyId) (method : String) (args : List Value)
      (message : o = { message := .notification proxy method args })
      (encodes : ∃ bs, Codec.encodeMessage (.notification proxy method args) = .ok bs)
      (op : a = .op (.notifyProxy proxy method args) ∨
        ∃ i : Identifier, i.id = proxy ∧ a = .op (.notify i method args))
  /-- A call that waits is taken back. -/
  | cancel (k : Nat) (q : Asked) (id : RequestId) (message : o = { message := .cancel id })
      (call : h.calls[k]? = some q) (named : q.call.id = some id)
      (waits : id ∈ h.endpoint.waiting) (cause : (q.cause? h k a).isSome = true)
      (op : ∃ op, a = .op op)
  /-- A run ends. -/
  | outcome (id : RequestId) (r : Run η) (out : Outcome)
      (message : o = { message := out.message id }) (ends : h.Ends a id o r out)
  /-- A request came for a service that is not there. -/
  | miss (id : RequestId) (proxy : ProxyId)
      (message : o = { message := .replyErr id (.noSuchProxy proxy) })
      (misses : h.Misses a id o proxy)
  /-- An answer was refused by the channel. -/
  | replacement (o' : Outbound) (err : TransportError) (id : RequestId)
      (bounced : h.bounced? a = some (o', err)) (answers : o'.answers? = some id)
      (message : o = { message := .replyErr id (Endpoint.undelivered err), lastResort := true })

omit [Handler η] in
theorem requests?_eq_some {e : Endpoint η} {proxy : ProxyId} {method : String}
    {args : List Value} {o : Outbound} (hq : e.requests? proxy method args = some o) :
    o = { message := .request ⟨e.nextId⟩ proxy method args } ∧
      e.refusal? proxy method args = none := by
  unfold Endpoint.requests? at hq
  split at hq
  · next hnone => exact ⟨(Option.some.inj hq).symm, Option.isNone_iff_eq_none.mp hnone⟩
  · cases hq

omit [Handler η] in
theorem notifies?_eq_some {e : Endpoint η} {proxy : ProxyId} {method : String}
    {args : List Value} {o : Outbound} (hq : e.notifies? proxy method args = some o) :
    o = { message := .notification proxy method args } ∧
      ∃ bs, Codec.encodeMessage (.notification proxy method args) = .ok bs := by
  unfold Endpoint.notifies? at hq
  split at hq
  · obtain ⟨bs, hbs, rfl⟩ := Option.map_eq_some_iff.mp hq
    refine ⟨rfl, bs, ?_⟩
    cases henc : Codec.encodeMessage (.notification proxy method args) with
    | ok bs' =>
        rw [henc] at hbs
        obtain rfl := Option.some.inj hbs
        rfl
    | error err =>
        rw [henc] at hbs
        cases hbs
  · cases hq

omit [Handler η] in
theorem answers?_eq_some {e : Endpoint η} {id : RequestId} {reply : Except RemoteError Value}
    {o : Outbound} (hq : e.answers? id reply = some o) :
    o = { message := Endpoint.answer id reply } := by
  unfold Endpoint.answers? at hq
  split at hq
  · exact (Option.some.inj hq).symm
  · cases hq

omit [Handler η] in
theorem replaces?_eq_some {e : Endpoint η} {o o' : Outbound} {err : TransportError}
    (hq : e.replaces? o err = some o') :
    ∃ id, o.answers? = some id ∧
      o' = { message := .replyErr id (Endpoint.undelivered err), lastResort := true } := by
  unfold Endpoint.replaces? at hq
  split at hq
  · obtain ⟨id, hid, rfl⟩ := Option.map_eq_some_iff.mp hq
    exact ⟨id, hid, rfl⟩
  · cases hq

theorem posting_of_takesBack {h : Host η} {op : Op η} {o : Outbound} {k : Nat}
    (hq : queues?.takesBack? h k (.op op) = some o) : h.Posting (.op op) o := by
  unfold queues?.takesBack? at hq
  obtain ⟨q, hcall, hq₁⟩ := Option.bind_eq_some_iff.mp hq
  split at hq₁
  · next hcause =>
      obtain ⟨id, hid, hq₂⟩ := Option.bind_eq_some_iff.mp hq₁
      unfold Endpoint.cancels? at hq₂
      split at hq₂
      · next hwait =>
          obtain rfl := Option.some.inj hq₂
          exact .cancel k q id rfl hcall hid hwait.1 hcause ⟨op, rfl⟩
      · cases hq₂
  · cases hq₁

/-- The end of a run queues what its handler has come to. -/
theorem posting_of_reap {h : Host η} {serial : Nat} {o : Outbound}
    (hq : h.queues? (.op (.reap serial)) = some o) : h.Posting (.op (.reap serial)) o := by
  obtain ⟨r, hr, hq₁⟩ := Option.bind_eq_some_iff.mp hq
  obtain ⟨out, hout, hq₂⟩ := Option.bind_eq_some_iff.mp hq₁
  obtain ⟨id, hid, hq₃⟩ := Option.bind_eq_some_iff.mp hq₂
  obtain rfl : r.serial = serial := by simpa using List.find?_some hr
  obtain rfl := answers?_eq_some hq₃
  rw [Endpoint.answer_toReply]
  exact .outcome id r out rfl ⟨rfl, hr, hid, hout, rfl⟩

/-- What arrives queues something only if it asks for a service that is not there. -/
theorem posting_of_receive {h : Host η} {frame : Bytes} {o : Outbound}
    (hq : h.queues? (.receive frame) = some o) : h.Posting (.receive frame) o := by
  simp only [queues?] at hq
  split at hq
  · next id proxy method args hm =>
      split at hq
      · next hfree =>
          obtain rfl := answers?_eq_some hq
          have hplain : (RemoteError.noSuchProxy proxy).details = none := rfl
          rw [Endpoint.answer_of_no_details id hplain]
          exact .miss id proxy rfl ⟨⟨method, args, hm⟩, Option.isNone_iff_eq_none.mp hfree.1,
            Option.isNone_iff_eq_none.mp hfree.2, rfl⟩
      · cases hq
  · cases hq

/-- Every message that an act queues is of one of these kinds. -/
theorem posting {h : Host η} {a : Act η} {o : Outbound} (hq : h.queues? a = some o) :
    h.Posting a o := by
  cases a with
  | op op =>
      cases op with
      | invoke i method args =>
          simp only [queues?] at hq
          split at hq
          · cases hq
          · next hno =>
              obtain ⟨hn, hside⟩ := not_or.mp hno
              obtain ⟨rfl, hr⟩ := requests?_eq_some hq
              refine .request i.id method args rfl hn hr ?_ (Or.inr ⟨i, rfl, rfl⟩)
              rw [step, operate_invoke, if_neg hn, if_neg hside]
      | request proxy method args =>
          simp only [queues?] at hq
          split at hq
          · cases hq
          · next hn =>
              obtain ⟨rfl, hr⟩ := requests?_eq_some hq
              refine .request proxy method args rfl hn hr ?_ (Or.inl rfl)
              simp only [step, operate]
              rw [if_neg hn]
      | notify i method args =>
          simp only [queues?] at hq
          split at hq
          · cases hq
          · obtain ⟨rfl, henc⟩ := notifies?_eq_some hq
            exact .notification i.id method args rfl henc (Or.inr ⟨i, rfl, rfl⟩)
      | notifyProxy proxy method args =>
          obtain ⟨rfl, henc⟩ := notifies?_eq_some hq
          exact .notification proxy method args rfl henc (Or.inl rfl)
      | cancel k => exact posting_of_takesBack hq
      | drop k => exact posting_of_takesBack hq
      | poll k => exact posting_of_takesBack hq
      | reap serial => exact posting_of_reap hq
      | _ => cases hq
  | receive frame => exact posting_of_receive hq
  | take => cases hq
  | sent r =>
      obtain ⟨p, hp, hq⟩ := Option.bind_eq_some_iff.mp hq
      obtain ⟨id, hid, rfl⟩ := replaces?_eq_some hq
      exact .replacement p.1 p.2 id hp hid rfl

/-- **There are two sources of answers**, runs that end and services that are not there. -/
theorem source_of_answers {h : Host η} {a : Act η} {o : Outbound} {id : RequestId}
    (hq : h.queues? a = some o) (ho : o.answers? = some id) :
    (∃ r out, h.Ends a id o r out) ∨ ∃ proxy, h.Misses a id o proxy := by
  cases posting hq with
  | outcome id' r out message ends =>
      obtain rfl : id' = id := by
        rw [message, ← Endpoint.answer_toReply, Outbound.answers?_answer] at ho
        exact Option.some.inj ho
      exact Or.inl ⟨r, out, ends⟩
  | miss id' proxy message misses =>
      obtain rfl : id' = id := by
        rw [message] at ho
        exact Option.some.inj ho
      exact Or.inr ⟨proxy, misses⟩
  | _ =>
      -- the others are no answers, or stand in for one
      subst_vars
      cases ho

/-! ## The balance -/

/-- How many answers for an id an act queues. -/
def answering (h : Host η) (a : Act η) (id : RequestId) : Nat :=
  (queuedIn (h.step a).2).countP fun o => o.answers? = some id

theorem working_step (h : Host η) (a : Act η) (id : RequestId) :
    (h.step a).1.endpoint.working id =
      (h.endpoint.runs.filter fun r => h.ends? a ≠ some r.serial).countP
          (fun r => r.request = some id) +
        (h.starts? a).toList.countP fun r => r.request = some id := by
  unfold Endpoint.working
  rw [(h.works_step a).runs, List.countP_append, List.countP_map]
  rfl

/-- An act keeps the balance if answers and runs together grow by the request that it brings. -/
def Balanced (h : Host η) (a : Act η) (id : RequestId) : Prop :=
  (h.queues? a).toList.countP (fun o => o.answers? = some id) +
      ((h.endpoint.runs.filter fun r => h.ends? a ≠ some r.serial).countP
          (fun r => r.request = some id) +
        (h.starts? a).toList.countP fun r => r.request = some id) =
    h.endpoint.working id + if Moment.accepts ⟨h, a⟩ id then 1 else 0

section

variable {h : Host η} {id : RequestId}

/-- An act that neither ends a run nor brings a request changes nothing. -/
theorem Balanced.of_quiet {a : Act η} (he : h.ends? a = none) (hst : h.starts? a = none)
    (hq : ∀ o, h.queues? a = some o → o.answers? ≠ some id)
    (hacc : Moment.accepts ⟨h, a⟩ id = false) : h.Balanced a id := by
  have hzero : (h.queues? a).toList.countP (fun o => o.answers? = some id) = 0 := by
    refine List.countP_eq_zero.mpr fun o ho hid => ?_
    exact hq o (Option.mem_toList.mp ho) (of_decide_eq_true hid)
  unfold Balanced
  rw [hzero, he, hst, hacc]
  simp [Endpoint.working]

/-- The end of a run is answered, if the run answers a request. -/
theorem Tidy.balanced_reap (hh : h.Tidy) (hopen : h.endpoint.isOpen = true) (serial : Nat) :
    h.Balanced (.op (.reap serial)) id := by
  cases hr : (h.endpoint.run? serial).bind h.ending? with
  | none =>
      refine .of_quiet (by simp only [ends?, hr]; rfl) rfl (fun o ho hid => ?_) rfl
      rcases source_of_answers ho hid with ⟨r, out, hsrc⟩ | ⟨proxy, ⟨_, _, hm⟩, _⟩
      · obtain ⟨rfl⟩ : serial = r.serial := by
          have := hsrc.act
          simpa using this
        rw [hsrc.run, Option.bind_some, hsrc.ending] at hr
        cases hr
      · cases hm
  | some out =>
      obtain ⟨r, hrun, hend⟩ := Option.bind_eq_some_iff.mp hr
      have hmem : r ∈ h.endpoint.runs := List.mem_of_find?_eq_some hrun
      have hserial : r.serial = serial := by simpa using List.find?_some hrun
      have he : h.ends? (.op (.reap serial)) = some r.serial := by
        simp only [ends?, hr, hserial]
        rfl
      have hfilter : (h.endpoint.runs.filter fun r' => some r.serial ≠ some r'.serial) =
          h.endpoint.runs.filter fun r' => r'.serial ≠ r.serial := by
        refine List.filter_congr fun r' _ => ?_
        simp only [ne_eq, Option.some.injEq, eq_comm]
      have hq : h.queues? (.op (.reap serial)) =
          r.request.map fun id => { message := Endpoint.answer id out.toReply } := by
        simp only [queues?, hrun, Option.bind_some, hend, Endpoint.answers?, hopen, if_true]
        cases r.request <;> rfl
      have hacc : Moment.accepts ⟨h, .op (.reap serial)⟩ id = false := rfl
      have hst : h.starts? (.op (.reap serial)) = none := rfl
      unfold Balanced
      rw [he, hfilter, hq, hacc, hst, hh.working_filter hmem id]
      cases hid : r.request with
      | none => simp
      | some id' =>
          by_cases hsame : id' = id
          · simp [hsame, Nat.add_comm]
          · simp [hsame]

/-- A request whose id is free is answered at once or begins a run. -/
theorem balanced_request (hopen : h.endpoint.isOpen = true) {frame : Bytes} {id' : RequestId}
    {proxy : ProxyId} {method : String} {args : List Value}
    (hm : h.receives? (.receive frame) = some (.request id' proxy method args)) :
    h.Balanced (.receive frame) id := by
  cases hrun : h.endpoint.runFor? id' with
  | some r =>
      refine .of_quiet rfl (by simp only [starts?, hm, hrun]; rfl) (fun o ho => ?_) ?_
      · simp only [queues?, hm, hrun] at ho
        cases ho
      · simp only [Moment.accepts, hm]
        by_cases hsame : id' = id
        · rw [← hsame, hrun]
          exact Bool.and_false _
        · simp [hsame]
  | none =>
      have hacc : Moment.accepts ⟨h, .receive frame⟩ id = decide (id' = id) := by
        simp only [Moment.accepts, hm]
        by_cases hsame : id' = id
        · rw [← hsame, hrun]
          simp
        · simp [hsame]
      have he : h.ends? (.receive frame) = none := rfl
      unfold Balanced
      cases hget : h.endpoint.registry.get? proxy with
      | none =>
          have hq : h.queues? (.receive frame) = some
              { message := Endpoint.answer id' (.error (.noSuchProxy proxy)) } := by
            simp only [queues?, hm, hrun, hget, Endpoint.answers?, hopen]
            rfl
          have hst : h.starts? (.receive frame) = none := by
            simp only [starts?, hm, hrun, hget]
            rfl
          rw [hacc, he, hq, hst]
          simp [Endpoint.working, Nat.add_comm]
      | some g =>
          have hq : h.queues? (.receive frame) = none := by
            simp only [queues?, hm, hrun, hget]
            rfl
          have hst : h.starts? (.receive frame) =
              some (h.endpoint.newRun (some id') proxy method args g) := by
            simp only [starts?, hm, hrun, hget]
            rfl
          rw [hacc, he, hq, hst]
          simp [Endpoint.working, Endpoint.newRun]

theorem balanced_receive (hopen : h.endpoint.isOpen = true) (frame : Bytes) :
    h.Balanced (.receive frame) id := by
  cases hm : h.receives? (.receive frame) with
  | none =>
      refine .of_quiet rfl (by simp only [starts?, hm]) (fun o ho => ?_)
        (by simp only [Moment.accepts, hm])
      simp only [queues?, hm] at ho
      cases ho
  | some m =>
      cases m with
      | request id' proxy method args => exact balanced_request hopen hm
      | notification proxy method args =>
          -- the run that begins, if one does, answers no request
          have he : h.ends? (.receive frame) = none := rfl
          have hq : h.queues? (.receive frame) = none := by simp only [queues?, hm]
          have hacc : Moment.accepts ⟨h, .receive frame⟩ id = false := by
            simp only [Moment.accepts, hm]
          unfold Balanced
          rw [hacc, he, hq]
          simp only [starts?, hm]
          cases h.endpoint.registry.get? proxy <;>
            simp [Endpoint.working, Endpoint.newRun]
      | _ =>
          refine .of_quiet rfl (by simp only [starts?, hm]) (fun o ho => ?_)
            (by simp only [Moment.accepts, hm])
          simp only [queues?, hm] at ho
          cases ho

theorem Tidy.balanced (hh : h.Tidy) (hopen : h.endpoint.isOpen = true) (a : Act η) :
    h.Balanced a id := by
  cases a with
  | op o =>
      cases o with
      | reap serial => exact hh.balanced_reap hopen serial
      | _ =>
          refine .of_quiet rfl rfl (fun o ho hid => ?_) rfl
          rcases source_of_answers ho hid with ⟨r, out, hsrc⟩ | ⟨proxy, hsrc⟩
          · cases hsrc.act
          · obtain ⟨_, _, hm⟩ := hsrc.receives
            cases hm
  | receive frame => exact balanced_receive hopen frame
  | take => exact .of_quiet rfl rfl (fun o ho => by cases ho) rfl
  | sent r =>
      refine .of_quiet rfl ?_ (fun o ho hid => ?_) ?_
      · cases r <;> rfl
      · rcases source_of_answers ho hid with ⟨r, out, hsrc⟩ | ⟨proxy, hsrc⟩
        · cases hsrc.act
        · obtain ⟨_, _, hm⟩ := hsrc.receives
          cases hm
      · cases r <;> rfl

end

/-- **The balance of one act.** -/
theorem Tidy.balance {h : Host η} (hh : h.Tidy) (hs : h.Sound) (hopen : h.endpoint.isOpen = true)
    (a : Act η) (id : RequestId) :
    h.answering a id + (h.step a).1.endpoint.working id =
      h.endpoint.working id + if Moment.accepts ⟨h, a⟩ id then 1 else 0 := by
  rw [working_step, answering, hs.queuedIn_step]
  exact hh.balanced hopen a

/-- An open endpoint was open before. -/
theorem isOpen_of_step (h : Host η) (a : Act η) (hopen : (h.step a).1.endpoint.isOpen = true) :
    h.endpoint.isOpen = true := by
  cases ha : a.asks with
  | false => exact (h.settles_step ha).balanced.isOpen hopen
  | true =>
      rcases h.step_asks ha with ⟨hs, -⟩ | ⟨_, _, _, _, hs, -⟩ | ⟨-, _, _, _, hs, -⟩
      · rwa [hs] at hopen
      · rwa [hs] at hopen
      · rw [hs] at hopen
        exact (Endpoint.isOpen_request ..).symm.trans hopen

/-- What has concluded before, or concludes with the act. -/
theorem mem_concluded_step {h : Host η} {a : Act η} {p : Nat × Outcome}
    (hp : p ∈ (h.step a).1.concluded) :
    p ∈ h.concluded ∨ a = .op (.conclude p.1 p.2) ∧ p.2.isOwn = true := by
  have hattempt : ∀ r, (h.attempt r).1.concluded = h.concluded := by
    intro r
    cases r <;> rfl
  have honCall : ∀ k f, (h.onCall k f).1.concluded = h.concluded := by
    intro k f
    unfold onCall
    split <;> rfl
  have hsame : (h.step a).1.concluded = h.concluded →
      p ∈ h.concluded ∨ a = .op (.conclude p.1 p.2) ∧ p.2.isOwn = true :=
    fun heq => Or.inl (heq ▸ hp)
  cases ha : a.asks with
  | true =>
      rcases h.step_asks ha with ⟨hs, -⟩ | ⟨_, _, _, _, hs, -⟩ | ⟨-, _, _, _, hs, -⟩ <;>
        exact hsame (congrArg (fun x => x.1.concluded) hs)
  | false =>
      cases a with
      | op o =>
          cases o with
          | conclude serial out =>
              simp only [Host.step, operate] at hp
              split at hp
              · next hcond =>
                  rcases List.mem_append.mp hp with hp | hp
                  · exact Or.inl hp
                  · obtain rfl := List.mem_singleton.mp hp
                    simp only [Bool.and_eq_true] at hcond
                    exact Or.inr ⟨rfl, hcond.2⟩
              · exact Or.inl hp
          | notify i method args => exact hsame (hattempt _)
          | notifyProxy proxy method args => exact hsame (hattempt _)
          | cancel k => exact hsame (honCall k fun c => (c, (c.cancel h.endpoint).2))
          | drop k => exact hsame (honCall k fun c => (c, c.drop h.endpoint))
          | poll k => exact hsame (honCall k fun c => (c.poll h.now h.endpoint).2)
          | set i handler =>
              refine hsame ?_
              simp only [Host.step, operate]
              split <;> rfl
          | reap serial =>
              refine hsame ?_
              simp only [Host.step, operate]
              split <;> rfl
          | invoke i method args => cases ha
          | request proxy method args => cases ha
          | _ => exact hsame rfl
      | receive frame => exact hsame rfl
      | take =>
          refine hsame ?_
          simp only [Host.step]
          split <;> rfl
      | sent r =>
          refine hsame ?_
          simp only [Host.step]
          split <;> rfl

omit [Handler η] in
/-- A run ends as its handler has, or it is aborted because it has been told to stop. -/
theorem ending?_eq_some {h : Host η} {r : Run η} {out : Outcome}
    (hend : h.ending? r = some out) :
    (r.serial, out) ∈ h.concluded ∨ out = .aborted ∧ r.abortable = true ∧ r.fired = true := by
  unfold ending? at hend
  split at hend
  · next out' hout =>
      obtain rfl := Option.some.inj hend
      unfold outcome? at hout
      obtain ⟨⟨serial, out⟩, hfind, rfl⟩ := Option.map_eq_some_iff.mp hout
      have hserial : serial = r.serial := by simpa using List.find?_some hfind
      rw [← hserial]
      exact Or.inl (List.mem_of_find?_eq_some hfind)
  · split at hend
    · next hboth =>
        exact Or.inr ⟨(Option.some.inj hend).symm, Bool.and_eq_true_iff.mp hboth⟩
    · cases hend

/-- A run that runs on when its caller cancels ends as its handler does. -/
theorem Tidy.outcome?_of_ends {h : Host η} (hh : h.Tidy) {a : Act η} {id : RequestId}
    {o : Outbound} {r : Run η} {out : Outcome} (he : h.Ends a id o r out)
    (hr : Handler.isCancellable r.handler r.method = false) :
    (r.serial, out) ∈ h.concluded := by
  rcases ending?_eq_some he.ending with hmem | ⟨-, habort, -⟩
  · exact hmem
  · rw [hh.abortable r (List.mem_of_find?_eq_some he.run), hr, Bool.and_false] at habort
    cases habort

end Host

/-! ## Whole runs -/

namespace Chronicle

variable [Handler η]

/-- What becomes of requests and their answers. -/
structure Replies (x : Chronicle η) : Prop where
  /-- Answers and runs together are as many as the requests that were accepted. -/
  count : x.host.endpoint.isOpen = true → ∀ id,
    (queuedIn x.events).countP (fun o => o.answers? = some id) +
        (if (x.host.endpoint.runFor? id).isSome then 1 else 0) =
      x.past.countP fun m => m.accepts id
  /-- The next act keeps the balance: it queues an answer for an id exactly when it ends the run for
  it, or when it brings a request for a service that is not there. -/
  next : x.host.endpoint.isOpen = true → ∀ a id,
    (queuedIn (x.host.step a).2).countP (fun o => o.answers? = some id) +
        (if ((x.act a).host.endpoint.runFor? id).isSome then 1 else 0) =
      (if (x.host.endpoint.runFor? id).isSome then 1 else 0) +
        if Moment.accepts ⟨x.host, a⟩ id then 1 else 0
  /-- No two runs answer one request. -/
  single : ∀ r ∈ x.host.endpoint.runs, ∀ r' ∈ x.host.endpoint.runs, ∀ id,
    r.request = some id → r'.request = some id → r = r'
  /-- Nothing is queued for a frame that is not an accepted request. -/
  silent : ∀ frame, (∀ id, Moment.accepts ⟨x.host, .receive frame⟩ id = false) →
    queuedIn (x.host.step (.receive frame)).2 = []
  /-- Nothing is queued for the end of a run that does not answer a request. -/
  mute : ∀ r ∈ x.host.endpoint.runs, r.request = none →
    queuedIn (x.host.step (.op (.reap r.serial))).2 = []
  /-- An answer is the outcome of a run, or says that the service is not there. -/
  source : ∀ m ∈ x.past, ∀ o ∈ queuedIn m.events, ∀ id, o.answers? = some id →
    (∃ r out, m.host.Ends m.act id o r out) ∨ ∃ proxy, m.host.Misses m.act id o proxy
  /-- A run that is not aborted is answered with the outcome of its handler. -/
  own : ∀ m ∈ x.past, ∀ id o r out, m.host.Ends m.act id o r out →
    Handler.isCancellable r.handler r.method = false →
      out.isOwn = true ∧ ∃ m' ∈ x.past, m'.act = .op (.conclude r.serial out)
  /-- Every answer can be encoded. -/
  encodable : ∀ o ∈ queuedIn x.events, ∀ id, o.answers? = some id →
    Codec.encodeMessage o.message = .ok o.bytes

/-- Every outcome was brought about by a handler. -/
theorem concluded_run (c : Config) (acts : List (Act η)) :
    let x := (ofConfig c).run acts
    (∀ p ∈ x.host.concluded, p.2.isOwn = true ∧ ∃ m ∈ x.past, m.act = .op (.conclude p.1 p.2)) ∧
      ∀ m ∈ x.past, ∀ p ∈ m.host.concluded,
        p.2.isOwn = true ∧ ∃ m' ∈ x.past, m'.act = .op (.conclude p.1 p.2) := by
  have hold {x : Chronicle η} {a : Act η} {p : Nat × Outcome}
      (h : p.2.isOwn = true ∧ ∃ m ∈ x.past, m.act = .op (.conclude p.1 p.2)) :
      p.2.isOwn = true ∧ ∃ m ∈ (x.act a).past, m.act = .op (.conclude p.1 p.2) := by
    obtain ⟨hown, m, hm, hact⟩ := h
    exact ⟨hown, m, List.mem_append_left _ hm, hact⟩
  refine run_induction (P := fun x =>
    (∀ p ∈ x.host.concluded, p.2.isOwn = true ∧ ∃ m ∈ x.past, m.act = .op (.conclude p.1 p.2)) ∧
      ∀ m ∈ x.past, ∀ p ∈ m.host.concluded,
        p.2.isOwn = true ∧ ∃ m' ∈ x.past, m'.act = .op (.conclude p.1 p.2)) ?_ ?_ acts
  · exact ⟨fun _ hp => absurd hp List.not_mem_nil, fun _ hm => absurd hm List.not_mem_nil⟩
  · rintro x a ⟨hnow, hpast⟩
    refine ⟨fun p hp => ?_, fun m hm p hp => ?_⟩
    · rcases Host.mem_concluded_step hp with hp | ⟨rfl, hown⟩
      · exact hold (hnow p hp)
      · exact ⟨hown, ⟨x.host, .op (.conclude p.1 p.2)⟩,
          List.mem_append_right _ List.mem_cons_self, rfl⟩
    · rcases List.mem_append.mp hm with hm | hm
      · exact hold (hpast m hm p hp)
      · rw [List.mem_singleton.mp hm] at hp
        exact hold (hnow p hp)

/-- The host is sound and tidy at every moment of a run. -/
theorem sound_tidy (c : Config) (acts : List (Act η)) :
    (((ofConfig c).run acts).host.Sound ∧ ((ofConfig c).run acts).host.Tidy) ∧
      ∀ m ∈ ((ofConfig c).run acts).past, m.host.Sound ∧ m.host.Tidy :=
  invariant (P := fun h => h.Sound ∧ h.Tidy) ⟨Host.sound_ofConfig c, Host.tidy_ofConfig c⟩
    (fun _ a hh => ⟨hh.1.step a, hh.2.step a⟩) acts

/-- The balance of a whole run. -/
theorem count_run (c : Config) (acts : List (Act η)) (id : RequestId) :
    let x := (ofConfig c).run acts
    (x.host.Sound ∧ x.host.Tidy) ∧ (x.host.endpoint.isOpen = true →
      (queuedIn x.events).countP (fun o => o.answers? = some id) + x.host.endpoint.working id =
        x.past.countP fun m => m.accepts id) := by
  refine run_induction (P := fun x =>
    (x.host.Sound ∧ x.host.Tidy) ∧ (x.host.endpoint.isOpen = true →
      (queuedIn x.events).countP (fun o => o.answers? = some id) + x.host.endpoint.working id =
        x.past.countP fun m => m.accepts id)) ?_ ?_ acts
  · exact ⟨⟨Host.sound_ofConfig c, Host.tidy_ofConfig c⟩, fun _ => rfl⟩
  · rintro x a ⟨⟨hs, ht⟩, hcount⟩
    refine ⟨⟨hs.step a, ht.step a⟩, fun hopen => ?_⟩
    have hbefore := x.host.isOpen_of_step a hopen
    have hold := hcount hbefore
    have hact := ht.balance hs hbefore a id
    rw [events_act, queuedIn_append, List.countP_append, past_act, List.countP_append,
      List.countP_singleton]
    unfold Host.answering at hact
    rw [host_act]
    omega

/-- **Every accepted request is answered exactly once, when its run ends.** -/
theorem replies (c : Config) (acts : List (Act η)) : Replies ((ofConfig c).run acts) := by
  have hinv := sound_tidy c acts
  have hcount := fun id => (count_run c acts id).2
  have hconcluded := (concluded_run c acts).2
  generalize (ofConfig c).run acts = x at hinv hcount hconcluded
  obtain ⟨⟨hs, ht⟩, hpast⟩ := hinv
  have hsource : ∀ m ∈ x.past, ∀ o ∈ queuedIn m.events, ∀ id, o.answers? = some id →
      (∃ r out, m.host.Ends m.act id o r out) ∨ ∃ proxy, m.host.Misses m.act id o proxy := by
    intro m hm o ho id hid
    have ho' : o ∈ queuedIn (m.host.step m.act).2 := ho
    rw [(hpast m hm).1.queuedIn_step, Option.mem_toList] at ho'
    exact Host.source_of_answers ho' hid
  refine ⟨?_, ?_, ?_, ?_, ?_, hsource, ?_, ?_⟩
  · intro hopen id
    rw [← ht.working_eq]
    exact hcount id hopen
  · intro hopen a id
    rw [← ht.working_eq, host_act, ← (ht.step a).working_eq]
    exact ht.balance hs hopen a id
  · intro r hr r' hr' id hid hid'
    have h₁ := (ht.runFor?_eq_some id r).mpr ⟨hr, hid⟩
    have h₂ := (ht.runFor?_eq_some id r').mpr ⟨hr', hid'⟩
    exact Option.some.inj (h₁.symm.trans h₂)
  · intro frame hacc
    rw [hs.queuedIn_step]
    cases hm : x.host.receives? (.receive frame) with
    | none => simp only [Host.queues?, hm]; rfl
    | some m =>
        cases m with
        | request id proxy method args =>
            have hfree : (x.host.endpoint.runFor? id).isNone = false := by
              simpa [Moment.accepts, hm] using hacc id
            simp only [Host.queues?, hm, hfree]
            rfl
        | _ => simp only [Host.queues?, hm]; rfl
  · intro r hr hid
    rw [hs.queuedIn_step]
    simp only [Host.queues?, (ht.run?_eq_some r).mpr hr, Option.bind_some, hid, Option.bind_none]
    cases x.host.ending? r <;> rfl
  · intro m hm id o r out he hr
    exact hconcluded m hm _ ((hpast m hm).2.outcome?_of_ends he hr)
  · intro o ho id hid
    have ho' : ∃ m ∈ x.past, o ∈ queuedIn m.events := by
      unfold queuedIn events at ho
      obtain ⟨ev, hev, hq⟩ := List.mem_filterMap.mp ho
      obtain ⟨m, hm, hev⟩ := List.mem_flatMap.mp hev
      exact ⟨m, hm, List.mem_filterMap.mpr ⟨ev, hev, hq⟩⟩
    obtain ⟨m, hm, ho⟩ := ho'
    rcases hsource m hm o ho id hid with ⟨r, out, he⟩ | ⟨proxy, he⟩
    · rw [Outbound.bytes, he.message, ← Endpoint.answer_toReply]
      exact Endpoint.encodeMessage_answer id out.toReply
    · have hans : o.message = Endpoint.answer id (.error (.noSuchProxy proxy)) :=
        he.message.trans (Endpoint.answer_of_no_details id
          (show (RemoteError.noSuchProxy proxy).details = none from rfl)).symm
      rw [Outbound.bytes, hans]
      exact Endpoint.encodeMessage_answer id _

end Chronicle

end PeerRpc
