import PeerRpc.Proofs.Endpoint.Results
import PeerRpc.Proofs.Host.Basic

/-!
# PeerRpc.Proofs.Host.Accounts -- the calls of a host and its pending map

The `Account` of a call is what matters when it is settled: the service it went to, its id, and its
result once there is one. A host `Agrees` when its accounts and its endpoint fit together: ids are
not shared, a call waits in `pending` exactly as long as it has no result, and under the service it
went to. It is `Sound` when besides no call waits after the end. Every act keeps a host sound
(`Host.Sound.step`), and changes an account by what its events say and in no other way
(`Host.Agrees.accounts_step`).
-/

namespace PeerRpc

/-! ## Accounts -/

/-- What matters of a call when it is settled. -/
structure Account where
  proxy : ProxyId
  id : Option RequestId
  result : Option CallResult

namespace Account

variable {η : Type}

/-- The account after some events. Only the first result counts. -/
def hear (events : List (Event η)) (t : Account) : Account :=
  { t with result := t.result.or (t.id.bind (resultFor? events)) }

@[simp] theorem hear_nil : hear ([] : List (Event η)) = (fun t => t) := by
  funext t
  obtain ⟨proxy, id, result⟩ := t
  cases id <;> cases result <;> rfl

end Account

/-- The account of a call. -/
def Asked.account (q : Asked) : Account := ⟨q.proxy, q.call.id, q.call.delivered⟩

section Hearing

variable {η : Type}

@[simp] theorem Asked.account_hear (q : Asked) (events : List (Event η)) :
    (q.hear events).account = q.account.hear events := by
  simp only [Asked.account, Asked.hear, Account.hear, Call.id_hears, Call.delivered_hears]

end Hearing

/-- The act makes a call. -/
def Act.asks {η : Type} : Act η → Bool
  | .op (.invoke ..) => true
  | .op (.request ..) => true
  | _ => false

namespace Host

variable {η : Type}

/-- The accounts of all calls. -/
def accounts (h : Host η) : List Account := h.calls.map Asked.account

theorem accounts_getElem? (h : Host η) (k : Nat) :
    h.accounts[k]? = (h.calls[k]?).map Asked.account := by
  rw [accounts, List.getElem?_map]

@[simp] theorem accounts_follow (h : Host η) (s : Endpoint.Step η) :
    (h.follow s).1.accounts = h.accounts.map (Account.hear s.2) := by
  simp only [accounts, follow, List.map_map]
  exact List.map_congr_left fun q _ => q.account_hear s.2

/-- A call that changes without its account changing. -/
theorem accounts_set (h : Host η) {k : Nat} {q : Asked} (hq : h.calls[k]? = some q) {c : Call}
    (hid : c.id = q.call.id) (hd : c.delivered = q.call.delivered) :
    ({ h with calls := h.calls.set k { q with call := c } } : Host η).accounts = h.accounts := by
  simp only [accounts, List.map_set]
  have hk : h.accounts[k]? = some q.account := by rw [accounts_getElem?, hq]; rfl
  refine List.ext_getElem? fun i => ?_
  rw [List.getElem?_set]
  split
  · next h' =>
      subst h'
      split
      · show some (Account.mk q.proxy c.id c.delivered) = _
        rw [hid, hd]
        exact hk.symm
      · next hlen =>
          rw [List.getElem?_eq_none (Nat.le_of_not_lt hlen)]
  · rfl

/-! ## Steps that only settle -/

/-- A step whose events account for what it does to the calls. -/
structure Settles (h : Host η) (x : Host η × List (Event η)) : Prop where
  balanced : h.endpoint.Balanced (x.1.endpoint, x.2)
  accounts : x.1.accounts = h.accounts.map (Account.hear x.2)

/-- A step that has nothing to do with calls. -/
theorem Settles.of_silent {h h' : Host η} (hn : h'.endpoint.nextId = h.endpoint.nextId)
    (hp : h'.endpoint.pending = h.endpoint.pending)
    (hi : h'.endpoint.isOpen = h.endpoint.isOpen) (hc : h'.calls = h.calls) :
    h.Settles (h', []) where
  balanced := .of_silent hn hp hi rfl
  accounts := by
    rw [Account.hear_nil, List.map_id']
    exact congrArg (List.map Asked.account) hc

theorem Settles.refl (h : Host η) : h.Settles (h, []) := .of_silent rfl rfl rfl rfl

/-- The calls hear of a step of the endpoint. -/
theorem Settles.follow {h : Host η} {s : Endpoint.Step η} (hs : h.endpoint.Balanced s) :
    h.Settles (h.follow s) := ⟨hs, h.accounts_follow s⟩

theorem Settles.attempt {h : Host η} {r : Except CallError (Endpoint.Step η)}
    (hr : ∀ s, r = .ok s → h.endpoint.Balanced s) : h.Settles (h.attempt r) := by
  cases r with
  | error err => exact .refl h
  | ok s => exact .follow (hr s rfl)

/-- A step of the endpoint and of one of its calls, which stays the same call. -/
theorem Settles.onCall {h : Host η} {k : Nat} {f : Call → Call × Endpoint.Step η}
    (hid : ∀ c, (f c).1.id = c.id) (hd : ∀ c, (f c).1.delivered = c.delivered)
    (hf : ∀ c, h.endpoint.Balanced (f c).2) : h.Settles (h.onCall k f) := by
  unfold Host.onCall
  split
  · exact .refl h
  · next q hq =>
      refine ⟨hf q.call, ?_⟩
      rw [accounts_follow, h.accounts_set hq (hid q.call) (hd q.call)]
      rfl

/-- What is done without the channel settles, unless it makes a call. -/
theorem settles_operate (h : Host η) {o : Op η} (ho : (Act.op o).asks = false) :
    h.Settles (h.operate o) := by
  cases o with
  | invoke i method args => cases ho
  | request proxy method args => cases ho
  | notify i method args =>
      exact .attempt fun s hs => (Endpoint.regular_notify hs).toBalanced
  | notifyProxy proxy method args =>
      exact .attempt fun s hs => (Endpoint.regular_notifyProxy hs).toBalanced
  | cancel k =>
      show h.Settles (h.onCall k fun c => (c, (c.cancel h.endpoint).2))
      exact .onCall (fun _ => rfl) (fun _ => rfl) fun c =>
        (c.regular_cancel .cancelled h.endpoint).toBalanced
  | drop k =>
      show h.Settles (h.onCall k fun c => (c, c.drop h.endpoint))
      exact .onCall (fun _ => rfl) (fun _ => rfl) fun c => (c.regular_drop h.endpoint).toBalanced
  | poll k =>
      exact .onCall (fun c => c.id_poll h.now h.endpoint)
        (fun c => c.delivered_poll h.now h.endpoint) fun c =>
          (c.regular_poll h.now h.endpoint).toBalanced
  | wait ms => exact .of_silent rfl rfl rfl rfl
  | set i handler =>
      rw [operate_set]
      split
      · exact .of_silent rfl rfl rfl rfl
      · exact .refl h
  | unset i => exact .of_silent rfl rfl rfl rfl
  | register proxy handler => exact .of_silent rfl rfl rfl rfl
  | unregister proxy => exact .of_silent rfl rfl rfl rfl
  | conclude serial o =>
      simp only [operate]
      split
      · exact .of_silent rfl rfl rfl rfl
      · exact .refl h
  | stop serial => exact .follow (h.endpoint.regular_fire serial).toBalanced
  | reap serial =>
      simp only [operate]
      split
      · exact .refl h
      · exact .follow (h.endpoint.regular_finish serial _).toBalanced
  | close => exact .follow h.endpoint.regular_close.toBalanced

/-- **Every act settles, unless it makes a call.** -/
theorem settles_step [Handler η] (h : Host η) {a : Act η} (ha : a.asks = false) : h.Settles (h.step a) := by
  cases a with
  | op o => exact h.settles_operate ha
  | receive frame => exact .follow (h.endpoint.regular_receive frame).toBalanced
  | take =>
      simp only [step]
      split
      · next o e _ he =>
          obtain ⟨-, rest, -, rfl⟩ := Endpoint.dequeue_eq_some.mp he
          exact .of_silent rfl rfl rfl rfl
      · exact .refl h
  | sent r =>
      simp only [step]
      split
      · exact .refl h
      · exact .of_silent rfl rfl rfl rfl
      · next o err _ =>
          have hs : h.endpoint.Balanced
              (if err.isTerminal then h.endpoint.close else h.endpoint.undeliverable o err) := by
            split
            · exact h.endpoint.regular_close.toBalanced
            · exact (h.endpoint.regular_undeliverable o err).toBalanced
          exact ⟨hs, accounts_follow _ _⟩

/-! ## Sound hosts -/

end Host

/-- The entry of a call that waits. -/
def Account.slot? (t : Account) : Option (RequestId × ProxyId) :=
  match t.result with
  | none => t.id.map fun id => (id, t.proxy)
  | some _ => none

theorem Account.slot?_eq_some {t : Account} {id : RequestId} {proxy : ProxyId} :
    t.slot? = some (id, proxy) ↔ t.id = some id ∧ t.proxy = proxy ∧ t.result = none := by
  obtain ⟨tproxy, tid, result⟩ := t
  cases result <;> cases tid <;> simp [Account.slot?]

/-- A call keeps its entry unless the events settle it. -/
theorem Account.slot?_hear {η : Type} (t : Account) (events : List (Event η)) :
    (t.hear events).slot? = t.slot?.filter fun p => (resultFor? events p.1).isNone := by
  obtain ⟨tproxy, tid, result⟩ := t
  cases result with
  | some r => rfl
  | none =>
      cases tid with
      | none => rfl
      | some id =>
          simp only [Account.hear, Account.slot?, Option.bind_some, Option.map_some,
            Option.filter_some]
          cases resultFor? events id <;> rfl

/-- The accounts of a host and its endpoint agree. -/
structure Host.Agrees {η : Type} (h : Host η) : Prop where
  /-- No two calls share an id. -/
  ids : (h.accounts.filterMap Account.id).Nodup
  /-- Ids are handed out in order. -/
  issued : ∀ id ∈ h.accounts.filterMap Account.id, id.val.toNat ≤ h.endpoint.issued
  /-- A call waits exactly as long as it has no result. -/
  pending : h.endpoint.pending = h.accounts.filterMap Account.slot?
  /-- A call without an id has failed. -/
  failed : ∀ t ∈ h.accounts, t.id = none → t.result ≠ none

/-- The accounts of a host and its endpoint agree, and no call waits after the end. -/
structure Host.Sound {η : Type} (h : Host η) : Prop extends h.Agrees where
  closed : h.endpoint.isOpen = false → h.endpoint.pending = []

namespace Host

variable {η : Type}

theorem sound_ofConfig (c : Config) : (Host.ofConfig c : Host η).Sound where
  ids := List.nodup_nil
  issued := by
    intro id hid
    have hid' : id ∈ ([] : List RequestId) := hid
    simp at hid'
  pending := rfl
  failed := by
    intro t ht
    have ht' : t ∈ ([] : List Account) := ht
    simp at ht'
  closed := fun h => by cases h

/-- Different calls have different ids. -/
theorem Agrees.pairwise {h : Host η} (hh : h.Agrees) :
    h.accounts.Pairwise fun t t' => ∀ id, t.id = some id → ∀ id', t'.id = some id' → id ≠ id' :=
  List.pairwise_filterMap.mp hh.ids

/-- A call is known by its id. -/
theorem Agrees.index_eq {h : Host η} (hh : h.Agrees) {k k' : Nat} {q q' : Asked} {id : RequestId}
    (hq : h.calls[k]? = some q) (hq' : h.calls[k']? = some q') (hid : q.call.id = some id)
    (hid' : q'.call.id = some id) : k = k' := by
  -- of two calls the later one has another id
  have haux : ∀ {i j : Nat} {t t' : Account}, i < j → h.accounts[i]? = some t →
      h.accounts[j]? = some t' → t.id = some id → t'.id ≠ some id := by
    intro i j t t' hij ht ht' htid htid'
    obtain ⟨hi, rfl⟩ := List.getElem?_eq_some_iff.mp ht
    obtain ⟨hj, rfl⟩ := List.getElem?_eq_some_iff.mp ht'
    exact List.pairwise_iff_getElem.mp hh.pairwise i j hi hj hij id htid id htid' rfl
  have ha : h.accounts[k]? = some q.account := by rw [accounts_getElem?, hq]; rfl
  have ha' : h.accounts[k']? = some q'.account := by rw [accounts_getElem?, hq']; rfl
  rcases Nat.lt_trichotomy k k' with hlt | heq | hlt
  · exact absurd hid' (haux hlt ha ha' hid)
  · exact heq
  · exact absurd hid (haux hlt ha' ha hid')

theorem Agrees.mem_pending {h : Host η} (hh : h.Agrees) (id : RequestId) (proxy : ProxyId) :
    (id, proxy) ∈ h.endpoint.pending ↔
      ∃ q ∈ h.calls, q.call.id = some id ∧ q.proxy = proxy ∧ q.call.delivered = none := by
  rw [hh.pending, List.mem_filterMap]
  constructor
  · rintro ⟨t, ht, hslot⟩
    obtain ⟨q, hq, rfl⟩ := List.mem_map.mp ht
    exact ⟨q, hq, Account.slot?_eq_some.mp hslot⟩
  · rintro ⟨q, hq, hslot⟩
    exact ⟨q.account, List.mem_map_of_mem hq, Account.slot?_eq_some.mpr hslot⟩

theorem Agrees.nodup_waiting {h : Host η} (hh : h.Agrees) : h.endpoint.waiting.Nodup := by
  unfold Endpoint.waiting
  rw [hh.pending, List.map_filterMap]
  refine List.pairwise_filterMap.mpr (hh.pairwise.imp ?_)
  intro t t' hne id hid id' hid'
  have hslot : ∀ {t : Account} {id : RequestId}, t.slot?.map Prod.fst = some id →
      t.id = some id := by
    intro t id hs
    obtain ⟨⟨i, proxy⟩, hslot, rfl⟩ := Option.map_eq_some_iff.mp hs
    exact (Account.slot?_eq_some.mp hslot).1
  exact hne id (hslot hid) id' (hslot hid')

/-- The entry of a call that waits. -/
theorem Agrees.find?_pending {h : Host η} (hh : h.Agrees) {q : Asked} (hq : q ∈ h.calls)
    {id : RequestId} (hid : q.call.id = some id) (hd : q.call.delivered = none) :
    h.endpoint.pending.find? (fun p => p.1 = id) = some (id, q.proxy) := by
  have hmem : (id, q.proxy) ∈ h.endpoint.pending :=
    (hh.mem_pending id q.proxy).mpr ⟨q, hq, hid, rfl, hd⟩
  obtain ⟨xs, ys, hsplit⟩ := List.append_of_mem hmem
  have hn := hh.nodup_waiting
  unfold Endpoint.waiting at hn
  rw [hsplit, List.map_append, List.map_cons, List.nodup_append] at hn
  -- nothing that comes before has the same id
  have hxs : xs.find? (fun p => p.1 = id) = none := by
    refine List.find?_eq_none.mpr fun p hp heq => ?_
    exact hn.2.2 p.1 (List.mem_map_of_mem hp) id List.mem_cons_self (by simpa using heq)
  rw [hsplit, List.find?_append, hxs, Option.none_or]
  simp

/-- A call waits exactly as long as it has no result. -/
theorem Agrees.mem_waiting_iff {h : Host η} (hh : h.Agrees) {q : Asked} (hq : q ∈ h.calls)
    {id : RequestId} (hid : q.call.id = some id) :
    id ∈ h.endpoint.waiting ↔ q.call.delivered = none := by
  constructor
  · intro hw
    obtain ⟨⟨i, proxy⟩, hp, rfl⟩ := List.mem_map.mp hw
    obtain ⟨q', hq', hid', -, hd⟩ := (hh.mem_pending i proxy).mp hp
    obtain ⟨k, hk⟩ := List.mem_iff_getElem?.mp hq
    obtain ⟨k', hk'⟩ := List.mem_iff_getElem?.mp hq'
    obtain rfl := hh.index_eq hk hk' hid hid'
    rw [hk] at hk'
    obtain rfl := Option.some.inj hk'
    exact hd
  · intro hd
    exact Endpoint.mem_waiting_of_find? (hh.find?_pending hq hid hd)

theorem Sound.isOpen_of_waiting {h : Host η} (hh : h.Sound) {id : RequestId}
    (hw : id ∈ h.endpoint.waiting) : h.endpoint.isOpen = true := by
  cases hopen : h.endpoint.isOpen with
  | true => rfl
  | false =>
      unfold Endpoint.waiting at hw
      rw [hh.closed hopen] at hw
      cases hw

theorem Agrees.of_settles {h : Host η} (hh : h.Agrees) {x : Host η × List (Event η)}
    (hx : h.Settles x) : x.1.Agrees := by
  have hids : x.1.accounts.filterMap Account.id = h.accounts.filterMap Account.id := by
    rw [hx.accounts, List.filterMap_map]
    rfl
  refine { ids := ?ids, issued := ?issued, pending := ?pending, failed := ?failed }
  case ids =>
    rw [hids]
    exact hh.ids
  case issued =>
    rw [hids]
    intro id hid
    have hissued : x.1.endpoint.issued = h.endpoint.issued :=
      congrArg (fun n => (n - 1).toNat) hx.balanced.nextId
    rw [hissued]
    exact hh.issued id hid
  case pending =>
    rw [hx.balanced.pending, hh.pending, hx.accounts, List.filterMap_map, List.filter_filterMap]
    exact List.filterMap_congr fun t _ => (t.slot?_hear x.2).symm
  case failed =>
    rw [hx.accounts]
    intro t' ht' hid
    obtain ⟨t, ht, rfl⟩ := List.mem_map.mp ht'
    have := hh.failed t ht hid
    cases hr : t.result with
    | none => exact absurd hr this
    | some r => simp [Account.hear, hr]

theorem Sound.of_settles {h : Host η} (hh : h.Sound) {x : Host η × List (Event η)}
    (hx : h.Settles x) : x.1.Sound where
  toAgrees := hh.toAgrees.of_settles hx
  closed hclosed := by
    cases hopen : h.endpoint.isOpen with
    | true => exact hx.balanced.closed hclosed hopen
    | false => rw [hx.balanced.pending, hh.closed hopen, List.filter_nil]

/-! ## Calls that are made -/

/-- The account of a call that has just been made. -/
def newAccount (h : Host η) (proxy : ProxyId) (method : String) (args : List Value) : Account :=
  ⟨proxy, some ⟨h.endpoint.nextId⟩, (h.endpoint.refusal? proxy method args).map .error⟩

/-- The id of a new call is not yet in use. -/
theorem Agrees.fresh {h : Host η} (hh : h.Agrees) (hn : h.endpoint.nextId ≠ 0) :
    (⟨h.endpoint.nextId⟩ : RequestId) ∉ h.accounts.filterMap Account.id := by
  intro hid
  have hle := hh.issued _ hid
  have := Endpoint.toNat_nextId hn
  dsimp only at hle
  omega

/-- A new call is settled at once if it is refused, and no other call is. -/
theorem resultFor?_request (e : Endpoint η) (proxy : ProxyId) (method : String)
    (args : List Value) (id : RequestId) :
    resultFor? (e.request proxy method args).2.2 id =
      if id = ⟨e.nextId⟩ then (e.refusal? proxy method args).map .error else none := by
  cases hr : e.refusal? proxy method args with
  | some err =>
      rw [Endpoint.request_of_refusal hr]
      by_cases hid : id = ⟨e.nextId⟩
      · subst hid
        simp [resultFor?, Event.settles?]
      · simp [resultFor?, Event.settles?, hid, Ne.symm hid]
  | none =>
      rw [Endpoint.request_of_none hr]
      simp [resultFor?, Event.settles?]

/-- Earlier calls do not hear of a new one. -/
theorem Agrees.map_hear_request {h : Host η} (hh : h.Agrees) (hn : h.endpoint.nextId ≠ 0)
    (proxy : ProxyId) (method : String) (args : List Value) :
    h.accounts.map (Account.hear (h.endpoint.request proxy method args).2.2) = h.accounts := by
  refine (List.map_congr_left fun t ht => ?_).trans (List.map_id' _)
  obtain ⟨tproxy, tid, result⟩ := t
  have hnone : tid.bind (resultFor? (h.endpoint.request proxy method args).2.2) = none := by
    cases tid with
    | none => rfl
    | some id =>
        have hne : id ≠ ⟨h.endpoint.nextId⟩ := by
          rintro rfl
          exact hh.fresh hn (List.mem_filterMap.mpr ⟨_, ht, rfl⟩)
        exact (resultFor?_request ..).trans (if_neg hne)
  simp only [Account.hear, hnone]
  cases result <;> rfl

theorem accounts_begin {h : Host η} (hh : h.Agrees) (hn : h.endpoint.nextId ≠ 0)
    (proxy : ProxyId) (method : String) (args : List Value) :
    (h.begin proxy method args (h.endpoint.request proxy method args)).1.accounts =
      h.accounts ++ [h.newAccount proxy method args] := by
  have hnew : ∀ c : Call, c.id = some ⟨h.endpoint.nextId⟩ → c.delivered = none →
      (Asked.account ⟨proxy, method, args, c⟩).hear
        (h.endpoint.request proxy method args).2.2 = h.newAccount proxy method args := by
    intro c hid hd
    simp only [Asked.account, Account.hear, newAccount, hid, hd, Option.bind_some,
      resultFor?_request, if_true]
    rfl
  unfold begin
  rw [accounts_follow]
  simp only [accounts, List.map_append, List.map_cons, List.map_nil]
  exact congr (congrArg _ (hh.map_hear_request hn proxy method args))
    (congrArg (fun t => [t]) (hnew _ (by rw [Endpoint.request_id]) rfl))

theorem Sound.begin {h : Host η} (hh : h.Sound) (hn : h.endpoint.nextId ≠ 0)
    (proxy : ProxyId) (method : String) (args : List Value) :
    (h.begin proxy method args (h.endpoint.request proxy method args)).1.Sound := by
  have hacc := accounts_begin hh.toAgrees hn proxy method args
  have hids : (h.begin proxy method args
      (h.endpoint.request proxy method args)).1.accounts.filterMap Account.id =
      h.accounts.filterMap Account.id ++ [⟨h.endpoint.nextId⟩] := by
    rw [hacc, List.filterMap_append]
    rfl
  have hissued : (h.endpoint.request proxy method args).2.1.issued = h.endpoint.issued + 1 := by
    rw [← Endpoint.issued_next h.endpoint hn]
    exact congrArg (fun n => (n - 1).toNat) (Endpoint.nextId_request ..)
  refine { ids := ?ids, issued := ?issued, pending := ?pending, failed := ?failed,
           closed := ?closed }
  case ids =>
    rw [hids, List.nodup_append]
    refine ⟨hh.ids, List.nodup_singleton _, ?_⟩
    rintro id hid _ hid' rfl
    exact hh.fresh hn (List.mem_singleton.mp hid' ▸ hid)
  case issued =>
    rw [hids]
    show ∀ id : RequestId, id ∈ _ →
      id.val.toNat ≤ (h.endpoint.request proxy method args).2.1.issued
    intro id hid
    rw [hissued]
    rcases List.mem_append.mp hid with hid | hid
    · exact Nat.le_succ_of_le (hh.issued id hid)
    · rw [List.mem_singleton.mp hid]
      exact Nat.le_of_eq (Endpoint.toNat_nextId hn)
  case pending =>
    -- a call that is refused has its result already, so it never waits
    show (h.endpoint.request proxy method args).2.1.pending = _
    rw [Endpoint.pending_request, hacc, List.filterMap_append, hh.pending]
    unfold newAccount
    cases h.endpoint.refusal? proxy method args <;> rfl
  case failed =>
    rw [hacc]
    intro t ht hid
    rcases List.mem_append.mp ht with ht | ht
    · exact hh.failed t ht hid
    · rw [List.mem_singleton.mp ht] at hid
      cases hid
  case closed =>
    show (h.endpoint.request proxy method args).2.1.isOpen = false →
      (h.endpoint.request proxy method args).2.1.pending = []
    rw [Endpoint.isOpen_request, Endpoint.pending_request]
    intro hclosed
    cases hr : h.endpoint.refusal? proxy method args with
    | some err => simp [hh.closed hclosed]
    | none =>
        rw [(Endpoint.refusal?_eq_none hr).isOpen] at hclosed
        cases hclosed

/-- A call that fails before it gets an id. -/
theorem Sound.fail {h : Host η} (hh : h.Sound) (proxy : ProxyId) (method : String)
    (args : List Value) (err : CallError) :
    ({ h with calls := h.calls ++ [⟨proxy, method, args, .failed err⟩] } : Host η).Sound := by
  have hacc : ({ h with calls := h.calls ++ [⟨proxy, method, args, .failed err⟩] } :
      Host η).accounts = h.accounts ++ [⟨proxy, none, some (.error err)⟩] := by
    simp only [accounts, List.map_append]
    rfl
  refine { ids := ?ids, issued := ?issued, pending := ?pending, failed := ?failed,
           closed := hh.closed }
  case ids =>
    rw [hacc, List.filterMap_append]
    simpa using hh.ids
  case issued =>
    rw [hacc, List.filterMap_append]
    simpa using hh.issued
  case pending =>
    rw [hacc, List.filterMap_append]
    exact hh.pending.trans (List.append_nil _).symm
  case failed =>
    rw [hacc]
    intro t ht hid
    rcases List.mem_append.mp ht with ht | ht
    · exact hh.failed t ht hid
    · rw [List.mem_singleton.mp ht]
      nofun

/-- Why the call that an act makes fails at once, if it does. -/
def refused? (h : Host η) : Act η → Option CallError
  | .op (.invoke i method args) =>
    if h.endpoint.nextId = 0 then none
    else
      match h.endpoint.proxyFor i with
      | .error err => some err
      | .ok proxy => h.endpoint.refusal? proxy method args
  | .op (.request proxy method args) =>
    if h.endpoint.nextId = 0 then none else h.endpoint.refusal? proxy method args
  | _ => none

/-- What an act does that makes a call. -/
theorem step_asks [Handler η] (h : Host η) {a : Act η} (ha : a.asks = true) :
    h.step a = (h, []) ∧ h.refused? a = none ∨
    (∃ proxy method args err,
      h.step a = ({ h with calls := h.calls ++ [⟨proxy, method, args, .failed err⟩] }, []) ∧
        h.refused? a = some err) ∨
    h.endpoint.nextId ≠ 0 ∧ ∃ proxy method args,
      h.step a = h.begin proxy method args (h.endpoint.request proxy method args) ∧
        h.refused? a = h.endpoint.refusal? proxy method args := by
  cases a with
  | op o =>
      cases o with
      | invoke i method args =>
          simp only [step, operate, refused?, Endpoint.invoke]
          by_cases hn : h.endpoint.nextId = 0
          · rw [if_pos hn, if_pos hn]
            exact Or.inl ⟨rfl, rfl⟩
          · rw [if_neg hn, if_neg hn]
            refine Or.inr ?_
            by_cases hside : i.side = h.endpoint.side
            · rw [Endpoint.proxyFor, if_pos hside]
              exact Or.inl ⟨_, _, _, _, rfl, rfl⟩
            · rw [Endpoint.proxyFor, if_neg hside]
              exact Or.inr ⟨hn, _, _, _, rfl, rfl⟩
      | request proxy method args =>
          simp only [step, operate, refused?]
          by_cases hn : h.endpoint.nextId = 0
          · rw [if_pos hn, if_pos hn]
            exact Or.inl ⟨rfl, rfl⟩
          · rw [if_neg hn, if_neg hn]
            exact Or.inr (Or.inr ⟨hn, _, _, _, rfl, rfl⟩)
      | _ => cases ha
  | _ => cases ha

/-- A call fails at once because its service is one of this side, or because it is refused. -/
theorem refused?_eq_some {h : Host η} {a : Act η} {err : CallError}
    (he : h.refused? a = some err) : (∃ i : Identifier, err = h.endpoint.wrongSide i .proxied) ∨
      ∃ args, h.endpoint.Refuses args err := by
  cases a with
  | op o =>
      cases o with
      | invoke i method args =>
          obtain ⟨-, he⟩ := Option.ite_none_left_eq_some.mp he
          by_cases hside : i.side = h.endpoint.side
          · rw [Endpoint.proxyFor, if_pos hside] at he
            exact Or.inl ⟨i, (Option.some.inj he).symm⟩
          · rw [Endpoint.proxyFor, if_neg hside] at he
            exact Or.inr ⟨args, Endpoint.refusal?_eq_some.mp he⟩
      | request proxy method args =>
          obtain ⟨-, he⟩ := Option.ite_none_left_eq_some.mp he
          exact Or.inr ⟨args, Endpoint.refusal?_eq_some.mp he⟩
      | _ => cases he
  | _ => cases he

theorem refused?_of_not_asks (h : Host η) {a : Act η} (ha : a.asks = false) :
    h.refused? a = none := by
  cases a with
  | op o =>
      cases o with
      | invoke i method args => cases ha
      | request proxy method args => cases ha
      | _ => rfl
  | _ => rfl

/-- **Every act keeps a host sound.** -/
theorem Sound.step [Handler η] {h : Host η} (hh : h.Sound) (a : Act η) : (h.step a).1.Sound := by
  cases ha : a.asks with
  | false => exact hh.of_settles (h.settles_step ha)
  | true =>
      rcases h.step_asks ha with ⟨hs, -⟩ | ⟨proxy, method, args, err, hs, -⟩ |
        ⟨hn, proxy, method, args, hs, -⟩
      · rw [hs]
        exact hh
      · rw [hs]
        exact hh.fail proxy method args err
      · rw [hs]
        exact hh.begin hn proxy method args

/-- The account `t` of a new call, which has a result at once if the call is refused. -/
structure NewAccount [Handler η] (h : Host η) (a : Act η) (t : Account) : Prop where
  result : t.result = (h.refused? a).map .error
  fresh : ∀ id, t.id = some id → h.endpoint.issued < id.val.toNat
  told : ∀ id, t.id = some id → resultFor? (h.step a).2 id = t.result

/-- **The accounts after an act.** Those of earlier calls change by what the events say, and an act
that makes a call adds one. -/
theorem Agrees.accounts_step [Handler η] {h : Host η} (hh : h.Agrees) (a : Act η) :
    ∃ new : List Account,
      (h.step a).1.accounts = h.accounts.map (Account.hear (h.step a).2) ++ new ∧
      (new = [] ∧ h.refused? a = none ∨ ∃ t, new = [t] ∧ h.NewAccount a t) := by
  cases ha : a.asks with
  | false =>
      refine ⟨[], ?_, Or.inl ⟨rfl, h.refused?_of_not_asks ha⟩⟩
      rw [List.append_nil]
      exact (h.settles_step ha).accounts
  | true =>
      rcases h.step_asks ha with ⟨hs, hr⟩ | ⟨proxy, method, args, err, hs, hr⟩ |
        ⟨hn, proxy, method, args, hs, hr⟩
      · refine ⟨[], ?_, Or.inl ⟨rfl, hr⟩⟩
        rw [hs, Account.hear_nil, List.map_id', List.append_nil]
      · refine ⟨[⟨proxy, none, some (.error err)⟩], ?_, Or.inr ⟨_, rfl, ?_, nofun, nofun⟩⟩
        · rw [hs, Account.hear_nil, List.map_id']
          exact List.map_append
        · rw [hr]
          rfl
      · refine ⟨[h.newAccount proxy method args], ?_, Or.inr ⟨_, rfl, ?_, ?_, ?_⟩⟩
        · rw [hs, accounts_begin hh hn]
          exact congrArg (· ++ _) (hh.map_hear_request hn proxy method args).symm
        · rw [hr]
          rfl
        · intro id hid
          obtain rfl := Option.some.inj hid
          have := Endpoint.toNat_nextId hn
          dsimp only
          omega
        · intro id hid
          obtain rfl := Option.some.inj hid
          rw [hs]
          exact (resultFor?_request ..).trans (if_pos rfl)

end Host

end PeerRpc
