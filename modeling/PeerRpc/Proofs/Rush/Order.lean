import PeerRpc.Proofs.Rush.Basic

/-!
# PeerRpc.Proofs.Rush.Order -- how requests and cancels arrive

The channel is handed messages in the order in which they have joined the queue
(`Crowd.entrusted`), and a pair delivers them in the order in which they were handed over
(`Rush.ordered`). So an id arrives in one request only, and no request finds a run for its id; and no
cancel overtakes its request (`Rush.Carried`). That requests need not join the queue in the order of
their ids does no harm here: no two of them have the same id.

`Rush.wire_discipline` joins this to what is true of the queue of each endpoint
(`Crowd.disciplined`).
-/

namespace PeerRpc

variable {η : Type}

/-! ## What the past of a crowd tells -/

namespace Crowd

section

variable [Handler η]

theorem Abides.begun {x y : Crowd η} (h : x.Abides y)
    (hx : ∀ r ∈ x.host.endpoint.runs, x.chronicle.Begun r) :
    ∀ r ∈ y.host.endpoint.runs, y.chronicle.Begun r := by
  intro r hr
  rw [h.runs] at hr
  unfold Chronicle.Begun
  rw [h.past]
  exact hx r hr

/-- Every run has begun with some act. -/
theorem begun_run (c : Config) (strides : List (Stride η)) :
    ∀ r ∈ ((ofConfig c).run strides).host.endpoint.runs,
      ((ofConfig c).run strides).chronicle.Begun r :=
  Abides.run_induction (P := fun x => ∀ r ∈ x.host.endpoint.runs, x.chronicle.Begun r)
    (fun _ hr => absurd hr List.not_mem_nil) Abides.begun
    (fun x a hx r hr => x.chronicle.begun_act hx a r hr) strides

/-- An endpoint that is open has been open all the time. -/
theorem isOpen_past (c : Config) (strides : List (Stride η)) :
    let x := (ofConfig c).run strides
    x.host.endpoint.isOpen = true → ∀ m ∈ x.chronicle.past, m.host.endpoint.isOpen = true := by
  refine Abides.run_induction (P := fun x => x.host.endpoint.isOpen = true →
    ∀ m ∈ x.chronicle.past, m.host.endpoint.isOpen = true)
    (fun _ _ hm => absurd hm List.not_mem_nil) (fun h hx hopen => ?_) (fun x a hx hopen m hm => ?_)
    strides
  · rw [h.past]
    exact hx (h.isOpen ▸ hopen)
  · have hopen' := x.host.isOpen_of_step a hopen
    rcases List.mem_append.mp hm with hm | hm
    · exact hx hopen' m hm
    · rw [List.mem_singleton.mp hm]
      exact hopen'

omit [Handler η] in
/-- A start hands nothing to the channel. -/
theorem Abides.entrusted {x y : Crowd η} (h : x.Abides y) (hx : x.chronicle.Entrusted) :
    y.chronicle.Entrusted := by
  have hentrusted : y.chronicle.entrusted = x.chronicle.entrusted := by
    rw [Chronicle.entrusted, h.past]
    rfl
  have hoffered : y.chronicle.offered = x.chronicle.offered := by
    rw [Chronicle.offered, h.past]
    rfl
  have hrefused (id : RequestId) : y.chronicle.Refused id ↔ x.chronicle.Refused id := by
    unfold Chronicle.Refused
    rw [h.past]
  refine ⟨fun o ho => ?_, ?_, fun id hid => ?_, fun l hl id hid => ?_⟩
  · rw [hentrusted]
    exact hx.last o (h.sending.symm.trans ho)
  · rw [hentrusted, hoffered]
    exact hx.sublist
  · rw [hentrusted, hrefused]
    exact hx.whole id (hoffered ▸ hid)
  · rw [hrefused]
    exact hx.behind l (hentrusted ▸ hl) id hid

/-- **What the channel has been handed keeps the order in which it was queued**, and lacks only what
the channel has refused. -/
theorem entrusted (c : Config) (strides : List (Stride η)) :
    ((ofConfig c).run strides).chronicle.Entrusted := by
  induction strides using List.reverseRecOn with
  | nil => exact Chronicle.entrusted_ofConfig c
  | append_singleton strides a ih =>
      have hr := recalls (η := η) c strides
      rw [run_concat]
      generalize (ofConfig c).run strides = x at ih hr
      cases a with
      | start o => exact (x.abides_start o).entrusted ih
      | advance t gone => exact (x.abides_advance t gone).entrusted ih
      | act a =>
          simp only [stride]
          split
          · show (x.chronicle.act a).Entrusted
            cases hb : x.chronicle.host.bounced? a with
            | some p => exact ih.act_of_bounced hb
            | none =>
                cases hoff : x.chronicle.host.offers? a with
                | none =>
                    exact ih.act_of_none hoff hb fun o ho => Host.sending_of_not_offers hoff ho
                | some o =>
                    refine ih.act_of_offers hoff fun id hback => ?_
                    obtain ⟨-, -, -, rest, ho⟩ := Host.offers?_eq_some.mp hoff
                    -- the message is the first of those that wait
                    have hprefix : x.chronicle.offered ++ [o] <+: x.queued := by
                      refine ⟨rest, ?_⟩
                      rw [List.append_assoc]
                      exact congrArg (x.chronicle.offered ++ ·) ho.symm
                    refine hr.behind _ hprefix id ?_
                    exact mem_withdrawsIn_concat.mpr (Or.inr hback)
          · exact ih

end

end Crowd

namespace Rush

/-! ## Requests and cancels -/

/-- What arrives at one side, whose crowd is `y`, follows what the other side, whose crowd is `x`,
has handed over. -/
structure Carried (limit : Nat) (x y : Crowd η) : Prop where
  entrusted : x.chronicle.Entrusted
  order : y.chronicle.frames <+: x.chronicle.entrusted.map Outbound.bytes
  small : ∀ frame ∈ y.chronicle.frames, frame.length ≤ limit
  depth : ∀ o ∈ x.chronicle.entrusted, ∀ v ∈ o.message.payloads, v.depth ≤ Codec.maxDepth
  distinct : (asksIn x.chronicle.entrusted).Nodup
  queued : ∀ o ∈ x.chronicle.entrusted, o ∈ x.queued

namespace Carried

variable {limit : Nat} {x y : Crowd η} {before after : List (Moment η)} {m : Moment η}

/-- What is read of a message is the message. -/
theorem eq_received (h : Carried limit x y) (hlimit : limit < 2 ^ 64) {o : Outbound}
    (ho : o ∈ x.chronicle.entrusted) (hsize : o.bytes.length ≤ limit) {host : Host η}
    {msg : Message} (hr : host.receives? (.receive o.bytes) = some msg) :
    msg = o.message.received := by
  obtain ⟨hopen, -⟩ := Host.receives?_eq_some hr
  rcases Outbound.receives?_bytes hopen (h.depth o ho) hsize hlimit with hr' | ⟨-, hr'⟩
  · exact Option.some.inj (hr.symm.trans hr')
  · rw [hr] at hr'
    cases hr'

/-- A message that arrives was handed over behind all that have arrived before. -/
theorem exists_of_receives (h : Carried limit x y) (hlimit : limit < 2 ^ 64)
    (hpast : y.chronicle.past = before ++ m :: after) {msg : Message}
    (hr : m.host.receives? m.act = some msg) :
    ∃ l o, l ++ [o] <+: x.chronicle.entrusted ∧
      l.map Outbound.bytes = Chronicle.frames ⟨m.host, before⟩ ∧ msg = o.message.received := by
  obtain ⟨-, frame, hact, -⟩ := Host.receives?_eq_some hr
  have hframes : y.chronicle.frames =
      Chronicle.frames ⟨m.host, before⟩ ++ frame :: Chronicle.frames ⟨m.host, after⟩ := by
    simp only [Chronicle.frames, hpast, List.filterMap_append, List.filterMap_cons, hact,
      Act.frame?]
  obtain ⟨rest, hrest⟩ := h.order
  rw [hframes, List.append_assoc, List.cons_append] at hrest
  obtain ⟨l, l', hsplit, hl, hl'⟩ := List.map_eq_append_iff.mp hrest.symm
  obtain ⟨o, l'', rfl, rfl, -⟩ := List.map_eq_cons_iff.mp hl'
  have hmem : o ∈ x.chronicle.entrusted := by
    rw [hsplit]
    exact List.mem_append_right _ List.mem_cons_self
  have hsize := h.small o.bytes (by rw [hframes]; exact List.mem_append_right _ List.mem_cons_self)
  refine ⟨l, o, ⟨l'', ?_⟩, hl, h.eq_received hlimit hmem hsize (hact ▸ hr)⟩
  rw [hsplit, List.append_assoc]
  rfl

/-- A message that was handed over before one that arrives has arrived before it. -/
theorem exists_arrival (h : Carried limit x y) (hpast : y.chronicle.past = before ++ m :: after)
    {l : List Outbound} (hl : l.map Outbound.bytes = Chronicle.frames ⟨m.host, before⟩)
    {o : Outbound} (ho : o ∈ l) :
    (∃ m' ∈ before, m'.act = .receive o.bytes) ∧ o.bytes.length ≤ limit := by
  have hmem : o.bytes ∈ Chronicle.frames ⟨m.host, before⟩ := hl ▸ List.mem_map_of_mem ho
  obtain ⟨m', hm', hframe⟩ := List.mem_filterMap.mp hmem
  refine ⟨⟨m', hm', ?_⟩, h.small _ (List.mem_filterMap.mpr ⟨m', ?_, hframe⟩)⟩
  · unfold Act.frame? at hframe
    split at hframe
    · next frame hact => rw [hact, Option.some.inj hframe]
    · cases hframe
  · rw [hpast]
    exact List.mem_append_left _ hm'

/-- An id arrives in one request only. -/
theorem not_received_before (h : Carried limit x y) (hlimit : limit < 2 ^ 64)
    (hpast : y.chronicle.past = before ++ m :: after) {msg msg' : Message} {id : RequestId}
    (hr : m.host.receives? m.act = some msg) (hask : msg.asks? = some id) :
    ∀ m' ∈ before, m'.host.receives? m'.act = some msg' → msg'.asks? ≠ some id := by
  intro m' hm' hr' hask'
  obtain ⟨l, o, hl, hbytes, rfl⟩ := h.exists_of_receives hlimit hpast hr
  rw [Message.asks?_received] at hask
  obtain ⟨-, frame, hact, -⟩ := Host.receives?_eq_some hr'
  have hmem : frame ∈ l.map Outbound.bytes := by
    rw [hbytes]
    exact List.mem_filterMap.mpr ⟨m', hm', by rw [hact]; rfl⟩
  obtain ⟨o', ho', rfl⟩ := List.mem_map.mp hmem
  obtain ⟨-, hsize⟩ := h.exists_arrival hpast hbytes ho'
  obtain rfl := h.eq_received hlimit (hl.subset (List.mem_append_left _ ho')) hsize (hact ▸ hr')
  rw [Message.asks?_received] at hask'
  -- two requests with one id, one behind the other
  have hids : (asksIn (l ++ [o])).Sublist (asksIn x.chronicle.entrusted) := hl.sublist.filterMap _
  have hnodup := hids.nodup h.distinct
  rw [asksIn_append, List.nodup_append] at hnodup
  exact hnodup.2.2 id (mem_asksIn.mpr ⟨o', ho', hask'⟩) id
    (mem_asksIn.mpr ⟨o, List.mem_singleton_self o, hask⟩) rfl

/-- A cancel arrives behind its request. -/
theorem behind (h : Carried limit x y) (hlimit : limit < 2 ^ 64)
    (hpast : y.chronicle.past = before ++ m :: after) {id : RequestId}
    (hr : m.host.receives? m.act = some (.cancel id)) :
    x.chronicle.Refused id ∨ ∃ m' ∈ before, ∃ o ∈ x.queued, o.message.asks? = some id ∧
      m'.act = .receive o.bytes ∧
      (m'.host.endpoint.isOpen = true →
        m'.host.receives? m'.act = some o.message.received ∨
          ¬o.message.Terse ∧ m'.host.receives? m'.act = none) := by
  obtain ⟨l, o, hl, hbytes, hmsg⟩ := h.exists_of_receives hlimit hpast hr
  have hback : o.message.withdraws? = some id := by
    rw [← Message.withdraws?_received, ← hmsg]
    rfl
  have hmem : id ∈ withdrawsIn (l ++ [o]) := mem_withdrawsIn_concat.mpr (Or.inr hback)
  rcases h.entrusted.behind _ hl id hmem with hask | href
  · obtain ⟨o', ho', hask⟩ := mem_asksIn.mp hask
    rcases List.mem_append.mp ho' with ho' | ho'
    · obtain ⟨⟨m', hm', hact⟩, hsize⟩ := h.exists_arrival hpast hbytes ho'
      have hin := hl.subset (List.mem_append_left _ ho')
      refine Or.inr ⟨m', hm', o', h.queued o' hin, hask, hact, fun hopen => ?_⟩
      rw [hact]
      exact Outbound.receives?_bytes hopen (h.depth o' hin) hsize hlimit
    · -- a cancel is no request
      rw [List.mem_singleton.mp ho', Message.asks?_of_withdraws hback] at hask
      cases hask
  · exact Or.inl href

end Carried

variable [Handler η]

theorem carried {l : ChannelLimits} {c : Config} {strides : List (Stride η)} {x y : Crowd η}
    {k : Desk η} {q : Memory.Queue} (hx : x = (Crowd.ofConfig c).run strides)
    (hk : k.chronicle = x.chronicle)
    (h : Duo.Follows l.maxMessageSize y.chronicle.frames k q) :
    Carried l.maxMessageSize x y := by
  have hentrusted := Crowd.entrusted c strides
  have hs := Crowd.sound (η := η) c strides
  have hp := Crowd.posted (η := η) c strides
  rw [← hx] at hentrusted hs hp
  have horder := h.order
  rw [hk] at horder
  have hsub : x.chronicle.entrusted.Sublist x.queued :=
    hentrusted.sublist.trans (List.sublist_append_left _ _)
  exact ⟨hentrusted, (List.prefix_append _ _).trans horder, h.small,
    fun o ho => hp.depth o (hsub.subset ho),
    (hsub.filterMap _).nodup (hp.nodup_asks hs),
    fun o ho => hsub.subset ho⟩

/-- What arrives at one side, whose crowd is `y`, of the requests and cancels of the other side,
whose crowd is `x`. -/
structure Arrivals (x y : Crowd η) : Prop where
  /-- No request finds a run for its id. -/
  fresh : ∀ m ∈ y.chronicle.past, ∀ id proxy method args,
    m.host.receives? m.act = some (.request id proxy method args) →
      m.host.endpoint.runFor? id = none
  /-- A cancel comes after the frame of its request, unless the channel has refused the request. An
  open endpoint reads that frame, unless an object in it has too long a key. -/
  cancels : ∀ before m after, y.chronicle.past = before ++ m :: after → ∀ id,
    m.host.receives? m.act = some (.cancel id) →
      x.chronicle.Refused id ∨ ∃ m' ∈ before, ∃ o ∈ x.queued, o.message.asks? = some id ∧
        m'.act = .receive o.bytes ∧ m'.host.endpoint.isOpen = true ∧
        (m'.host.receives? m'.act = some o.message.received ∨
          ¬o.message.Terse ∧ m'.host.receives? m'.act = none)

theorem arrivals {limit : Nat} (hlimit : limit < 2 ^ 64) {c : Config}
    {strides : List (Stride η)} {x y : Crowd η} (hy : y = (Crowd.ofConfig c).run strides)
    (h : Carried limit x y) : Arrivals x y := by
  constructor
  case fresh =>
    intro m hm id proxy method args hr
    obtain ⟨before, after, hpast⟩ := List.append_of_mem hm
    rw [Option.eq_none_iff_forall_ne_some]
    intro r hrun
    -- the run began with an earlier request
    obtain ⟨xs, -, hbefore, -⟩ := Crowd.exists_run_of_past (hy ▸ hpast)
    have hbegun := Crowd.begun_run c xs r
    simp only [Crowd.host, hbefore] at hbegun
    obtain ⟨m', hm', r₀, b, hstart, rfl⟩ := hbegun (List.mem_of_find?_eq_some hrun)
    have hid : (r₀.tell b).request = some id := by
      have hfound := List.find?_some (p := fun r : Run η => decide (r.request = some id)) hrun
      exact of_decide_eq_true hfound
    exact h.not_received_before hlimit hpast hr rfl m' hm'
      ((Host.starts?_eq_some hstart).receives _ hid) rfl
  case cancels =>
    intro before m after hpast id hr
    obtain ⟨hopen, -⟩ := Host.receives?_eq_some hr
    rcases h.behind hlimit hpast hr with href | ⟨m', hm', o, ho, hask, hact, hread⟩
    · exact Or.inl href
    · obtain ⟨xs, -, hbefore, -⟩ := Crowd.exists_run_of_past (hy ▸ hpast)
      have hearlier := Crowd.isOpen_past c xs
      simp only [Crowd.host, hbefore] at hearlier
      have hopen' := hearlier hopen m' hm'
      exact Or.inr ⟨m', hm', o, ho, hask, hact, hopen', hread hopen'⟩

/-- **The requests and cancels of every endpoint are in order, and so they arrive on a pair**,
however starts overlap. Whatever happens at an endpoint, over whatever channel: ids rise in the order
in which calls are begun, no two requests have the same id, requests are queued in the order of their
ids where calls are started one after the other, and an id is cancelled once at most, behind its
request, by whoever takes the call back before it has ended. Whatever happens at two endpoints on a
pair, and however their loops take turns: no request that arrives finds a run for its id, and no
cancel overtakes its request. -/
theorem wire_discipline :
    (∀ (c : Config) (strides : List (Stride η)), Crowd.Discipline c strides) ∧
    ∀ (l : ChannelLimits) (c : Side → Config) (stirs : List (Stir η)),
      l.maxMessageSize < 2 ^ 64 → ∀ s,
        Arrivals (((ofConfigs l c).run stirs).crowd s)
          (((ofConfigs l c).run stirs).crowd s.opposite) := by
  refine ⟨Crowd.disciplined, fun l c stirs hmax s => ?_⟩
  obtain ⟨strides, hx⟩ := exists_run l c stirs s
  obtain ⟨strides', hy⟩ := exists_run l c stirs s.opposite
  exact arrivals hmax hy (carried hx rfl ((ordered l c stirs).1 s))

/-- The main side begins two calls, the second of which is sent first, and cancels both, and all of
it arrives. -/
def recalledCalls : List (Stir Service) :=
  [.move (.op .ext (.register ⟨7⟩ (.ofReplies "slow" [("wait", true, .null)]))),
    .start .main (.request ⟨7⟩ "wait" []), .start .main (.request ⟨7⟩ "wait" [])] ++
  List.replicate 5 (.advance .main 1 false) ++ List.replicate 5 (.advance .main 0 false) ++
  [.move (.op .main (.cancel 0)), .move (.op .main (.cancel 1))] ++
  List.replicate 8 (.move (.write .main)) ++ List.replicate 4 (.move (.read .ext))

set_option maxRecDepth 10000 in
/-- Requests and cancels arrive in the order in which they were queued. -/
theorem wire_discipline_recalledCalls :
    let r : Rush Service := (ofConfigs {} .ofSide).run recalledCalls
    (asksIn (r.crowd .main).queued = [⟨2⟩, ⟨1⟩] ∧
      withdrawsIn (r.crowd .main).queued = [⟨2⟩, ⟨1⟩] ∧
      (r.crowd .ext).chronicle.frames.length = 4 ∧
      (r.crowd .ext).host.endpoint.runs.map (fun r => (r.request, r.fired)) =
        [(some ⟨2⟩, true), (some ⟨1⟩, true)]) ∧
    ∀ s, Arrivals (r.crowd s) (r.crowd s.opposite) := by
  intro r
  refine ⟨⟨rfl, rfl, rfl, rfl⟩, ?_⟩
  exact wire_discipline.2 {} .ofSide recalledCalls (by decide)

end Rush

end PeerRpc
