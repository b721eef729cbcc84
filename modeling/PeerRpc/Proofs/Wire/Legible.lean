import PeerRpc.Proofs.Codec.Size
import PeerRpc.Proofs.Wire.Basic

/-!
# PeerRpc.Proofs.Wire.Legible -- what is on the way can be read

Every message that an endpoint queues can be encoded, so the other one reads it, unless it refuses
an object with a long key (`Outbound.receives?_bytes`). If nobody hands over such objects, nor
answers that are longer than any memory, every message is read (`Wire.Legible`), and a message that
stands in for a refused one fits through every line.
-/

namespace PeerRpc

variable {η : Type}

/-- The values in what the caller is told of an outcome. -/
def Outcome.payloads : Outcome → List Value
  | value v => [v]
  | failed e => e.toRemote.details.toList
  | _ => []

theorem Outcome.mem_payloads {out : Outcome} {id : RequestId} {v : Value}
    (h : v ∈ (out.message id).payloads) : v ∈ out.payloads ∧ v.depth ≤ Codec.maxDepth := by
  cases out with
  | value v' =>
      rw [Outcome.message] at h
      split at h
      · next hd =>
          obtain rfl := List.mem_singleton.mp h
          exact ⟨h, hd⟩
      · cases h
  | failed e =>
      rw [Outcome.message] at h
      split at h
      · next hd => exact ⟨h, hd v (Option.mem_toList.mp h)⟩
      · cases h
  | panicked message => cases h
  | aborted => cases h

/-- An outcome without long object keys, of which the caller can be told in fewer than `2 ^ 64`
octets. -/
structure Outcome.Plain (out : Outcome) : Prop where
  terse : ∀ v ∈ out.payloads, v.Terse
  small : ∀ id, (Cbor.encodeMessage (out.message id)).length < 2 ^ 64

theorem Outcome.plain_aborted : Outcome.aborted.Plain where
  terse := fun _ hv => absurd hv List.not_mem_nil
  small := fun id => Nat.lt_of_le_of_lt (Codec.length_requestCancelled id) (by decide)

/-- Nothing that is handed over with the operation has a long object key, or is longer than any
memory. -/
def Op.Plain : Op η → Prop
  | .invoke _ _ args => ∀ v ∈ args, v.Terse
  | .request _ _ args => ∀ v ∈ args, v.Terse
  | .notify _ _ args => ∀ v ∈ args, v.Terse
  | .notifyProxy _ _ args => ∀ v ∈ args, v.Terse
  | .conclude _ out => out.Plain
  | _ => True

/-- A message that the other side can read, and that is short if nothing would take its place. -/
structure Outbound.Fits (o : Outbound) : Prop where
  terse : o.message.Terse
  last : o.lastResort = true → o.bytes.length ≤ Codec.narrowest
  small : ∀ id, o.answers? = some id → o.bytes.length < 2 ^ 64

namespace Host

variable [Handler η]

/-- A message that is queued is not nested too deep. -/
theorem Posting.depth {h : Host η} {a : Act η} {o : Outbound} (ho : h.Posting a o) :
    ∀ v ∈ o.message.payloads, v.depth ≤ Codec.maxDepth := by
  cases ho with
  | request proxy method args message next granted step op =>
      subst message
      obtain ⟨bs, hbs⟩ := (Endpoint.refusal?_eq_none granted).encodes
      exact ((Codec.encodeMessage_eq_ok _ _).mp hbs).1
  | notification proxy method args message encodes op =>
      subst message
      obtain ⟨bs, hbs⟩ := encodes
      exact ((Codec.encodeMessage_eq_ok _ _).mp hbs).1
  | outcome id r out message ends =>
      subst message
      exact fun v hv => (Outcome.mem_payloads hv).2
  | cancel k q id message => subst message; exact fun _ hv => absurd hv List.not_mem_nil
  | miss id proxy message => subst message; exact fun _ hv => absurd hv List.not_mem_nil
  | replacement o' err id bounced answers message =>
      subst message
      exact fun _ hv => absurd hv List.not_mem_nil

/-- A message that is queued fits, if all that was handed over is plain. -/
theorem Posting.fits {h : Host η} {a : Act η} {o : Outbound} {limit : Nat} (ho : h.Posting a o)
    (hlimit : limit < 2 ^ 64) (ha : ∀ op, a = .op op → op.Plain)
    (hcon : ∀ p ∈ h.concluded, p.2.Plain)
    (hb : ∀ o' err, h.bounced? a = some (o', err) →
      o'.Fits ∧ err = .frameTooLarge o'.bytes.length limit) : o.Fits := by
  cases ho with
  | request proxy method args message next granted step op =>
      subst message
      refine ⟨?_, nofun, nofun⟩
      rcases op with rfl | ⟨i, -, rfl⟩
      · exact ha _ rfl
      · exact ha _ rfl
  | notification proxy method args message encodes op =>
      subst message
      refine ⟨?_, nofun, nofun⟩
      rcases op with rfl | ⟨i, -, rfl⟩
      · exact ha _ rfl
      · exact ha _ rfl
  | cancel k q id message =>
      subst message
      exact ⟨fun _ hv => absurd hv List.not_mem_nil, nofun, nofun⟩
  | outcome id r out message ends =>
      have hplain : out.Plain := by
        rcases ending?_eq_some ends.ending with hmem | ⟨rfl, -⟩
        · exact hcon _ hmem
        · exact Outcome.plain_aborted
      subst message
      exact ⟨fun v hv => hplain.terse v (Outcome.mem_payloads hv).1, nofun,
        fun _ _ => hplain.small id⟩
  | miss id proxy message =>
      subst message
      refine ⟨fun _ hv => absurd hv List.not_mem_nil, nofun, fun _ _ => ?_⟩
      exact Nat.lt_of_le_of_lt (Codec.length_noSuchProxy id proxy) (by decide)
  | replacement o' err id bounced answers message =>
      obtain ⟨hfits, rfl⟩ := hb o' err bounced
      subst message
      refine ⟨fun _ hv => absurd hv List.not_mem_nil, fun _ => ?_, nofun⟩
      exact Codec.length_undelivered id (hfits.small id answers) hlimit

end Host

/-! ## Reading -/

/-- An open endpoint reads a message that can be encoded, unless a key is too long for it. -/
theorem Outbound.receives?_bytes {h : Host η} {o : Outbound} {limit : Nat}
    (hopen : h.endpoint.isOpen = true) (hdepth : ∀ v ∈ o.message.payloads, v.depth ≤ Codec.maxDepth)
    (hsize : o.bytes.length ≤ limit) (hlimit : limit < 2 ^ 64) :
    h.receives? (.receive o.bytes) = some o.message.received ∨
      ¬o.message.Terse ∧ h.receives? (.receive o.bytes) = none := by
  have hreceives : h.receives? (.receive o.bytes) = (Codec.decodeMessage o.bytes).toOption :=
    if_pos hopen
  rw [hreceives, Outbound.bytes]
  rcases Codec.decodeMessage_encodeMessage o.message hdepth (Nat.lt_of_le_of_lt hsize hlimit) with
    h | ⟨hterse, err, h⟩
  · rw [h]
    exact Or.inl rfl
  · rw [h]
    exact Or.inr ⟨hterse, rfl⟩

namespace Wire

variable [Handler η] {limit : Nat} {ok : Op η → Prop} {w w' : Wire η}

/-- What is on the way was so before, or has just been queued. -/
theorem Turn.mem_road {s : Side} {a : Act η} (h : Turn limit w w' s a) {t : Side} {o : Outbound}
    (ho : o ∈ w'.road t) : o ∈ w.road t ∨ t = s ∧ (w.host s).queues? a = some o := by
  rcases eq_or_opposite s t with rfl | rfl
  · rcases h.out with ⟨-, hroad⟩ | ⟨o', xs, ys, -, -, hold, hroad⟩
    · rw [hroad] at ho
      rcases List.mem_append.mp ho with ho | ho
      · exact Or.inl ho
      · exact Or.inr ⟨rfl, Option.mem_toList.mp ho⟩
    · rw [hroad] at ho
      rcases List.mem_append.mp ho with ho | ho
      · rw [hold]
        exact Or.inl (List.mem_append.mpr ((List.mem_append.mp ho).imp_right
          (List.mem_cons_of_mem _)))
      · exact Or.inr ⟨rfl, Option.mem_toList.mp ho⟩
  · rcases h.inc with ⟨-, hroad⟩ | ⟨o', hold, -, -⟩
    · exact Or.inl (hroad ▸ ho)
    · rw [hold]
      exact Or.inl (List.mem_cons_of_mem _ ho)

/-- No message on the way is nested too deep. -/
theorem Reached.depth {c : Side → Config} (h : Reached limit ok c w) (s : Side) :
    ∀ o ∈ w.road s, ∀ v ∈ o.message.payloads, v.depth ≤ Codec.maxDepth := by
  induction h generalizing s with
  | start => exact fun _ ho => absurd ho List.not_mem_nil
  | step h hstep ih =>
      intro o ho
      rcases hstep.turn fun s => (h.kept s).1 with ⟨t, a, hturn, -⟩ | hloss
      · rcases hturn.mem_road ho with ho | ⟨rfl, hq⟩
        · exact ih s o ho
        · exact (Host.posting hq).depth
      · exact ih s o ((hloss.road s).subset ho)

/-- Everything that is on the way, and every outcome that is yet to be told, can be read. -/
structure Legible (w : Wire η) : Prop where
  fits : ∀ s, ∀ o ∈ w.road s, o.Fits
  plain : ∀ s, ∀ p ∈ (w.host s).concluded, p.2.Plain

theorem Reached.legible {c : Side → Config} (h : Reached limit Op.Plain c w)
    (hlimit : limit < 2 ^ 64) : w.Legible := by
  induction h with
  | start => exact ⟨fun _ _ ho => absurd ho List.not_mem_nil, fun _ _ hp => absurd hp List.not_mem_nil⟩
  | @step w w' h hstep ih =>
      rcases hstep.turn fun s => (h.kept s).1 with ⟨t, a, hturn, hok⟩ | hloss
      · refine ⟨fun s o ho => ?_, fun s p hp => ?_⟩
        · rcases hturn.mem_road ho with ho | ⟨rfl, hq⟩
          · exact ih.fits s o ho
          · -- a message that is refused was on the way, so it fitted
            refine (Host.posting hq).fits hlimit hok (ih.plain s) fun o' err hb => ?_
            rcases hturn.out with ⟨hno, -⟩ | ⟨o₁, xs, ys, hyes, -, hold, -⟩
            · rw [hno] at hb
              cases hb
            · rw [hyes] at hb
              obtain ⟨rfl, rfl⟩ := Prod.mk.inj (Option.some.inj hb)
              refine ⟨ih.fits s _ ?_, rfl⟩
              rw [hold]
              exact List.mem_append_right _ List.mem_cons_self
        · rcases eq_or_opposite t s with rfl | rfl
          · rw [host, hturn.self] at hp
            rcases Host.mem_concluded_step hp with hp | ⟨rfl, -⟩
            · exact ih.plain _ p hp
            · exact hok _ rfl
          · rw [host, hturn.other] at hp
            exact ih.plain _ p hp
      · refine ⟨fun s o ho => ih.fits s o ((hloss.road s).subset ho), fun s p hp => ?_⟩
        rw [host, hloss.same] at hp
        exact ih.plain s p hp

end Wire

end PeerRpc
