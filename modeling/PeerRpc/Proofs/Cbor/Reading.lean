import PeerRpc.Cbor.Reader
import PeerRpc.Cbor.Writer
import PeerRpc.Proofs.Cbor.Heads
import PeerRpc.Proofs.Text.Blocks

/-!
# PeerRpc.Proofs.Cbor.Reading -- texts and numbers that were written are read back

`Reads` says that a reader takes exactly the given octets, whatever follows them. Where a reader
has to look at a head before it knows what it reads, the head may have been taken back: this is
`Opens`. Both come with a condition `sure`. Under it they promise the result; without it they
leave room for a refusal, because one kind of text, the first key of an object, is refused if it is
long.
-/

namespace PeerRpc

namespace Cbor

open Cursor

variable {α β : Type} {sure : Prop}

/-- The reader has come to a result in front of these octets, or has refused. -/
def Lands (sure : Prop) (a : α) (r : Bytes) (x : Except DecodeError (α × Cursor)) : Prop :=
  (∃ c, x = .ok (a, c) ∧ c.At none r) ∨ ¬sure ∧ ∃ err, x = .error err

/-- The reader takes these octets, whatever follows them. -/
def Reads (sure : Prop) (p : Reader α) (bs : Bytes) (a : α) : Prop :=
  ∀ c r, c.At none (bs ++ r) → Lands sure a r (p c)

/-- The reader takes this head and these octets, even if the head has been taken back. -/
def Opens (sure : Prop) (p : Reader α) (h : Head) (bs : Bytes) (a : α) : Prop :=
  ∀ c r, c.Ahead h (bs ++ r) → Lands sure a r (p c)

theorem Lands.ok {a : α} {r : Bytes} {c : Cursor} (hc : c.At none r) : Lands sure a r (.ok (a, c)) :=
  Or.inl ⟨c, rfl, hc⟩

theorem Lands.of_ok {a : α} {r : Bytes} {x : Except DecodeError (α × Cursor)}
    (h : ∃ c, x = .ok (a, c) ∧ c.At none r) : Lands sure a r x := Or.inl h

/-- A reader that goes on from where another has come to. -/
theorem Lands.bind {a : α} {b : β} {r r' : Bytes} {x : Except DecodeError (α × Cursor)}
    {f : α × Cursor → Except DecodeError (β × Cursor)} (hx : Lands sure a r x)
    (hf : ∀ c, c.At none r → Lands sure b r' (f (a, c))) : Lands sure b r' (x >>= f) := by
  rcases hx with ⟨c, rfl, hc⟩ | ⟨hsure, err, rfl⟩
  · exact hf c hc
  · exact Or.inr ⟨hsure, err, rfl⟩

theorem Lands.map {a : α} {r : Bytes} {x : Except DecodeError (α × Cursor)} (g : α → β)
    (hx : Lands sure a r x) :
    Lands sure (g a) r (x.map fun p => (g p.1, p.2)) := by
  rcases hx with ⟨c, rfl, hc⟩ | ⟨hsure, err, rfl⟩
  · exact Or.inl ⟨c, rfl, hc⟩
  · exact Or.inr ⟨hsure, err, rfl⟩

theorem Opens.reads {p : Reader α} {h : Head} {bs : Bytes} {a : α} (hp : Opens sure p h bs a) :
    Reads sure p (h.encode ++ bs) a := by
  intro c r hc
  rw [List.append_assoc] at hc
  exact hp c r (Or.inr hc)

/-- A cursor in front of a head behind which some octets follow can take them in. -/
theorem length_lt_of_ahead {c : Cursor} {h : Head} {bs : Bytes} (hc : c.Ahead h bs) :
    bs.length < 2 ^ 64 := by
  rcases hc with hc | hc
  · exact Nat.lt_of_lt_of_le hc.short hc.small
  · have hshort := hc.short
    rw [List.length_append] at hshort
    exact Nat.lt_of_lt_of_le (by omega) hc.small

/-- The length of a text that lies ahead is not wider than 64 bits. -/
theorem fits_text {c : Cursor} {s : String} {r : Bytes}
    (hc : c.Ahead (.text (some (Utf8.encode s).length)) (Utf8.encode s ++ r)) :
    Head.Fits (.text (some (Utf8.encode s).length)) := by
  have hlt := length_lt_of_ahead hc
  rw [List.length_append] at hlt
  exact Nat.lt_of_le_of_lt (Nat.le_add_right _ _) hlt

/-! ## Heads -/

namespace Reader

/-- A head that is no tag is found at once. -/
theorem untagged_ahead {c : Cursor} {h : Head} {bs : Bytes} (hc : c.Ahead h bs) (hh : h.Fits)
    (htag : ∀ n, h ≠ .tag n) :
    ∃ c', untagged c = .ok ((c.offset, h), c') ∧ c'.At none bs := by
  obtain ⟨c', hpull, hc'⟩ := pull_ahead hc hh
  refine ⟨c', ?_, hc'⟩
  show untaggedFrom (c.bound + 1) c = _
  rw [untaggedFrom, hpull]
  cases h with
  | tag n => exact absurd rfl (htag n)
  | _ => rfl

/-- A text in one piece is read. -/
theorem reads_shortText (sure : Prop) (start : Nat) (s : String) :
    Reads sure (shortText start (Utf8.encode s).length) (Utf8.encode s) s := by
  intro c r hc
  obtain ⟨c', htake, hc'⟩ := take_at hc
  unfold shortText
  rw [htake]
  dsimp only [bind, Except.bind]
  rw [Utf8.decode_encode]
  exact .ok hc'

end Reader

/-! ## Texts -/

namespace Cursor

/-- What has been read of a text, what is carried and what lies ahead make up the text. Every block
takes at least one octet, so the fuel never runs out. -/
theorem textSegment_lands (sure : Prop) (start fuel n : Nat) {s acc : String}
    {carried ahead r : Bytes} {c : Cursor} (hc : c.At none (ahead ++ r)) (hn : ahead.length = n)
    (hfuel : n < fuel) (hs : Utf8.encode acc ++ (carried ++ ahead) = Utf8.encode s)
    (hcarried : carried.length ≤ 3) (hend : n = 0 → carried = []) :
    Lands sure s r (textSegment start fuel n carried acc c) := by
  induction fuel generalizing n acc carried ahead c with
  | zero => omega
  | succ fuel ih =>
      rw [textSegment]
      by_cases hzero : n = 0
      · obtain rfl : ahead = [] := List.length_eq_zero_iff.mp (hn.trans hzero)
        obtain rfl := hend hzero
        obtain rfl : acc = s := Utf8.encode_inj (by simpa using hs)
        rw [if_pos hzero]
        exact .ok hc
      · rw [if_neg hzero]
        obtain ⟨u, hu, rfl⟩ := Utf8.exists_of_encode_append hs
        dsimp only
        generalize hcount : min n (block - carried.length) = count
        have hpos : 0 < count := by
          unfold block at hcount
          omega
        have hle : count ≤ n := hcount ▸ Nat.min_le_left _ _
        -- the block that is read now, and what is left after it
        have hsplit : ahead.take count ++ ahead.drop count = ahead := List.take_append_drop _ _
        have hlen : (ahead.take count).length = count := by
          rw [List.length_take]
          omega
        have hat : c.At none (ahead.take count ++ (ahead.drop count ++ r)) := by
          rwa [← List.append_assoc, hsplit]
        obtain ⟨c', htake, hc'⟩ := take_at hat
        rw [hlen] at htake
        rw [htake]
        obtain ⟨t, carried', hdecode, hadd, hshort, hlast⟩ := Utf8.decodeAhead_take hu.symm count
        dsimp only [bind, Except.bind]
        rw [hdecode]
        refine ih (n - count) hc' ?_ (by omega) ?_ hshort fun h => hlast (by omega)
        · rw [List.length_drop]
          omega
        · rw [Utf8.encode_append, List.append_assoc, ← List.append_assoc _ carried', hadd,
            List.append_assoc, hsplit]
          exact hs

/-- A text after its head is read, in blocks. -/
theorem text_lands (sure : Prop) {s : String} {r : Bytes} {c : Cursor}
    (hc : c.At none (Utf8.encode s ++ r)) :
    Lands sure s r (text (some (Utf8.encode s).length) c) := by
  have hahead := hc.push (.text (some (Utf8.encode s).length))
  obtain ⟨c', hpull, hc'⟩ := pull_ahead hahead (fits_text hahead)
  unfold text
  rw [segments, hpull]
  show Lands sure s r ((textSegment _ _ (Utf8.encode s).length [] "" c').bind fun p => .ok (p.1, p.2))
  refine Lands.bind (textSegment_lands sure _ _ _ hc' rfl (Nat.lt_succ_self _) ?_ (by decide)
    fun _ => rfl) fun c'' hc'' => .ok hc''
  simp

end Cursor

namespace Reader

/-- **A text is read back, however long it is.** -/
theorem reads_string (sure : Prop) (s : String) : Reads sure string (encodeText s) s := by
  refine Opens.reads (fun c r hc => ?_)
  obtain ⟨c', huntagged, hc'⟩ := untagged_ahead hc (fits_text hc) nofun
  unfold string
  rw [huntagged]
  exact text_lands sure hc'

/-- A name is read back if it is not too long, and refused otherwise. -/
theorem reads_name (s : String) :
    Reads ((Utf8.encode s).length ≤ maxName) name (encodeText s) s := by
  refine Opens.reads (fun c r hc => ?_)
  obtain ⟨c', huntagged, hc'⟩ := untagged_ahead hc (fits_text hc) nofun
  unfold name
  rw [huntagged]
  show Lands _ s r (if (Utf8.encode s).length ≤ maxName then
    shortText c.offset (Utf8.encode s).length c' else refuse _ "str")
  split
  · exact reads_shortText _ _ _ _ _ hc'
  · next hlong => exact Or.inr ⟨hlong, _, rfl⟩

/-- The name of a field or a variant is read back. -/
theorem opens_identifier (sure : Prop) {s : String} (hs : (Utf8.encode s).length ≤ maxName) :
    Opens sure identifier (.text (some (Utf8.encode s).length)) (Utf8.encode s) s := by
  intro c r hc
  obtain ⟨c', huntagged, hc'⟩ := untagged_ahead hc (fits_text hc) nofun
  unfold identifier
  rw [huntagged]
  show Lands _ s r (if (Utf8.encode s).length ≤ maxName then
    shortText c.offset (Utf8.encode s).length c' else refuse _ "str or bytes")
  rw [if_pos hs]
  exact reads_shortText _ _ _ _ _ hc'

/-! ## Numbers -/

/-- A word is read back. -/
theorem reads_int (sure : Prop) {k : IntKind} (hk : k.signed = false) (n : k.Range) :
    Reads sure (int k) (encodeInt n.1) n := by
  obtain ⟨i, hleast, hgreatest⟩ := n
  have hpos : 0 ≤ i := by
    have h₀ : k.least = 0 := by simp [IntKind.least, hk]
    omega
  have hlt := k.greatest_lt
  have hfits : Head.Fits (.positive i.toNat) := by
    show i.toNat < 2 ^ 64
    omega
  have hbytes : encodeInt i = (Head.positive i.toNat).encode ++ [] := by
    rw [encodeInt, if_pos hpos, List.append_nil]
  rw [hbytes]
  refine Opens.reads fun c r hc => ?_
  obtain ⟨c', hpull, hc'⟩ := pull_ahead hc hfits
  refine .of_ok ⟨c', ?_, hc'⟩
  have hinteger : integer c = .ok ((false, i.toNat), c') := by
    show integerFrom (c.bound + 1) c = _
    rw [integerFrom, hpull]
    rfl
  have hof : k.ofInt? i = some ⟨i, hleast, hgreatest⟩ := dif_pos ⟨hleast, hgreatest⟩
  have hsmall : ¬2 ^ 64 ≤ i.toNat := by omega
  unfold int
  rw [hinteger]
  simp only [bind, Except.bind, hk, Bool.false_eq_true, if_false, if_neg hsmall, pure, Except.pure,
    Int.toNat_of_nonneg hpos]
  rw [hof]

theorem reads_requestId (sure : Prop) (id : RequestId) :
    Reads sure requestId (encodeInt id.val.toNat) id := by
  intro c r hc
  have hlt := id.val.toNat_lt
  have hn : IntKind.word64.least ≤ (id.val.toNat : Int) ∧
      (id.val.toNat : Int) ≤ IntKind.word64.greatest := by
    constructor
    · exact Int.natCast_nonneg _
    · show (id.val.toNat : Int) ≤ 2 ^ 64 - 1
      omega
  have hread := (reads_int sure rfl ⟨_, hn⟩ c r hc).map fun n => (⟨.ofNat n.1.toNat⟩ : RequestId)
  rwa [show (⟨.ofNat (id.val.toNat : Int).toNat⟩ : RequestId) = id by simp] at hread

theorem reads_proxyId (sure : Prop) (p : ProxyId) :
    Reads sure proxyId (encodeInt p.val.toNat) p := by
  intro c r hc
  have hlt := p.val.toNat_lt
  have hn : IntKind.word32.least ≤ (p.val.toNat : Int) ∧
      (p.val.toNat : Int) ≤ IntKind.word32.greatest := by
    constructor
    · exact Int.natCast_nonneg _
    · show (p.val.toNat : Int) ≤ 2 ^ 32 - 1
      omega
  have hread := (reads_int sure rfl ⟨_, hn⟩ c r hc).map fun n => (⟨.ofNat n.1.toNat⟩ : ProxyId)
  rwa [show (⟨.ofNat (p.val.toNat : Int).toNat⟩ : ProxyId) = p by simp] at hread

end Reader

end Cbor

end PeerRpc
