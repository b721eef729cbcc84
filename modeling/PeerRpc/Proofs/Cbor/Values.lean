import PeerRpc.Proofs.Cbor.Reading
import PeerRpc.Proofs.Codec.Depth

/-!
# PeerRpc.Proofs.Cbor.Values -- values that were written are read back

A value is read back as `Value.sorted`, with the fields of its objects in order; a value that has
them in order already is read back as it is (`Value.sorted_eq_self`). What a reader needs is enough
nesting for the depth of the value (`Reader.reads_value`). It may refuse a value with an object
whose first key is long (`Value.FirstKeysShort`); where no key at all is long (`Value.Terse`), there
is none.
-/

namespace PeerRpc

/-! ## Fields in order -/

namespace Keyed

variable {α : Type}

/-- An entry whose key follows all others goes to the end. -/
theorem insert_of_lt {key : String} {a : α} {entries : Keyed α}
    (h : ∀ k ∈ entries.map Prod.fst, k < key) : insert key a entries = entries ++ [(key, a)] := by
  induction entries with
  | nil => rfl
  | cons e rest ih =>
      obtain ⟨k, b⟩ := e
      have hk : k < key := h k List.mem_cons_self
      rw [insert, if_neg (String.lt_asymm hk), if_neg (String.ne_of_lt hk).symm,
        ih fun k' hk' => h k' (List.mem_cons_of_mem _ hk')]
      rfl

/-- Entries that are in order stay as they are. -/
theorem ofList_of_ascending {entries : Keyed α} (h : Ascending entries) : ofList entries = entries := by
  have hgo (acc rest : Keyed α) (h : Ascending (acc ++ rest)) :
      rest.foldl (fun acc e => insert e.1 e.2 acc) acc = acc ++ rest := by
    induction rest generalizing acc with
    | nil => exact (List.append_nil acc).symm
    | cons e rest ih =>
        have hlast : insert e.1 e.2 acc = acc ++ [e] := by
          refine insert_of_lt fun k hk => ?_
          unfold Ascending at h
          rw [List.map_append, List.pairwise_append] at h
          exact h.2.2 k hk e.1 List.mem_cons_self
        rw [List.foldl_cons, hlast, ih (acc ++ [e]) (by simpa using h)]
        simp
  exact hgo [] entries h

end Keyed

namespace Value

mutual

/-- The value with the fields of every object in order; of two equal keys the later one stays. -/
def sorted : Value → Value
  | array items => array (sortedItems items)
  | object fields => object (Keyed.ofList (sortedFields fields))
  | v => v

/-- The items, each with its fields in order. -/
def sortedItems : List Value → List Value
  | [] => []
  | v :: rest => sorted v :: sortedItems rest

/-- The fields, each with the fields of its value in order. -/
def sortedFields : Keyed Value → Keyed Value
  | [] => []
  | (k, v) :: rest => (k, sorted v) :: sortedFields rest

end

mutual

/-- Whether no key of an object in the value is longer than a name. -/
def Terse : Value → Prop
  | array items => ItemsTerse items
  | object fields => FieldsTerse fields
  | _ => True

/-- Every item is terse. -/
def ItemsTerse : List Value → Prop
  | [] => True
  | v :: rest => Terse v ∧ ItemsTerse rest

/-- Every key is short, and every value terse. -/
def FieldsTerse : Keyed Value → Prop
  | [] => True
  | (k, v) :: rest => (Utf8.encode k).length ≤ Cbor.maxName ∧ Terse v ∧ FieldsTerse rest

end

mutual

/-- Whether no object in the value starts with a key that is longer than a name. -/
def FirstKeysShort : Value → Prop
  | array items => ItemsFirstKeysShort items
  | object fields =>
    (∀ e ∈ fields.head?, (Utf8.encode e.1).length ≤ Cbor.maxName) ∧ FieldsFirstKeysShort fields
  | _ => True

/-- No item holds an object that starts with a long key. -/
def ItemsFirstKeysShort : List Value → Prop
  | [] => True
  | v :: rest => FirstKeysShort v ∧ ItemsFirstKeysShort rest

/-- The value of no field holds an object that starts with a long key. -/
def FieldsFirstKeysShort : Keyed Value → Prop
  | [] => True
  | (_, v) :: rest => FirstKeysShort v ∧ FieldsFirstKeysShort rest

end

/-- The head of a value on the wire. -/
def head : Value → Cbor.Head
  | null => .simple Cbor.simpleNull
  | bool b => .simple (if b then Cbor.simpleTrue else Cbor.simpleFalse)
  | int w => if 0 ≤ w.1 then .positive w.1.toNat else .negative (-1 - w.1).toNat
  | float x => .float x.1
  | string s => .text (some (Utf8.encode s).length)
  | array items => .array (some items.length)
  | object fields => .map (some fields.length)

/-- What follows the head of a value on the wire. -/
def body : Value → Bytes
  | string s => Utf8.encode s
  | array items => Cbor.encodeItems items
  | object fields => Cbor.encodeFields fields
  | _ => []

theorem sortedItems_eq (items : List Value) : sortedItems items = items.map sorted := by
  induction items with
  | nil => rfl
  | cons v rest ih => rw [sortedItems, ih, List.map_cons]

theorem sortedFields_eq (fields : Keyed Value) :
    sortedFields fields = fields.map fun e => (e.1, sorted e.2) := by
  induction fields with
  | nil => rfl
  | cons e rest ih => rw [sortedFields, ih, List.map_cons]

theorem itemsFirstKeysShort_iff (items : List Value) :
    ItemsFirstKeysShort items ↔ ∀ v ∈ items, v.FirstKeysShort := by
  induction items with
  | nil => simp [ItemsFirstKeysShort]
  | cons v rest ih => simp [ItemsFirstKeysShort, ih]

theorem fieldsFirstKeysShort_iff (fields : Keyed Value) :
    FieldsFirstKeysShort fields ↔ ∀ e ∈ fields, e.2.FirstKeysShort := by
  induction fields with
  | nil => simp [FieldsFirstKeysShort]
  | cons e rest ih => simp [FieldsFirstKeysShort, ih]

mutual

/-- Where no key is long, no first key is. -/
theorem Terse.firstKeysShort : (v : Value) → v.Terse → v.FirstKeysShort
  | .null, _ => trivial
  | .bool _, _ => trivial
  | .int _, _ => trivial
  | .float _, _ => trivial
  | .string _, _ => trivial
  | .array items, h => Terse.items items h
  | .object [], _ => ⟨nofun, trivial⟩
  | .object ((k, v) :: rest), h => by
      refine ⟨?_, Terse.fields ((k, v) :: rest) h⟩
      intro e he
      obtain rfl : (k, v) = e := Option.some.inj he
      exact h.1

theorem Terse.items : (items : List Value) → ItemsTerse items → ItemsFirstKeysShort items
  | [], _ => trivial
  | v :: rest, h => ⟨Terse.firstKeysShort v h.1, Terse.items rest h.2⟩

theorem Terse.fields : (fields : Keyed Value) → FieldsTerse fields → FieldsFirstKeysShort fields
  | [], _ => trivial
  | (_, v) :: rest, h => ⟨Terse.firstKeysShort v h.2.1, Terse.fields rest h.2.2⟩

end

mutual

/-- A value that has its fields in order stays as it is. -/
theorem sorted_eq_self : (v : Value) → v.Ordered → v.sorted = v
  | .null, _ => rfl
  | .bool _, _ => rfl
  | .int _, _ => rfl
  | .float _, _ => rfl
  | .string _, _ => rfl
  | .array items, h => congrArg array (sortedItems_eq_self items h)
  | .object fields, h => by
      rw [sorted, sortedFields_eq_self fields h.2, Keyed.ofList_of_ascending h.1]

theorem sortedItems_eq_self : (items : List Value) → ItemsOrdered items → sortedItems items = items
  | [], _ => rfl
  | v :: rest, h => by
      rw [sortedItems, sorted_eq_self v h.1, sortedItems_eq_self rest h.2]

theorem sortedFields_eq_self : (fields : Keyed Value) → FieldsOrdered fields →
    sortedFields fields = fields
  | [], _ => rfl
  | (k, v) :: rest, h => by
      rw [sortedFields, sorted_eq_self v h.1, sortedFields_eq_self rest h.2]

end

end Value

namespace Cbor

open Cursor

variable {α β : Type} {sure : Prop}

/-- A reader that is sure under less is sure under more. -/
theorem Lands.mono {sure' : Prop} {a : α} {r : Bytes} {x : Except DecodeError (α × Cursor)}
    (hx : Lands sure' a r x) (h : sure → sure') : Lands sure a r x :=
  hx.imp_right (And.imp_left fun hno hsure => hno (h hsure))

/-! ## Containers -/

theorem Head.encode_ne_nil (h : Head) : h.encode ≠ [] := by
  have hargument (major n : Nat) : encodeArgument major n ≠ [] := by
    unfold encodeArgument
    dsimp only
    split
    · nofun
    · repeat' split
      all_goals nofun
  have hlength (major : Nat) (len : Option Nat) : encodeLength major len ≠ [] := by
    cases len with
    | none => nofun
    | some n => exact hargument major n
  cases h with
  | positive n => exact hargument 0 n
  | negative n => exact hargument 1 n
  | bytes len => exact hlength 2 len
  | text len => exact hlength 3 len
  | array len => exact hlength 4 len
  | map len => exact hlength 5 len
  | tag n => exact hargument 6 n
  | simple n =>
      show (if n < 24 then _ else _) ≠ []
      split <;> nofun
  | float x =>
      show encodeFloat x ≠ []
      unfold encodeFloat
      repeat' split
      all_goals nofun
  | stop => nofun

theorem encodeText_ne_nil (s : String) : encodeText s ≠ [] :=
  fun h => Head.encode_ne_nil _ (List.append_eq_nil_iff.mp h).1

/-- The parts of a container that take a state to another. -/
inductive Chain (sure : Prop) (item : α → Reader α) : α → List Bytes → α → Prop
  | nil (a : α) : Chain sure item a [] a
  | cons {a b d : α} {bs : Bytes} {parts : List Bytes} (hbs : bs ≠ [])
      (hread : Reads sure (item a) bs b) (hrest : Chain sure item b parts d) :
      Chain sure item a (bs :: parts) d

theorem Chain.ne_nil {item : α → Reader α} {a b : α} {parts : List Bytes}
    (h : Chain sure item a parts b) : ∀ bs ∈ parts, bs ≠ [] := by
  induction h with
  | nil => exact fun _ hbs => absurd hbs List.not_mem_nil
  | cons hbs hread hrest ih => exact List.forall_mem_cons.mpr ⟨hbs, ih⟩

/-- There are at most as many parts as octets. -/
theorem length_le_flatten {parts : List Bytes} (h : ∀ bs ∈ parts, bs ≠ []) :
    parts.length ≤ parts.flatten.length := by
  induction parts with
  | nil => exact Nat.le_refl _
  | cons bs parts ih =>
      obtain ⟨hbs, hrest⟩ := List.forall_mem_cons.mp h
      have hpos := List.length_pos_iff.mpr hbs
      have hle := ih hrest
      rw [List.length_cons, List.flatten_cons, List.length_append]
      omega

theorem Chain.loop {item : α → Reader α} {a b : α} {parts : List Bytes}
    (h : Chain sure item a parts b) (fuel : Nat) (hfuel : parts.length < fuel) {c : Cursor}
    {r : Bytes} (hc : c.At none (parts.flatten ++ r)) :
    Lands sure b r (Reader.loop item fuel (some parts.length) a c) := by
  induction h generalizing fuel c with
  | nil a =>
      obtain ⟨fuel, rfl⟩ := Nat.exists_eq_succ_of_ne_zero (Nat.ne_of_gt hfuel)
      exact .ok hc
  | @cons a b d bs parts hbs hread hrest ih =>
      obtain ⟨fuel, rfl⟩ := Nat.exists_eq_succ_of_ne_zero (Nat.ne_of_gt (Nat.zero_lt_of_lt hfuel))
      rw [List.flatten_cons, List.append_assoc] at hc
      rw [List.length_cons] at hfuel
      show Lands sure d r
        ((item a c).bind fun p => Reader.loop item fuel (some parts.length) p.1 p.2)
      exact Lands.bind (hread _ _ hc) fun c' hc' => ih fuel (by omega) hc'

/-- A container is read part by part. -/
theorem Chain.foldItems {item : α → Reader α} {a b : α} {parts : List Bytes}
    (h : Chain sure item a parts b) :
    Reads sure (Reader.foldItems item (some parts.length) a) parts.flatten b := by
  intro c r hc
  have hshort := hc.short
  have hle := length_le_flatten h.ne_nil
  rw [List.length_append] at hshort
  exact h.loop (c.bound + 1) (by omega) hc

/-- The parts of a container whose parts are all alike. -/
theorem Chain.of_foldl {item : α → Reader α} {octets : β → Bytes} {g : α → β → α} (xs : List β)
    (hxs : ∀ x ∈ xs, octets x ≠ [] ∧ ∀ a, Reads sure (item a) (octets x) (g a x)) (a : α) :
    Chain sure item a (xs.map octets) (xs.foldl g a) := by
  induction xs generalizing a with
  | nil => exact .nil a
  | cons x xs ih =>
      obtain ⟨hne, hread⟩ := hxs x List.mem_cons_self
      exact .cons hne (hread a) (ih (fun y hy => hxs y (List.mem_cons_of_mem _ hy)) _)

theorem encodeValue_eq (v : Value) : encodeValue v = v.head.encode ++ v.body := by
  cases v with
  | int w =>
      show encodeInt w.1 = (Value.int w).head.encode ++ []
      rw [List.append_nil, encodeInt, Value.head]
      split <;> rfl
  | null => exact (List.append_nil _).symm
  | bool b => exact (List.append_nil _).symm
  | float x => exact (List.append_nil _).symm
  | _ => rfl

theorem encodeValue_ne_nil (v : Value) : encodeValue v ≠ [] := by
  rw [encodeValue_eq]
  exact fun h => Head.encode_ne_nil _ (List.append_eq_nil_iff.mp h).1

theorem encodeItems_eq (items : List Value) :
    encodeItems items = (items.map encodeValue).flatten := by
  induction items with
  | nil => rfl
  | cons v rest ih => rw [encodeItems, ih, List.map_cons, List.flatten_cons]

theorem encodeFields_eq (fields : Keyed Value) :
    encodeFields fields =
      (fields.map fun e => encodeText e.1 ++ encodeValue e.2).flatten := by
  induction fields with
  | nil => rfl
  | cons e rest ih =>
      rw [encodeFields, ih, List.map_cons, List.flatten_cons, List.append_assoc]

/-- The head of a value that lies ahead is not wider than 64 bits. -/
theorem fits_head {v : Value} {c : Cursor} {r : Bytes} (hc : c.Ahead v.head (v.body ++ r)) :
    v.head.Fits := by
  have hlt := length_lt_of_ahead hc
  rw [List.length_append] at hlt
  cases v with
  | null => exact (by decide : simpleNull < 24)
  | bool b =>
      show (if b then simpleTrue else simpleFalse) < 24
      cases b <;> decide
  | int w =>
      obtain ⟨hlow, hhigh⟩ := w.2
      rw [Value.head]
      split
      · show w.1.toNat < 2 ^ 64
        omega
      · show (-1 - w.1).toNat < 2 ^ 64
        omega
  | float x => trivial
  | string s => exact fits_text hc
  | array items =>
      -- every item takes an octet at least, so there are no more items than octets
      have hparts : ∀ bs ∈ items.map encodeValue, bs ≠ [] := by
        intro bs hbs
        obtain ⟨v, -, rfl⟩ := List.mem_map.mp hbs
        exact encodeValue_ne_nil v
      have hle := length_le_flatten hparts
      rw [List.length_map, ← encodeItems_eq] at hle
      exact Nat.lt_of_le_of_lt hle (Nat.lt_of_le_of_lt (Nat.le_add_right _ _) hlt)
  | object fields =>
      have hparts : ∀ bs ∈ fields.map fun e => encodeText e.1 ++ encodeValue e.2, bs ≠ [] := by
        intro bs hbs
        obtain ⟨e, -, rfl⟩ := List.mem_map.mp hbs
        exact fun h => encodeText_ne_nil _ (List.append_eq_nil_iff.mp h).1
      have hle := length_le_flatten hparts
      rw [List.length_map, ← encodeFields_eq] at hle
      exact Nat.lt_of_le_of_lt hle (Nat.lt_of_le_of_lt (Nat.le_add_right _ _) hlt)

/-- The head of a value is read. -/
theorem pull_head {v : Value} {c : Cursor} {r : Bytes} (hc : c.Ahead v.head (v.body ++ r)) :
    ∃ c', pull c = .ok (v.head, c') ∧ c'.At none (v.body ++ r) :=
  pull_ahead hc (fits_head hc)

/-! ## Values -/

namespace Reader

/-- A value that is no container is read as the item that it is. -/
theorem value_of_scalar {n : Nat} {c c' : Cursor} {i : Item} {v : Value}
    (hitem : anyItem n c = .ok (i, c')) (hv : scalar i = .ok v) : value n c = .ok (v, c') := by
  cases n with
  | zero =>
      rw [value, hitem]
      cases i with
      | array len => cases hv
      | map len => cases hv
      | _ => simp only [bind, Except.bind, hv, pure, Except.pure]
  | succ n =>
      rw [value, hitem]
      cases i with
      | array len => cases hv
      | map len => cases hv
      | _ => simp only [bind, Except.bind, hv, pure, Except.pure]

theorem wireInt_val (n : WireInt) : wireInt n.1 = .ok (.int n) := by
  have hof : WireInt.ofInt? n.1 = some n := dif_pos n.2
  rw [wireInt, hof]

/-- An integer is read back. -/
theorem opens_int (sure : Prop) (n : Nat) (w : WireInt) :
    Opens sure (value n) (Value.int w).head [] (.int w) := by
  intro c r hc
  obtain ⟨hlow, hhigh⟩ := w.2
  obtain ⟨c', hpull, hc'⟩ := pull_head (v := .int w) hc
  refine .of_ok ⟨c', value_of_scalar (i := .int w.1) ?_ (wireInt_val w), hc'⟩
  unfold anyItem
  rw [hpull, Value.head]
  split
  · next hpos =>
      show Except.ok (Item.int (w.1.toNat : Int), c') = _
      rw [Int.toNat_of_nonneg hpos]
  · next hneg =>
      -- the argument of a negative integer counts down from minus one
      have hback : (-1 : Int) - ((-1 - w.1).toNat : Int) = w.1 := by omega
      have hsmall : (-1 - w.1).toNat < 2 ^ 63 := by omega
      show (if (-1 - w.1).toNat < 2 ^ 63 then pure (Item.int (-1 - ((-1 - w.1).toNat : Int)), c')
        else pure (Item.wideInt (-1 - ((-1 - w.1).toNat : Int)), c')) = Except.ok _
      rw [if_pos hsmall, hback]
      rfl

theorem opens_null (sure : Prop) (n : Nat) : Opens sure (value n) Value.null.head [] .null := by
  intro c r hc
  obtain ⟨c', hpull, hc'⟩ := pull_head (v := .null) hc
  refine .of_ok ⟨c', value_of_scalar (i := .null) ?_ rfl, hc'⟩
  unfold anyItem
  rw [hpull]
  rfl

theorem opens_bool (sure : Prop) (n : Nat) (b : Bool) :
    Opens sure (value n) (Value.bool b).head [] (.bool b) := by
  intro c r hc
  obtain ⟨c', hpull, hc'⟩ := pull_head (v := .bool b) hc
  refine .of_ok ⟨c', value_of_scalar (i := .bool b) ?_ rfl, hc'⟩
  unfold anyItem
  rw [hpull]
  cases b <;> rfl

theorem opens_float (sure : Prop) (n : Nat) (x : FiniteFloat) :
    Opens sure (value n) (Value.float x).head [] (.float x) := by
  intro c r hc
  have hof : FiniteFloat.ofBinary64? x.1 = some x := dif_pos x.2
  have hv : scalar (.float x.1) = .ok (.float x) := by
    show Except.ok (Value.ofBinary64 x.1) = _
    rw [Value.ofBinary64, hof]
  obtain ⟨c', hpull, hc'⟩ := pull_head (v := .float x) hc
  refine .of_ok ⟨c', value_of_scalar (i := .float x.1) ?_ hv, hc'⟩
  unfold anyItem
  rw [hpull]
  rfl

theorem opens_text (sure : Prop) (n : Nat) (s : String) :
    Opens sure (value n) (Value.string s).head (Utf8.encode s) (.string s) := by
  intro c r hc
  obtain ⟨c', hpull, hc'⟩ := pull_head (v := .string s) hc
  have hread : Lands sure (Item.string s) r (anyItem n c) := by
    unfold anyItem
    rw [hpull]
    show Lands sure _ r (if (Utf8.encode s).length ≤ maxName then
      (shortText _ (Utf8.encode s).length c').bind fun p => .ok (Item.string p.1, p.2)
      else (text (some (Utf8.encode s).length) c').bind fun p => .ok (Item.string p.1, p.2))
    split
    · exact (reads_shortText sure _ s c' r hc').bind fun c'' hc'' => .ok hc''
    · exact (text_lands sure hc').bind fun c'' hc'' => .ok hc''
  rcases hread with ⟨c'', hitem, hc''⟩ | ⟨hsure, err, herr⟩
  · exact .of_ok ⟨c'', value_of_scalar hitem rfl, hc''⟩
  · exact Or.inr ⟨hsure, err, by cases n <;> rw [value, herr] <;> rfl⟩

/-- The items of an array are read. -/
theorem reads_items {item : Reader Value} {vs : List Value} {g : Value → Value}
    (hitem : ∀ v ∈ vs, Reads sure item (encodeValue v) (g v)) :
    Reads sure (items item (some vs.length)) (encodeItems vs) (vs.map g) := by
  intro c r hc
  have hchain : Chain sure (fun acc c => (item c).map fun p => (p.1 :: acc, p.2)) []
      (vs.map encodeValue) (vs.foldl (fun acc v => g v :: acc) []) :=
    Chain.of_foldl vs (fun v hv => ⟨encodeValue_ne_nil v,
      fun acc c r hc => (hitem v hv c r hc).map (· :: acc)⟩) []
  -- the loop puts each item in front of those before it
  have hmap : (vs.foldl (fun acc v => g v :: acc) []).reverse = vs.map g := by simp
  rw [encodeItems_eq] at hc
  have hread := (hchain.foldItems c r hc).map List.reverse
  rw [hmap, List.length_map] at hread
  exact hread

/-- A key and its value are read into their place. -/
theorem reads_field {item : Reader Value} {k : String} {v w : Value}
    (hv : Reads sure item (encodeValue v) w) (acc : Keyed Value) :
    Reads sure (fun c => do
      let (k, c) ← string c
      let (v, c) ← item c
      return (Keyed.insert k v acc, c)) (encodeText k ++ encodeValue v) (Keyed.insert k w acc) := by
  intro c r hc
  rw [List.append_assoc] at hc
  exact (reads_string sure k c _ hc).bind fun c' hc' =>
    (hv c' r hc').bind fun c'' hc'' => .ok hc''

/-- The fields of an object are read. -/
theorem reads_objectFields {item : Reader Value} {fields : Keyed Value} {g : Value → Value}
    (hkeys : sure → ∀ e ∈ fields.head?, (Utf8.encode e.1).length ≤ maxName)
    (hitem : ∀ e ∈ fields, Reads sure item (encodeValue e.2) (g e.2)) :
    Reads sure (objectFields item (some fields.length)) (encodeFields fields)
      (Keyed.ofList (fields.map fun e => (e.1, g e.2))) := by
  rw [encodeFields_eq]
  cases fields with
  | nil => exact fun c r hc => .ok hc
  | cons e rest =>
      -- the first key is read as a name, which may be refused, and all others as texts
      have hparts : ∀ x ∈ rest, encodeText x.1 ++ encodeValue x.2 ≠ [] ∧ ∀ acc, Reads sure (fun c => do
          let (k, c) ← string c
          let (v, c) ← item c
          return (Keyed.insert k v acc, c)) (encodeText x.1 ++ encodeValue x.2)
            (Keyed.insert x.1 (g x.2) acc) := by
        intro x hx
        refine ⟨fun h => encodeText_ne_nil _ (List.append_eq_nil_iff.mp h).1, ?_⟩
        exact reads_field (hitem x (List.mem_cons_of_mem _ hx))
      have hchain := Chain.of_foldl rest hparts [(e.1, g e.2)]
      have hfold : Keyed.ofList ((e :: rest).map fun e => (e.1, g e.2)) =
          rest.foldl (fun acc e => Keyed.insert e.1 (g e.2) acc) [(e.1, g e.2)] := by
        rw [List.map_cons, Keyed.ofList, List.foldl_cons, List.foldl_map]
        rfl
      rw [hfold]
      intro c r hc
      rw [List.map_cons, List.flatten_cons, List.append_assoc, List.append_assoc] at hc
      have hname : Lands sure e.1 _ (name c) := (reads_name e.1 c _ hc).mono fun hsure =>
        hkeys hsure e rfl
      have hlen : rest.length =
          (rest.map fun e => encodeText e.1 ++ encodeValue e.2).length := (List.length_map _).symm
      show Lands sure _ r ((name c).bind fun p => (item p.2).bind fun q =>
        foldItems _ (some rest.length) [(p.1, q.1)] q.2)
      rw [hlen]
      exact hname.bind fun c₁ hc₁ => (hitem e List.mem_cons_self c₁ _ hc₁).bind fun c₂ hc₂ =>
        hchain.foldItems c₂ r hc₂

/-- **A value is read back with its fields in order.** -/
theorem opens_value (n : Nat) (v : Value) (hd : v.depth ≤ n) :
    Opens v.FirstKeysShort (value n) v.head v.body v.sorted := by
  -- on the nesting that the reader allows, of which the value needs no more than there is
  induction n generalizing v with
  | zero =>
      have := v.depth_pos
      omega
  | succ n ih =>
      cases v with
      | null => exact opens_null _ _
      | bool b => exact opens_bool _ _ b
      | int w => exact opens_int _ _ w
      | float x => exact opens_float _ _ x
      | string s => exact opens_text _ _ s
      | array items =>
          have hdepth := (Value.depthOfItems_le items n).mp (Nat.le_of_succ_le_succ hd)
          have hread (v : Value) (hv : v ∈ items) :
              Reads v.FirstKeysShort (value n) (encodeValue v) v.sorted := by
            rw [encodeValue_eq]
            exact (ih v (hdepth v hv)).reads
          have hitems : Reads (Value.ItemsFirstKeysShort items)
              (Reader.items (value n) (some items.length)) (encodeItems items)
              (items.map Value.sorted) :=
            reads_items fun v hv c r hc => (hread v hv c r hc).mono fun hsure =>
              (Value.itemsFirstKeysShort_iff items).mp hsure v hv
          rw [← Value.sortedItems_eq] at hitems
          intro c r hc
          obtain ⟨c', hpull, hc'⟩ := pull_head (v := .array items) hc
          have hvalue := (hitems c' r hc').map Value.array
          rw [value]
          unfold anyItem
          rw [hpull]
          exact hvalue
      | object fields =>
          have hdepth := (Value.depthOfItems_le (fields.map Prod.snd) n).mp
            (Value.depthOfFields_eq fields ▸ Nat.le_of_succ_le_succ hd)
          have hread (v : Value) (hv : v ∈ fields.map Prod.snd) :
              Reads v.FirstKeysShort (value n) (encodeValue v) v.sorted := by
            rw [encodeValue_eq]
            exact (ih v (hdepth v hv)).reads
          have hfields : Reads (Value.object fields).FirstKeysShort
              (objectFields (value n) (some fields.length)) (encodeFields fields)
              (Keyed.ofList (fields.map fun e => (e.1, e.2.sorted))) :=
            reads_objectFields And.left fun e he c r hc =>
              (hread e.2 (List.mem_map_of_mem he) c r hc).mono fun hsure =>
                (Value.fieldsFirstKeysShort_iff fields).mp hsure.2 e he
          rw [← Value.sortedFields_eq] at hfields
          intro c r hc
          obtain ⟨c', hpull, hc'⟩ := pull_head (v := .object fields) hc
          have hvalue := (hfields c' r hc').map Value.object
          rw [value]
          unfold anyItem
          rw [hpull]
          exact hvalue

theorem reads_value (n : Nat) (v : Value) (hd : v.depth ≤ n) :
    Reads v.FirstKeysShort (value n) (encodeValue v) v.sorted := by
  rw [encodeValue_eq]
  exact (opens_value n v hd).reads

end Reader

end Cbor

end PeerRpc
