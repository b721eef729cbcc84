import PeerRpc.Text.Utf8

/-!
# PeerRpc.Proofs.Text.Blocks -- text that is read in blocks

A block of a text may end inside a character. `Utf8.decodeAhead` then reads all but at most three
octets of it (`Utf8.decodeAhead_of_prefix`), and what remains together with what follows is text
again (`Utf8.exists_of_encode_append`), so reading on loses nothing. A block that ends where a text
ends is read as a whole (`Utf8.decodeAhead_encode`).
-/

namespace PeerRpc

namespace Utf8

/-- The octets of a text are those of its characters. -/
theorem encode_ofList (l : List Char) : encode (String.ofList l) = l.flatMap String.utf8EncodeChar := by
  simp [encode, String.toUTF8, List.utf8Encode]

theorem encode_toList (s : String) : encode s = s.toList.flatMap String.utf8EncodeChar := by
  rw [← encode_ofList, String.ofList_toList]

@[simp] theorem encode_append (s t : String) : encode (s ++ t) = encode s ++ encode t := by
  simp [encode_toList]

@[simp] theorem encode_empty : encode "" = [] := rfl

theorem encode_inj {s t : String} (h : encode s = encode t) : s = t := by
  have := decode_encode s
  rw [h, decode_encode] at this
  exact (Option.some.inj this).symm

/-- What follows a text inside a text is text. -/
theorem exists_of_encode_append {s t : String} {bs : Bytes} (h : encode s ++ bs = encode t) :
    ∃ u, encode u = bs ∧ t = s ++ u := by
  have hbytes : s.toList.utf8Encode ++ bs.toByteArray = t.toList.utf8Encode := by
    simp only [List.utf8Encode, ← encode_toList, ← List.toByteArray_append, h]
  obtain ⟨l, hl⟩ := List.isPrefix_of_utf8Encode_append_eq_utf8Encode _ hbytes
  have ht : t = s ++ String.ofList l := by
    rw [← String.ofList_toList (s := t), ← hl, String.ofList_append, String.ofList_toList]
  refine ⟨String.ofList l, ?_, ht⟩
  rw [ht, encode_append] at h
  exact (List.append_cancel_left h).symm

/-- Every beginning of a text is text up to at most three octets. -/
theorem exists_cut {bs : Bytes} (l : List Char)
    (h : bs <+: l.flatMap String.utf8EncodeChar) :
    ∃ cut, cut ≤ 3 ∧ cut ≤ bs.length ∧ ∃ t, encode t = bs.take (bs.length - cut) := by
  induction l generalizing bs with
  | nil =>
      obtain rfl := List.prefix_nil.mp h
      exact ⟨0, by omega, Nat.le_refl _, "", rfl⟩
  | cons c l ih =>
      rw [List.flatMap_cons] at h
      have hsize : (String.utf8EncodeChar c).length ≤ 4 := by
        rw [String.length_utf8EncodeChar]
        exact c.utf8Size_le_four
      by_cases hlen : bs.length < (String.utf8EncodeChar c).length
      · -- the block ends inside its first character
        exact ⟨bs.length, by omega, Nat.le_refl _, "", by simp⟩
      · obtain ⟨bs', rfl⟩ : String.utf8EncodeChar c <+: bs :=
          List.prefix_of_prefix_length_le (List.prefix_append _ _) h (by omega)
        obtain ⟨cut, hcut, hle, t, ht⟩ := ih ((List.prefix_append_right_inj _).mp h)
        refine ⟨cut, hcut, by rw [List.length_append]; omega, String.ofList [c] ++ t, ?_⟩
        rw [encode_append, encode_ofList, ht, List.length_append,
          show (String.utf8EncodeChar c).length + bs'.length - cut =
            (String.utf8EncodeChar c).length + (bs'.length - cut) by omega,
          List.take_length_add_append]
        simp

/-- The first cut that leaves text is found, if there is one. -/
theorem go_of_cut {bs : Bytes} {cut : Nat} {t : String} (hle : cut ≤ bs.length)
    (ht : encode t = bs.take (bs.length - cut)) {cuts : List Nat} (hmem : cut ∈ cuts)
    (hsorted : cuts.Pairwise (· ≤ ·)) :
    ∃ u k, k ∈ cuts ∧ k ≤ cut ∧ decodeAhead.go bs cuts = some (u, bs.drop (bs.length - k)) ∧
      encode u = bs.take (bs.length - k) := by
  induction cuts with
  | nil => cases hmem
  | cons k cuts ih =>
      have hk : k ≤ cut := by
        rcases List.mem_cons.mp hmem with rfl | hmem
        · exact Nat.le_refl _
        · exact (List.pairwise_cons.mp hsorted).1 cut hmem
      rw [decodeAhead.go, if_neg (by omega)]
      cases hd : decode (bs.take (bs.length - k)) with
      | some u => exact ⟨u, k, List.mem_cons_self, hk, rfl, encode_of_decode hd⟩
      | none =>
          have hne : cut ≠ k := by
            rintro rfl
            rw [← ht, decode_encode] at hd
            cases hd
          have hmem' : cut ∈ cuts := (List.mem_cons.mp hmem).resolve_left hne
          obtain ⟨u, k', hk', hle', hgo, hu⟩ := ih hmem' (List.pairwise_cons.mp hsorted).2
          exact ⟨u, k', List.mem_cons_of_mem _ hk', hle', hgo, hu⟩

/-- **A block of a text is read up to at most three octets.** -/
theorem decodeAhead_of_prefix {bs : Bytes} {s : String} (h : bs <+: encode s) :
    ∃ u carried, decodeAhead bs = some (u, carried) ∧ encode u ++ carried = bs ∧
      carried.length ≤ 3 := by
  rw [encode_toList] at h
  obtain ⟨cut, hcut, hle, t, ht⟩ := exists_cut s.toList h
  have hmem : cut ∈ [0, 1, 2, 3] := by
    simp only [List.mem_cons, List.not_mem_nil, or_false]
    omega
  obtain ⟨u, k, -, hk, hgo, hu⟩ := go_of_cut hle ht hmem (by decide)
  refine ⟨u, _, hgo, ?_, ?_⟩
  · rw [hu, List.take_append_drop]
  · rw [List.length_drop]
    omega

/-- A block that is a text is read as a whole. -/
theorem decodeAhead_encode (s : String) : decodeAhead (encode s) = some (s, []) := by
  unfold decodeAhead
  rw [decodeAhead.go, if_neg (Nat.not_lt_zero _), Nat.sub_zero, List.take_length, decode_encode]
  simp

/-- A block of a text is read with what is carried, and carries little. The last one carries
nothing. -/
theorem decodeAhead_take {carried ahead : Bytes} {s : String} (h : carried ++ ahead = encode s)
    (count : Nat) :
    ∃ u carried', decodeAhead (carried ++ ahead.take count) = some (u, carried') ∧
      encode u ++ carried' = carried ++ ahead.take count ∧ carried'.length ≤ 3 ∧
      (ahead.length ≤ count → carried' = []) := by
  by_cases hlast : ahead.length ≤ count
  · rw [List.take_of_length_le hlast, h]
    exact ⟨s, [], decodeAhead_encode s, List.append_nil _, Nat.zero_le _, fun _ => rfl⟩
  · have hprefix : carried ++ ahead.take count <+: encode s := by
      rw [← h]
      exact (List.prefix_append_right_inj _).mpr (List.take_prefix _ _)
    obtain ⟨u, carried', hdecode, hadd, hshort⟩ := decodeAhead_of_prefix hprefix
    exact ⟨u, carried', hdecode, hadd, hshort, fun h => absurd h hlast⟩

end Utf8

end PeerRpc
