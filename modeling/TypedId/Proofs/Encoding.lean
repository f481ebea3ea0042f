import TypedId.Text.Utf8

/-!
What bytes say of the text that they encode. Different texts have different bytes, and a text is read back from
its own (`decode?_encode`). A byte below 128 is a character of its own, whatever stands around it
(`char_mem_pieces`), and a reading of any bytes holds no character whose bytes are not among them.
-/
namespace TypedId.Text

theorem encode_inj {s t : String} (h : encode s = encode t) : s = t := by
  apply String.toByteArray_inj.mp
  rw [← String.utf8Encode_toList, ← String.utf8Encode_toList, List.utf8Encode, List.utf8Encode]
  exact congrArg List.toByteArray h

theorem encode_append (s t : String) : encode (s ++ t) = encode s ++ encode t := by
  simp [encode, String.toList_append]

theorem encode_eq_nil {s : String} (h : encode s = []) : s = "" := encode_inj h

/-- The bytes of a character outside ASCII are all above ASCII. -/
theorem toNat_of_mem_utf8EncodeChar {c : Char} {b : UInt8} (h : b ∈ String.utf8EncodeChar c)
    (hb : b.toNat < 128) : c.toNat = b.toNat := by
  have high : ∀ x y : UInt8, 128 ≤ y.toNat → 128 ≤ (x ||| y).toNat := by
    intro x y hy
    rw [UInt8.toNat_or]
    exact Nat.le_trans hy Nat.right_le_or
  rw [String.utf8EncodeChar_eq_utf8EncodeCharFast] at h
  unfold String.utf8EncodeCharFast at h
  dsimp only at h
  split at h
  · next hascii =>
    rw [List.mem_singleton.mp h, UInt32.toNat_toUInt8]
    have hle : c.val.toNat ≤ 127 := UInt32.le_iff_toNat_le.mp hascii
    exact (Nat.mod_eq_of_lt (show c.val.toNat < 256 by omega)).symm
  · -- Two, three or four bytes: each of them has its highest bit set.
    exfalso
    revert hb
    apply Nat.not_lt_of_le
    split at h
    · simp only [List.mem_cons, List.not_mem_nil, or_false] at h
      rcases h with rfl | rfl <;> exact high _ _ (by decide)
    · split at h
      · simp only [List.mem_cons, List.not_mem_nil, or_false] at h
        rcases h with rfl | rfl | rfl <;> exact high _ _ (by decide)
      · simp only [List.mem_cons, List.not_mem_nil, or_false] at h
        rcases h with rfl | rfl | rfl | rfl <;> exact high _ _ (by decide)

/-- A byte of ASCII among the bytes of a text is a character of the text. -/
theorem mem_of_mem_encode {s : String} {c : Char} (hc : c.toNat < 128)
    (h : UInt8.ofNat c.toNat ∈ encode s) : c ∈ s.toList := by
  obtain ⟨c', hc', hb⟩ := List.mem_flatMap.mp h
  have hbyte : (UInt8.ofNat c.toNat).toNat = c.toNat := by
    rw [UInt8.toNat_ofNat']
    exact Nat.mod_eq_of_lt (by omega)
  have heq := toNat_of_mem_utf8EncodeChar hb (by omega)
  rw [hbyte] at heq
  rwa [← Char.toNat_inj.mp heq]

/-- A character that is read from the front of some bytes is encoded there. -/
theorem eq_append_of_decodeChar? {bytes : List UInt8} {c : Char} (h : decodeChar? bytes = some c) :
    ∃ more, bytes = String.utf8EncodeChar c ++ more := by
  obtain ⟨rest, hrest⟩ := ByteArray.exists_of_utf8DecodeChar?_eq_some h
  have hdata := congrArg (fun a => a.data.toList) hrest
  simp only [List.data_toByteArray, ByteArray.data_append, Array.toList_append] at hdata
  refine ⟨rest.data.toList ++ bytes.drop 4, ?_⟩
  rw [← List.append_assoc, ← hdata, List.take_append_drop]

theorem subset_of_decodeChar? {bytes : List UInt8} {c : Char} (h : decodeChar? bytes = some c) :
    ∀ b ∈ String.utf8EncodeChar c, b ∈ bytes := by
  obtain ⟨more, rfl⟩ := eq_append_of_decodeChar? h
  exact fun b hb => List.mem_append_left more hb

theorem subset_of_char_mem_pieces {bytes : List UInt8} {c : Char} (h : Piece.char c ∈ pieces bytes) :
    ∀ b ∈ String.utf8EncodeChar c, b ∈ bytes := by
  fun_induction pieces bytes with
  | case1 => cases h
  | case2 b rest c' hc' ih =>
    rcases List.mem_cons.mp h with heq | h
    · cases heq
      exact subset_of_decodeChar? hc'
    · intro b' hb'
      exact List.mem_cons_of_mem _ (List.mem_of_mem_drop (ih h b' hb'))
  | case3 b rest hnone ih =>
    rcases List.mem_cons.mp h with heq | h
    · cases heq
    · intro b' hb'
      exact List.mem_cons_of_mem _ (List.mem_of_mem_drop (ih h b' hb'))

/-- Reading bytes makes up no character but the one that stands for bytes that encode none. -/
theorem subset_of_mem_decodeLossy {bytes : List UInt8} {c : Char} (h : c ∈ (decodeLossy bytes).toList)
    (hc : c ≠ '\uFFFD') : ∀ b ∈ String.utf8EncodeChar c, b ∈ bytes := by
  rw [decodeLossy, String.toList_ofList, List.mem_map] at h
  obtain ⟨piece, hpiece, rfl⟩ := h
  cases piece with
  | char c => exact subset_of_char_mem_pieces hpiece
  | broken bytes => exact absurd rfl hc

/-! ## Reading what has been encoded -/

theorem decodeChar?_append (c : Char) (rest : List UInt8) :
    decodeChar? (String.utf8EncodeChar c ++ rest) = some c := by
  have hle : (String.utf8EncodeChar c).length ≤ 4 := by
    rw [String.length_utf8EncodeChar]
    exact c.utf8Size_le_four
  rw [decodeChar?, List.take_append, List.take_of_length_le hle, List.toByteArray_append]
  exact ByteArray.utf8DecodeChar?_utf8EncodeChar_append

theorem pieces_append (c : Char) (rest : List UInt8) :
    pieces (String.utf8EncodeChar c ++ rest) = .char c :: pieces rest := by
  obtain ⟨b, more, hcons⟩ : ∃ b more, String.utf8EncodeChar c = b :: more :=
    List.exists_cons_of_length_pos (by rw [String.length_utf8EncodeChar]; exact c.utf8Size_pos)
  have hlength : more.length = c.utf8Size - 1 := by
    rw [← String.length_utf8EncodeChar, hcons]
    rfl
  have hchar := decodeChar?_append c rest
  rw [hcons, List.cons_append] at hchar ⊢
  rw [pieces, hchar]
  dsimp only
  rw [List.drop_left' hlength]

theorem pieces_encode (s : String) : pieces (encode s) = s.toList.map Piece.char := by
  rw [encode]
  induction s.toList with
  | nil => rw [List.flatMap_nil, pieces, List.map_nil]
  | cons c rest ih => rw [List.flatMap_cons, pieces_append, ih, List.map_cons]

theorem decode?_encode (s : String) : decode? (encode s) = some s := by
  have hchars : ∀ cs : List Char, (cs.map Piece.char).mapM Piece.char? = some cs := by
    intro cs
    induction cs with
    | nil => rfl
    | cons c rest ih => rw [List.map_cons, List.mapM_cons, ih]; rfl
  rw [decode?, pieces_encode, hchars, Option.map_some, String.ofList_toList]

theorem decodeLossy_encode (s : String) : decodeLossy (encode s) = s := by
  have hshown : s.toList.map (Piece.shown ∘ Piece.char) = s.toList := List.map_id s.toList
  rw [decodeLossy, pieces_encode, List.map_map, hshown, String.ofList_toList]

theorem le_of_mayFollow {first second : UInt8} (h : mayFollow first second = true) : 128 ≤ second.toNat := by
  unfold mayFollow isContinuation at h
  repeat' split at h
  all_goals
    simp only [Bool.and_eq_true, decide_eq_true_eq, UInt8.le_iff_toNat_le] at h
    simp at h
    omega

/-- In the beginning of a character that breaks off, only the first byte can be below 128. -/
theorem le_of_mem_broken {b x : UInt8} {rest : List UInt8} (h : x ∈ rest.take (brokenLength (b :: rest) - 1)) :
    128 ≤ x.toNat := by
  match rest with
  | [] => cases h
  | [second] =>
    rw [brokenLength] at h
    split at h
    · next hfollow =>
      rw [List.mem_singleton.mp h]
      exact le_of_mayFollow hfollow
    · cases h
  | second :: third :: more =>
    rw [brokenLength] at h
    split at h
    · cases h
    · next hfollow =>
      have hsecond : 128 ≤ second.toNat := le_of_mayFollow (by simpa using hfollow)
      split at h
      · next hthird =>
        rw [isContinuation, Bool.and_eq_true, Bool.and_eq_true, decide_eq_true_eq, decide_eq_true_eq,
          UInt8.le_iff_toNat_le] at hthird
        have h : x ∈ [second, third] := h
        rw [List.mem_cons, List.mem_singleton] at h
        rcases h with rfl | rfl
        · exact hsecond
        · exact hthird.2.1
      · have h : x ∈ [second] := h
        rwa [List.mem_singleton.mp h]

theorem decodeChar?_ascii {c : Char} (hc : c.toNat < 128) (rest : List UInt8) :
    decodeChar? (UInt8.ofNat c.toNat :: rest) = some c := by
  have hbytes : String.utf8EncodeChar c = [UInt8.ofNat c.toNat] := by
    have hle : c.val ≤ 127 := UInt32.le_iff_toNat_le.mpr (Nat.le_of_lt_succ hc)
    rw [String.utf8EncodeChar_eq_utf8EncodeCharFast, String.utf8EncodeCharFast]
    rw [if_pos hle]
    rfl
  have h := decodeChar?_append c rest
  rwa [hbytes] at h

/-- A byte of ASCII is read as the character that it is, whatever stands around it. -/
theorem char_mem_pieces {bytes : List UInt8} {c : Char} (hc : c.toNat < 128) (h : UInt8.ofNat c.toNat ∈ bytes) :
    Piece.char c ∈ pieces bytes := by
  have hbyte : (UInt8.ofNat c.toNat).toNat = c.toNat := by
    rw [UInt8.toNat_ofNat']
    exact Nat.mod_eq_of_lt (by omega)
  fun_induction pieces bytes with
  | case1 => cases h
  | case2 b rest c' hc' ih =>
    obtain ⟨more, hmore⟩ := eq_append_of_decodeChar? hc'
    rw [hmore] at h
    rcases List.mem_append.mp h with h | h
    · have heq := toNat_of_mem_utf8EncodeChar h (by omega)
      rw [hbyte] at heq
      rw [Char.toNat_inj.mp heq]
      exact List.mem_cons_self
    · refine List.mem_cons_of_mem _ (ih ?_)
      have hrest := congrArg (List.drop c'.utf8Size) hmore
      rw [← String.length_utf8EncodeChar c', List.drop_left, String.length_utf8EncodeChar] at hrest
      rw [← hrest, ← Nat.sub_add_cancel c'.utf8Size_pos, List.drop_succ_cons] at h
      exact h
  | case3 b rest hnone ih =>
    refine List.mem_cons_of_mem _ (ih ?_)
    rcases List.mem_cons.mp h with heq | h
    · rw [← heq, decodeChar?_ascii hc] at hnone
      cases hnone
    · rw [← List.take_append_drop (brokenLength (b :: rest) - 1) rest] at h
      refine (List.mem_append.mp h).resolve_left fun hbroken => ?_
      have := le_of_mem_broken hbroken
      omega

end TypedId.Text
