import TypedId.ModulePath

/-!
Paths that are written out and read again. To read one, its text is cut at double colons, and colons can run together
there: of three in a row the first two are the separator, so a colon that ends a name is taken for the beginning of the
separator after it. The pieces of every cut keep apart (`keepApart_splitSeparators`), and pieces that do are found again
in the text that they are joined to (`splitSeparators_intercalate`). So what is read from any text is a path that reads
back as itself, and a path does so exactly if none of its names is empty or holds a double colon and only the last one
ends in a colon (`parse_text_eq_iff`).
-/
namespace TypedId.ModulePath

/-! ## The first piece of a cut -/

theorem splitSeparators_ne_nil (cs : List Char) : splitSeparators cs ≠ [] := by
  fun_cases splitSeparators cs with
  | case1 => simp
  | case2 => simp
  | case3 => simp
  | case4 => simp

theorem splitSeparators_cons {c : Char} {cs piece : List Char} {more : List (List Char)}
    (h : ¬[':', ':'] <+: c :: cs) (hs : splitSeparators cs = piece :: more) :
    splitSeparators (c :: cs) = (c :: piece) :: more := by
  rw [splitSeparators, hs]
  rintro rest rfl rfl
  exact h ⟨rest, rfl⟩

theorem splitSeparators_of_no_separator {piece : List Char} (h : ¬[':', ':'] <:+: piece) :
    splitSeparators piece = [piece] := by
  induction piece with
  | nil => rfl
  | cons c rest ih =>
    rw [List.infix_cons_iff, not_or] at h
    exact splitSeparators_cons h.1 (ih h.2)

/-- A piece that makes no separator with the first colon after it is cut off as it stands. -/
theorem splitSeparators_append {piece : List Char} (h : ¬[':', ':'] <:+: piece ++ [':']) (rest : List Char) :
    splitSeparators (piece ++ ':' :: ':' :: rest) = piece :: splitSeparators rest := by
  induction piece with
  | nil => rfl
  | cons c more ih =>
    rw [List.cons_append, List.infix_cons_iff, not_or] at h
    refine splitSeparators_cons (fun hbegins => h.1 ?_) (ih h.2)
    -- A separator at the beginning of the whole text would end at the colon after the piece, if not before.
    have hpiece : c :: (more ++ [':']) <+: c :: (more ++ ':' :: ':' :: rest) := ⟨':' :: rest, by simp⟩
    exact List.prefix_of_prefix_length_le hbegins hpiece (by simp)

/-! ## All pieces of a cut -/

theorem intercalate_splitSeparators (cs : List Char) : [':', ':'].intercalate (splitSeparators cs) = cs := by
  fun_induction splitSeparators cs with
  | case1 => rfl
  | case2 rest ih => rw [List.intercalate_cons_of_ne_nil (splitSeparators_ne_nil rest), ih]; rfl
  | case3 c rest _ piece more hs ih =>
    rw [hs] at ih
    cases more with
    | nil => rw [List.intercalate_singleton] at ih ⊢; rw [ih]
    | cons next others =>
      rw [List.intercalate_cons_cons] at ih ⊢
      rw [← ih]
      rfl
  | case4 _ rest _ hs => exact absurd hs (splitSeparators_ne_nil rest)

/-- No piece holds a separator, and one with another after it does not end in a colon, which would be taken for the
first of the separator between them. -/
structure KeepApart (pieces : List (List Char)) : Prop where
  no_separator : ∀ piece ∈ pieces, ¬[':', ':'] <:+: piece
  no_colon_before : pieces.Pairwise fun piece _ => ¬[':'] <:+ piece

namespace KeepApart

theorem of_not_mem {pieces : List (List Char)} (h : ∀ piece ∈ pieces, ':' ∉ piece) : KeepApart pieces where
  no_separator piece hpiece hinside := h piece hpiece (hinside.subset (by simp))
  no_colon_before := List.pairwise_of_forall_mem_list fun piece hpiece _ _ hsuffix =>
    h piece hpiece (hsuffix.subset (by simp))

/-- Pieces are still apart when some are left out. -/
theorem filter {pieces : List (List Char)} (h : KeepApart pieces) (keep : List Char → Bool) :
    KeepApart (pieces.filter keep) where
  no_separator piece hpiece := h.no_separator piece (List.mem_filter.mp hpiece).1
  no_colon_before := h.no_colon_before.filter keep

end KeepApart

theorem keepApart_singleton {piece : List Char} : KeepApart [piece] ↔ ¬[':', ':'] <:+: piece := by
  constructor
  · intro h
    exact h.no_separator piece (by simp)
  · intro h
    exact ⟨by simpa using h, List.pairwise_singleton _ _⟩

theorem keepApart_cons {piece : List Char} {more : List (List Char)} (hmore : more ≠ []) :
    KeepApart (piece :: more) ↔ ¬[':', ':'] <:+: piece ++ [':'] ∧ KeepApart more := by
  have hcolon : [':', ':'] <:+: piece ++ [':'] ↔ [':'] <:+ piece ∨ [':', ':'] <:+: piece := by
    rw [List.infix_concat_iff, ← List.singleton_append, List.suffix_append_self_iff]
  rw [hcolon, not_or]
  constructor
  · intro h
    have hpairs := List.pairwise_cons.mp h.no_colon_before
    obtain ⟨next, hnext⟩ := List.exists_mem_of_ne_nil more hmore
    exact ⟨⟨hpairs.1 next hnext, h.no_separator piece (by simp)⟩,
      fun other hother => h.no_separator other (List.mem_cons_of_mem piece hother), hpairs.2⟩
  · rintro ⟨⟨hlast, hpiece⟩, hapart⟩
    exact ⟨List.forall_mem_cons.mpr ⟨hpiece, hapart.no_separator⟩,
      List.pairwise_cons.mpr ⟨fun _ _ => hlast, hapart.no_colon_before⟩⟩

/-- The pieces of a text keep apart, wherever colons run together in it. -/
theorem keepApart_splitSeparators (cs : List Char) : KeepApart (splitSeparators cs) := by
  fun_induction splitSeparators cs with
  | case1 => exact keepApart_singleton.mpr (by decide)
  | case2 rest ih => exact (keepApart_cons (splitSeparators_ne_nil rest)).mpr ⟨by decide, ih⟩
  | case3 c rest hnot piece more hs ih =>
    have hbegins : ¬[':', ':'] <+: c :: rest := by
      rintro ⟨after, hafter⟩
      obtain ⟨rfl, rfl⟩ := List.cons.inj hafter
      exact hnot after rfl rfl
    -- The first piece grows by a character, and what comes after that one in the text begins with the old piece.
    have hjoin := intercalate_splitSeparators rest
    rw [hs] at hjoin ih
    cases more with
    | nil =>
      rw [List.intercalate_singleton] at hjoin
      rw [keepApart_singleton, List.infix_cons_iff, not_or]
      exact ⟨hjoin ▸ hbegins, keepApart_singleton.mp ih⟩
    | cons next others =>
      obtain ⟨hpiece, hmore⟩ := (keepApart_cons (by simp)).mp ih
      rw [keepApart_cons (by simp), List.cons_append, List.infix_cons_iff, not_or]
      refine ⟨⟨fun hpre => hbegins (hpre.trans ?_), hpiece⟩, hmore⟩
      rw [← hjoin, List.intercalate_cons_cons, List.append_assoc]
      exact ⟨':' :: [':', ':'].intercalate (next :: others), by simp⟩
  | case4 _ rest _ hs => exact absurd hs (splitSeparators_ne_nil rest)

/-- Pieces that keep apart come out of the cut as they were before they were joined. -/
theorem splitSeparators_intercalate {pieces : List (List Char)} (hne : pieces ≠ []) (h : KeepApart pieces) :
    splitSeparators ([':', ':'].intercalate pieces) = pieces := by
  induction pieces with
  | nil => exact absurd rfl hne
  | cons piece more ih =>
    cases more with
    | nil => rw [List.intercalate_singleton, splitSeparators_of_no_separator (keepApart_singleton.mp h)]
    | cons next others =>
      obtain ⟨hpiece, hmore⟩ := (keepApart_cons (by simp)).mp h
      rw [List.intercalate_cons_cons, List.append_assoc, List.cons_append, List.cons_append, List.nil_append,
        splitSeparators_append hpiece, ih (by simp) hmore]

/-! ## Reading and writing out -/

/-- No name of the path is empty, and the names keep apart. -/
structure IsReadable (p : ModulePath) : Prop where
  ne_empty : ∀ s ∈ p.segments, s ≠ ""
  keepApart : KeepApart (p.segments.map String.toList)

theorem toList_segments_parse (s : String) :
    (parse s).segments.map String.toList = (splitSeparators s.toList).filter fun piece => !piece.isEmpty := by
  simp [parse, Function.comp_def]

theorem isReadable_parse (s : String) : (parse s).IsReadable where
  ne_empty name hname := by
    have hpiece : name.toList ∈ (splitSeparators s.toList).filter fun piece => !piece.isEmpty := by
      rw [← toList_segments_parse]
      exact List.mem_map_of_mem hname
    rintro rfl
    simp at hpiece
  keepApart := by
    rw [toList_segments_parse]
    exact (keepApart_splitSeparators s.toList).filter _

theorem parse_text_of_isReadable {p : ModulePath} (h : p.IsReadable) : parse p.text = p := by
  obtain ⟨names⟩ := p
  by_cases hroot : names = []
  · rw [hroot]
    rfl
  · -- The names come out of the cut, and none of them is passed over.
    have hcut : splitSeparators (text ⟨names⟩).toList = names.map String.toList := by
      rw [text, String.toList_intercalate]
      exact splitSeparators_intercalate (mt List.map_eq_nil_iff.mp hroot) h.keepApart
    have hkept : (names.map String.toList).filter (fun piece => !piece.isEmpty) = names.map String.toList := by
      rw [List.filter_eq_self]
      intro piece hpiece
      obtain ⟨s, hs, rfl⟩ := List.mem_map.mp hpiece
      simpa using h.ne_empty s hs
    rw [parse, hcut, hkept, List.map_map]
    simp

/-- **A path reads back as itself** exactly if no name is empty and the names keep apart. -/
theorem parse_text_eq_iff {p : ModulePath} : parse p.text = p ↔ p.IsReadable := by
  constructor
  · intro h
    rw [← h]
    exact isReadable_parse p.text
  · exact parse_text_of_isReadable

/-- A colon at the end of a name goes over to the next one. -/
example : parse (text ⟨["shop:", "orders"]⟩) = ⟨["shop", ":orders"]⟩ := by decide

end TypedId.ModulePath
