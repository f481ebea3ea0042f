import TypedId.Files.Disk

/-!
Paths by their pieces. A path is absolute, and leads where it leads, by its pieces alone, so what is done to a
path is told by what is done to these: a join puts one more piece at the end (`named_join`,
`components_join`), another extension changes the last one (`pieces_withExtension`), and a parent keeps some of
the first ones (`of_parent?`).
-/
namespace TypedId

/-! ## Cutting at a separator -/

namespace Text

variable {α : Type} [DecidableEq α]

theorem split_append (separator : α) (xs ys : List α) :
    split separator (xs ++ separator :: ys) = split separator xs ++ split separator ys := by
  induction xs with
  | nil => simp [split]
  | cons x rest ih =>
    by_cases h : x = separator
    · rw [List.cons_append, split, if_pos h, ih, split, if_pos h]
      rfl
    · obtain ⟨piece, more, hs⟩ := List.exists_cons_of_ne_nil (split_ne_nil separator rest)
      rw [hs, List.cons_append] at ih
      rw [List.cons_append, split_cons_of_ne h ih, split_cons_of_ne h hs]
      rfl

/-- No piece holds the separator. -/
theorem not_mem_of_mem_split {separator : α} {s piece : List α} (h : piece ∈ split separator s) :
    separator ∉ piece := by
  induction s generalizing piece with
  | nil =>
    rw [split, List.mem_singleton] at h
    simp [h]
  | cons a rest ih =>
    by_cases ha : a = separator
    · rw [split, if_pos ha] at h
      rcases List.mem_cons.mp h with rfl | h
      · simp
      · exact ih h
    · obtain ⟨first, more, hs⟩ := List.exists_cons_of_ne_nil (split_ne_nil separator rest)
      rw [split_cons_of_ne ha hs] at h
      rw [hs] at ih
      rcases List.mem_cons.mp h with rfl | h
      · rw [List.mem_cons, not_or]
        exact ⟨Ne.symm ha, ih List.mem_cons_self⟩
      · exact ih (List.mem_cons_of_mem first h)

end Text

/-! ## Names -/

/-- A name that is a component of its own wherever it stands in a path. -/
structure FileName.IsProper (n : FileName) : Prop where
  ne_nil : n ≠ []
  no_slash : slash ∉ n
  ne_here : n ≠ [dot]
  ne_up : n ≠ [dot, dot]

theorem DiskPath.component?_nil : component? [] = none := rfl

theorem DiskPath.component?_eq_name {n : FileName} (h : n.IsProper) : component? n = some (.name n) := by
  have hempty : n.isEmpty = false := by simpa using h.ne_nil
  simp [component?, hempty, h.ne_here, h.ne_up]

namespace DiskPath

open FileName

/-! ## Pieces -/

/-- The pieces of a path that are not empty. -/
def named (p : DiskPath) : List FileName := p.pieces.filter fun piece => !piece.isEmpty

theorem bytes_eq_join (p : DiskPath) : p.bytes = Text.join slash p.pieces :=
  (Text.join_split slash p.bytes).symm

theorem pieces_mk_join {ps : List (List UInt8)} (hne : ps ≠ []) (h : ∀ piece ∈ ps, slash ∉ piece) :
    (⟨Text.join slash ps⟩ : DiskPath).pieces = ps := Text.split_join hne h

theorem no_slash_of_mem_pieces {p : DiskPath} {piece : FileName} (h : piece ∈ p.pieces) : slash ∉ piece :=
  Text.not_mem_of_mem_split h

theorem no_slash_of_mem_named {p : DiskPath} {piece : FileName} (h : piece ∈ p.named) : slash ∉ piece :=
  no_slash_of_mem_pieces (List.mem_filter.mp h).1

theorem ne_nil_of_mem_named {p : DiskPath} {piece : FileName} (h : piece ∈ p.named) : piece ≠ [] := by
  simpa using (List.mem_filter.mp h).2

/-- A path is absolute if it has an empty piece before others. -/
theorem isAbsolute_iff {p : DiskPath} : p.isAbsolute = true ↔ ∃ q rest, p.pieces = [] :: q :: rest := by
  unfold isAbsolute pieces
  constructor
  · intro h
    cases hb : p.bytes with
    | nil => simp [hb] at h
    | cons b rest =>
      have hslash : b = slash := by simpa [hb] using h
      obtain ⟨q, more, hs⟩ := List.exists_cons_of_ne_nil (Text.split_ne_nil slash rest)
      exact ⟨q, more, by rw [Text.split, if_pos hslash, hs]⟩
  · intro hsome
    obtain ⟨q, rest, h⟩ := hsome
    rw [← Text.join_split slash p.bytes, h]
    simp [Text.join]

theorem named_eq_nil_of_bytes_eq_nil {p : DiskPath} (h : p.bytes = []) : p.named = [] := by
  rw [named, pieces, h]
  rfl

/-! ## One more piece -/

theorem isAbsolute_mk {n : FileName} (h : slash ∉ n) : isAbsolute ⟨n⟩ = false := by
  cases n with
  | nil => rfl
  | cons b rest =>
    rw [List.mem_cons, not_or] at h
    simpa [isAbsolute] using Ne.symm h.1

/-- The pieces of a join: those of the base, without a last one that is empty, and the name. -/
theorem pieces_join (base : DiskPath) {n : FileName} (h : slash ∉ n) :
    ∃ ps, (base.join ⟨n⟩).pieces = ps ++ [n] ∧
      (base.bytes = [] ∧ ps = [] ∨ ps ≠ [] ∧ (base.pieces = ps ∨ base.pieces = ps ++ [[]])) := by
  rw [join, isAbsolute_mk h, if_neg (by simp)]
  cases hlast : base.bytes.getLast? with
  | none =>
    exact ⟨[], Text.split_of_not_mem h, Or.inl ⟨List.getLast?_eq_none_iff.mp hlast, rfl⟩⟩
  | some b =>
    dsimp only
    split
    · next hb =>
      obtain ⟨before, hbefore⟩ := List.getLast?_eq_some_iff.mp hlast
      have hsplit : ∀ rest, Text.split slash (base.bytes ++ rest) =
          Text.split slash before ++ Text.split slash rest := by
        intro rest
        rw [hbefore, hb, List.append_assoc]
        exact Text.split_append slash before rest
      refine ⟨Text.split slash before, ?_, Or.inr ⟨Text.split_ne_nil slash before, Or.inr ?_⟩⟩
      · rw [pieces, hsplit, Text.split_of_not_mem h]
      · have := hsplit []
        rw [List.append_nil] at this
        exact this
    · refine ⟨base.pieces, ?_, Or.inr ⟨Text.split_ne_nil slash base.bytes, Or.inl rfl⟩⟩
      rw [pieces, Text.split_append, Text.split_of_not_mem h]
      rfl

theorem isAbsolute_join (base : DiskPath) {n : FileName} (h : slash ∉ n) :
    (base.join ⟨n⟩).isAbsolute = base.isAbsolute := by
  rw [join, isAbsolute_mk h, if_neg (by simp)]
  cases hlast : base.bytes.getLast? with
  | none =>
    have hempty := List.getLast?_eq_none_iff.mp hlast
    rw [isAbsolute_mk h, isAbsolute, hempty]
    rfl
  | some b =>
    obtain ⟨first, rest, hbytes⟩ := List.exists_cons_of_ne_nil (l := base.bytes)
      (fun hnil => by simp [hnil] at hlast)
    dsimp only
    split <;> simp [isAbsolute, hbytes]

theorem named_join (base : DiskPath) {n : FileName} (h : slash ∉ n) (hne : n ≠ []) :
    (base.join ⟨n⟩).named = base.named ++ [n] := by
  obtain ⟨ps, hps, hbase⟩ := pieces_join base h
  have hn : n.isEmpty = false := by simpa using hne
  have hnamed : base.named = ps.filter fun piece => !piece.isEmpty := by
    rcases hbase with ⟨hempty, rfl⟩ | ⟨_, hp | hp⟩
    · exact named_eq_nil_of_bytes_eq_nil hempty
    · rw [named, hp]
    · simp [named, hp]
  rw [named, hps, List.filter_append, hnamed]
  simp [hn]

theorem components_of_isAbsolute {p : DiskPath} (h : p.isAbsolute = true) :
    p.components = .root :: p.pieces.filterMap component? := by
  rw [components, if_pos h]

theorem components_of_not_isAbsolute {p : DiskPath} (h : p.isAbsolute = false) {first : FileName}
    {rest : List FileName} (hp : p.pieces = first :: rest) :
    p.components =
      (if first = [dot] then [.here] else (component? first).toList) ++ rest.filterMap component? := by
  rw [components, h, if_neg (by simp), hp]

/-- A proper name that is joined to a path is one more component. -/
theorem components_join (base : DiskPath) {n : FileName} (h : n.IsProper) :
    (base.join ⟨n⟩).components = base.components ++ [.name n] := by
  obtain ⟨ps, hps, hbase⟩ := pieces_join base h.no_slash
  have habsolute := isAbsolute_join base h.no_slash
  -- The first piece of a relative path is read in its own way, so the name must not become that piece.
  have hname := component?_eq_name h
  cases hkind : base.isAbsolute with
  | true =>
    rw [hkind] at habsolute
    rw [components_of_isAbsolute habsolute, components_of_isAbsolute hkind, hps]
    rcases hbase with ⟨hempty, rfl⟩ | ⟨_, hp | hp⟩
    · simp [isAbsolute, hempty] at hkind
    · simp [hp, hname]
    · simp [hp, hname, component?_nil]
  | false =>
    rw [hkind] at habsolute
    rcases hbase with ⟨hempty, rfl⟩ | ⟨hne, hp⟩
    · have hpieces : base.pieces = [[]] := by rw [pieces, hempty]; rfl
      rw [components_of_not_isAbsolute habsolute hps, components_of_not_isAbsolute hkind hpieces]
      simp [h.ne_here, hname, component?_nil]
    · obtain ⟨first, rest, rfl⟩ := List.exists_cons_of_ne_nil hne
      rw [components_of_not_isAbsolute habsolute hps]
      rcases hp with hp | hp
      · rw [components_of_not_isAbsolute hkind hp]
        simp [hname]
      · rw [components_of_not_isAbsolute hkind hp]
        simp [hname, component?_nil]

/-! ## The last piece -/

theorem join_concat (ps : List (List UInt8)) (n : List UInt8) :
    ∃ before, Text.join slash (ps ++ [n]) = before ++ n := by
  induction ps with
  | nil => exact ⟨[], rfl⟩
  | cons first rest ih =>
    obtain ⟨before, hbefore⟩ := ih
    refine ⟨first ++ slash :: before, ?_⟩
    rw [List.cons_append, Text.join_cons slash first (by simp), hbefore]
    simp

theorem getLast?_bytes {p : DiskPath} {ps : List FileName} {n : FileName} (hp : p.pieces = ps ++ [n])
    (hne : n ≠ []) : p.bytes.getLast? ≠ some slash := by
  obtain ⟨before, hbefore⟩ := join_concat ps n
  rw [bytes_eq_join, hp, hbefore, List.getLast?_append, List.getLast?_eq_some_getLast hne, Option.some_or]
  intro hslash
  refine no_slash_of_mem_pieces (p := p) (hp ▸ List.mem_append_right ps (List.mem_singleton_self n)) ?_
  exact Option.some.inj hslash ▸ List.getLast_mem hne

theorem named_of_pieces {p : DiskPath} {ps : List FileName} {n : FileName} (hp : p.pieces = ps ++ [n])
    (hne : n ≠ []) : p.named = ps.filter (fun piece => !piece.isEmpty) ++ [n] := by
  simp [named, hp, hne]

/-- Whether a path is absolute is not told by its last piece. -/
theorem isAbsolute_of_pieces {p q : DiskPath} {ps : List FileName} {m n : FileName}
    (hp : p.pieces = ps ++ [n]) (hq : q.pieces = ps ++ [m]) : p.isAbsolute = q.isAbsolute := by
  rw [Bool.eq_iff_iff, isAbsolute_iff, isAbsolute_iff, hp, hq]
  cases ps with
  | nil => simp
  | cons first rest => cases rest <;> simp

/-! ## Several pieces, one below another -/

/-- The path of some names below a path. -/
def descend (base : DiskPath) (names : List FileName) : DiskPath :=
  names.foldl (fun p n => p.join ⟨n⟩) base

theorem descend_append (base : DiskPath) (names : List FileName) (n : FileName) :
    base.descend (names ++ [n]) = (base.descend names).join ⟨n⟩ := by
  simp [descend]

theorem isAbsolute_descend (base : DiskPath) {names : List FileName} (h : ∀ n ∈ names, slash ∉ n) :
    (base.descend names).isAbsolute = base.isAbsolute := by
  induction names generalizing base with
  | nil => rfl
  | cons n rest ih =>
    rw [← isAbsolute_join base (h n List.mem_cons_self)]
    exact ih _ fun m hm => h m (List.mem_cons_of_mem n hm)

theorem named_descend (base : DiskPath) {names : List FileName} (h : ∀ n ∈ names, slash ∉ n)
    (hne : ∀ n ∈ names, n ≠ []) : (base.descend names).named = base.named ++ names := by
  induction names generalizing base with
  | nil => simp [descend]
  | cons n rest ih =>
    rw [List.append_cons, ← named_join base (h n List.mem_cons_self) (hne n List.mem_cons_self)]
    exact ih _ (fun m hm => h m (List.mem_cons_of_mem n hm)) fun m hm => hne m (List.mem_cons_of_mem n hm)

theorem components_descend (base : DiskPath) {names : List FileName} (h : ∀ n ∈ names, n.IsProper) :
    (base.descend names).components = base.components ++ names.map .name := by
  induction names generalizing base with
  | nil => simp [descend]
  | cons n rest ih =>
    rw [List.map_cons, List.append_cons, ← components_join base (h n List.mem_cons_self)]
    exact ih _ fun m hm => h m (List.mem_cons_of_mem n hm)

/-! ## Another extension -/

theorem dropIdle_append (ps : List FileName) {n : FileName} (h : n.IsProper) :
    dropIdle (ps ++ [n]) = ps ++ [n] := by
  cases ps with
  | nil => rfl
  | cons first rest => simp [dropIdle, component?_eq_name h]

theorem fileName?_of_pieces {p : DiskPath} {ps : List FileName} {n : FileName} (h : n.IsProper)
    (hp : p.pieces = ps ++ [n]) : p.fileName? = some n := by
  have hname := component?_eq_name h
  have hlast : p.components.getLast? = some (.name n) := by
    cases hkind : p.isAbsolute with
    | true =>
      have hend : [n].filterMap component? = [.name n] := by simp [hname]
      rw [components_of_isAbsolute hkind, hp, List.filterMap_append, hend, ← List.cons_append,
        List.getLast?_concat]
    | false =>
      cases ps with
      | nil =>
        rw [components_of_not_isAbsolute hkind hp]
        simp [h.ne_here, hname]
      | cons first rest =>
        rw [components_of_not_isAbsolute hkind hp]
        simp [hname]
  rw [fileName?, hlast]
  rfl

/-- Another extension changes the last piece alone. -/
theorem pieces_withExtension {p : DiskPath} {ps : List FileName} {n : FileName} (h : n.IsProper)
    (hp : p.pieces = ps ++ [n]) {extension : FileName} (he : slash ∉ FileName.stem n ++ dot :: extension) :
    (p.withExtension extension).pieces = ps ++ [FileName.stem n ++ dot :: extension] := by
  have hkind : (p.isAbsolute && decide ((ps ++ [FileName.stem n ++ dot :: extension]).length = 1)) = false := by
    rw [← Bool.not_eq_true, Bool.and_eq_true, isAbsolute_iff, decide_eq_true_eq]
    intro hsome
    obtain ⟨⟨q, rest, hpieces⟩, hlength⟩ := hsome
    have := congrArg List.length (hp.symm.trans hpieces)
    simp at this hlength
    simp [hlength] at this
  rw [withExtension, fileName?_of_pieces h hp]
  dsimp only
  rw [hp, dropIdle_append ps h, List.dropLast_concat, ofPieces, hkind, if_neg (by simp), pieces_mk_join (by simp)]
  intro piece hpiece
  rcases List.mem_append.mp hpiece with hmem | hmem
  · exact no_slash_of_mem_pieces (p := p) (hp ▸ List.mem_append_left _ hmem)
  · rwa [List.mem_singleton.mp hmem]

/-! ## Parents -/

theorem dropIdle_isPrefix (ps : List FileName) : dropIdle ps <+: ps := by
  cases ps with
  | nil => exact List.prefix_refl []
  | cons first rest =>
    rw [dropIdle, List.cons_prefix_cons]
    refine ⟨rfl, ?_⟩
    rw [← List.reverse_suffix, List.reverse_reverse]
    exact List.dropWhile_suffix _

theorem dropIdle_ne_nil {ps : List FileName} (h : ps ≠ []) : dropIdle ps ≠ [] := by
  cases ps with
  | nil => exact absurd rfl h
  | cons first rest => simp [dropIdle]

/-- Some of the first pieces of a path lead along the first of its names, from the same start. -/
theorem of_ofPieces {p : DiskPath} {ps : List FileName} (hfirst : ps <+: p.pieces) (hne : ps ≠ []) :
    (ofPieces p.isAbsolute ps).named <+: p.named ∧ (ofPieces p.isAbsolute ps).isAbsolute = p.isAbsolute := by
  rw [ofPieces]
  split
  · next hroot =>
    rw [Bool.and_eq_true] at hroot
    exact ⟨List.nil_prefix, hroot.1.symm⟩
  · next hroot =>
    have hpieces : (⟨Text.join slash ps⟩ : DiskPath).pieces = ps := by
      refine pieces_mk_join hne fun piece hpiece => ?_
      exact no_slash_of_mem_pieces (hfirst.subset hpiece)
    constructor
    · rw [named, hpieces]
      exact hfirst.filter _
    · obtain ⟨more, hmore⟩ := hfirst
      apply Bool.eq_iff_iff.mpr
      rw [isAbsolute_iff, isAbsolute_iff, hpieces]
      constructor
      · intro hsome
        obtain ⟨q, rest, hps⟩ := hsome
        exact ⟨q, rest ++ more, by rw [← hmore, hps]; rfl⟩
      · intro hsome
        obtain ⟨q, rest, hall⟩ := hsome
        -- An empty piece alone would be the root, which has been told apart.
        have habsolute : p.isAbsolute = true := isAbsolute_iff.mpr ⟨q, rest, hall⟩
        rw [habsolute, Bool.true_and, decide_eq_true_eq] at hroot
        match ps, hne, hroot, hmore with
        | [_], _, hroot, _ => exact absurd rfl hroot
        | first :: second :: others, _, _, hmore =>
          rw [hall] at hmore
          cases hmore
          exact ⟨_, _, rfl⟩

/-- A parent leads along the first names of the path, from the same start. -/
theorem of_parent? {p q : DiskPath} (h : p.parent? = some q) :
    q.named <+: p.named ∧ (q.bytes = [] ∨ q.isAbsolute = p.isAbsolute) := by
  unfold parent? at h
  split at h
  · cases h
  · cases h
  · dsimp only at h
    split at h
    · cases h
      exact ⟨List.nil_prefix, Or.inl rfl⟩
    · next hlength =>
      cases h
      -- Three times some of the last pieces are dropped, so what is left are the first ones.
      have hfirst : dropIdle (dropIdle p.pieces).dropLast <+: p.pieces :=
        ((dropIdle_isPrefix _).trans (List.dropLast_prefix _)).trans (dropIdle_isPrefix _)
      have hrest : (dropIdle p.pieces).dropLast ≠ [] := by
        have hpos := List.length_pos_iff.mpr (dropIdle_ne_nil (Text.split_ne_nil slash p.bytes))
        intro hnil
        have hnone := congrArg List.length hnil
        rw [List.length_dropLast, List.length_nil] at hnone
        exact hlength (by simp only [pieces] at *; omega)
      exact (of_ofPieces hfirst (dropIdle_ne_nil hrest)).imp_right Or.inr

end DiskPath

end TypedId
