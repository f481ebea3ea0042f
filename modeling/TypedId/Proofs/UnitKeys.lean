import TypedId.Proofs.FirstOfKey
import TypedId.Proofs.ModuleNames
import TypedId.Proofs.Prediction

/-!
Keys apart from one another. Cut at its slashes, a key is the names of the modules and that of the file, so two
keys are the same exactly if the names that they were made from are, raw marks aside (`unitKey_eq_iff`). A name of
a module holds no point and a file has one in its ending, so no key leads through the file of another key, and a
file that waits to be moved to its place is in the way of no key either (`unit_keys_apart`).
-/
namespace TypedId

open FileName

/-! ## Another ending -/

namespace Text

variable {α : Type}

/-- What is put at the end of a text is put at the end of its last piece. -/
theorem join_concat_append (separator : α) (pieces : List (List α)) (last ending : List α) :
    join separator (pieces ++ [last ++ ending]) = join separator (pieces ++ [last]) ++ ending := by
  induction pieces with
  | nil => rfl
  | cons piece rest ih =>
    rw [List.cons_append, List.cons_append, join_cons separator piece (by simp), join_cons separator piece (by simp),
      ih, List.append_assoc, List.cons_append]

theorem split_append_of_not_mem [DecidableEq α] {separator : α} {s ending : List α} (h : separator ∉ ending)
    {pieces : List (List α)} {last : List α} (hs : split separator s = pieces ++ [last]) :
    split separator (s ++ ending) = pieces ++ [last ++ ending] := by
  have hfree : ∀ piece ∈ pieces ++ [last], separator ∉ piece := by
    intro piece hpiece
    rw [← hs] at hpiece
    exact not_mem_of_mem_split hpiece
  rw [← join_split separator s, hs, ← join_concat_append]
  refine split_join (by simp) fun piece hpiece => ?_
  rcases List.mem_append.mp hpiece with hpiece | hpiece
  · exact hfree piece (List.mem_append_left _ hpiece)
  · rw [List.mem_singleton.mp hpiece, List.mem_append, not_or]
    exact ⟨hfree last (by simp), h⟩

end Text

namespace DiskPath

/-- Another extension of the name that comes last in a path is one of the name that was joined. -/
theorem withExtension_join (base : DiskPath) {n extension : FileName} (hn : n.IsProper)
    (hother : slash ∉ stem n ++ dot :: extension) :
    (base.join ⟨n⟩).withExtension extension = base.join ⟨stem n ++ dot :: extension⟩ := by
  obtain ⟨before, hbefore⟩ := exists_bytes_join base
  obtain ⟨ps, hps, _⟩ := pieces_join base (n := []) (by simp)
  rw [hbefore _ (isAbsolute_mk (by simp)), pieces, List.append_nil] at hps
  -- Whatever name is joined, the pieces before it are the same.
  have hpieces : ∀ m, slash ∉ m → (base.join ⟨m⟩).pieces = ps ++ [m] := by
    intro m hm
    rw [hbefore _ (isAbsolute_mk hm), pieces]
    exact Text.split_append_of_not_mem hm hps
  have hbytes := bytes_eq_join ((base.join ⟨n⟩).withExtension extension)
  rw [pieces_withExtension hn (hpieces n hn.no_slash) hother, ← hpieces _ hother, ← bytes_eq_join] at hbytes
  exact DiskPath.mk.injEq _ _ ▸ hbytes

end DiskPath

/-! ## Names of keys -/

namespace GeneratedUnit

/-- The first key begins with the second one and a slash after it: its path leads through the other. -/
def LeadsThrough (key directory : String) : Prop := (directory ++ "/").toList <+: key.toList

instance (key directory : String) : Decidable (LeadsThrough key directory) :=
  inferInstanceAs (Decidable (_ <+: _))

theorem names_of_leadsThrough {key directory : String} (h : LeadsThrough key directory) :
    ∃ more, more ≠ [] ∧ names key = names directory ++ more := by
  obtain ⟨rest, hrest⟩ := h
  have hkey : key.toList = directory.toList ++ '/' :: rest := by
    rw [← hrest, String.toList_append, List.append_assoc]
    rfl
  refine ⟨(Text.split '/' rest).map fun piece => Text.encode (String.ofList piece), ?_, ?_⟩
  · simpa using Text.split_ne_nil '/' rest
  · rw [names, hkey, Text.split_append, List.map_append, names]

/-- No key leads through the file of a unit: its directories have names without a point. -/
theorem not_leadsThrough {key directory : String} {directories around : List FileName} {own last : FileName}
    (hdirectory : names directory = around ++ [own ++ unitEnding]) (hkey : names key = directories ++ [last])
    (hplain : ∀ n ∈ directories, n.IsPlain) : ¬LeadsThrough key directory := by
  intro h
  obtain ⟨more, hmore, hnames⟩ := names_of_leadsThrough h
  obtain ⟨init, n, rfl⟩ := (List.eq_nil_or_concat more).resolve_left hmore
  rw [hkey, hdirectory, List.concat_eq_append, ← List.append_assoc] at hnames
  have hmem : own ++ unitEnding ∈ directories := by
    rw [(List.append_inj' hnames rfl).1]
    simp
  exact (hplain _ hmem).no_dot (List.mem_append_right own (by decide))

theorem names_append {s ending : String} (h : '/' ∉ ending.toList) {around : List FileName} {last : FileName}
    (hs : names s = around ++ [last]) : names (s ++ ending) = around ++ [last ++ Text.encode ending] := by
  obtain ⟨pieces, piece, hpieces⟩ := (List.eq_nil_or_concat _).resolve_left (Text.split_ne_nil '/' s.toList)
  rw [List.concat_eq_append] at hpieces
  rw [names, hpieces, List.map_append, List.map_singleton] at hs
  obtain ⟨rfl, hlast⟩ := List.append_inj' hs rfl
  rw [names, String.toList_append, Text.split_append_of_not_mem h hpieces, List.map_append, List.map_singleton,
    String.ofList_append, Text.encode_append, String.ofList_toList, List.singleton_inj.mp hlast]

namespace IsPlace

variable {key s : String} {directories : List FileName} {own : FileName}

/-- The names of a key with the ending of a file that is to be moved. -/
theorem names_staging (h : IsPlace key directories own) (hkey : key = s ++ ".rs") :
    names (s ++ ".tmp") = directories ++ [own ++ stagingEnding] := by
  obtain ⟨around, last, hs⟩ := (List.eq_nil_or_concat (names s)).resolve_left (by
    simpa [names] using Text.split_ne_nil '/' s.toList)
  rw [List.concat_eq_append] at hs
  have hnames := h.names_eq
  rw [hkey, names_append (by decide) hs] at hnames
  obtain ⟨rfl, hlast⟩ := List.append_inj' hnames rfl
  have hunit : unitEnding = Text.encode ".g" ++ Text.encode ".rs" := by decide
  rw [List.singleton_inj, hunit, ← List.append_assoc] at hlast
  rw [names_append (by decide) hs, List.append_cancel_right hlast, List.append_assoc]
  rfl

/-- The file that waits to be moved to the place of a key lies at the place of the key with the other ending. -/
theorem withExtension_pathIn (h : IsPlace key directories own) (hkey : key = s ++ ".rs") (base : DiskPath) :
    (pathIn key base).withExtension Disk.stagedExtension = pathIn (s ++ ".tmp") base := by
  have hother : slash ∉ stem (own ++ unitEnding) ++ dot :: Disk.stagedExtension := by
    rw [staged_unit]
    exact (isProper_staging h.own_plain).no_slash
  rw [pathIn_eq_descend, h.names_eq, DiskPath.descend_append,
    DiskPath.withExtension_join _ (isProper_unit h.own_plain) hother, staged_unit, ← DiskPath.descend_append,
    ← h.names_staging hkey, pathIn_eq_descend]

end IsPlace

end GeneratedUnit

/-! ## Keys of types -/

namespace QualifiedType

/-- Neither the name of the type nor that of a module on the way to it holds a slash. -/
def NoSlash (t : QualifiedType) : Prop :=
  '/' ∉ t.typeName.toList ∧ ∀ s ∈ t.modulePath.segments, '/' ∉ s.toList

/-- Keys are the same exactly if the names are that they were made from, raw marks aside. -/
theorem unitKey_eq_iff {t t' : QualifiedType} (h : t.NoSlash) (h' : t'.NoSlash) :
    t.unitKey = t'.unitKey ↔
      unraw t.typeName = unraw t'.typeName ∧ t.modulePath.segments.map unraw = t'.modulePath.segments.map unraw := by
  constructor
  · intro hkey
    have hnames := congrArg GeneratedUnit.names hkey
    rw [names_unitKey h.2 h.1, names_unitKey h'.2 h'.1] at hnames
    obtain ⟨hmodules, hname⟩ := List.append_inj' hnames rfl
    rw [List.singleton_inj] at hname
    have hmap : (t.modulePath.segments.map unraw).map Text.encode =
        (t'.modulePath.segments.map unraw).map Text.encode := by
      rw [List.map_map, List.map_map]
      exact hmodules
    exact ⟨Text.encode_inj (List.append_cancel_right hname),
      (List.map_inj_right fun _ _ => Text.encode_inj).mp hmap⟩
  · rintro ⟨hname, hmodules⟩
    rw [unitKey, unitKey, hname, hmodules]

theorem exists_unitKey_eq_append (t : QualifiedType) : ∃ s : String, t.unitKey = s ++ ".rs" := by
  refine ⟨String.ofList (Text.join '/' ((t.modulePath.segments.map fun s => (unraw s).toList) ++
    [(unraw t.typeName ++ ".g").toList])), String.toList_inj.mp ?_⟩
  rw [toList_unitKey, String.toList_append, String.toList_ofList, ← Text.join_concat_append, ← String.toList_append,
    String.append_assoc]
  simp [keyPieces, Function.comp_def]

/-- The key of a type that can be named leads through directories with plain names to a file. -/
theorem isPlace_unitKey {policy : MarkerPolicy} {c : Candidate} {t : QualifiedType}
    (ht : (c.qualify policy).result = .ok (some t)) (h : t.NoSlash) :
    GeneratedUnit.IsPlace t.unitKey (t.modulePath.segments.map fun s => Text.encode (unraw s))
      (Text.encode (unraw t.typeName)) := by
  rw [Candidate.result_qualify_eq, Except.ok.injEq] at ht
  obtain ⟨_, hresolve, _⟩ := Candidate.qualified?_eq_some.mp ht
  obtain ⟨rfl, _, hname, hmodules⟩ := Candidate.resolve?_eq_some.mp hresolve
  refine ⟨names_unitKey h.2 h.1, ?_, isPlain_encode (isPlain_unraw_of_isIdentifier h.1 hname)⟩
  intro n hn
  obtain ⟨s, hs, rfl⟩ := List.mem_map.mp hn
  exact isPlain_encode (isPlain_unraw_of_isIdentifier (h.2 s hs) (hmodules s hs))

end QualifiedType

/-- The types of scanned candidates have names without a slash. -/
theorem Disk.noSlash_of_mem_scan {d : Disk} (htree : d.IsTree) {inputs : Inputs} {candidates : List Candidate}
    (h : (d.scan inputs).result = .ok candidates) {c : Candidate} (hc : c ∈ candidates) {policy : MarkerPolicy}
    {t : QualifiedType} (ht : (c.qualify policy).result = .ok (some t)) : t.NoSlash := by
  have hmodules := no_slash_of_mem_scan htree h c hc
  obtain ⟨sources, _, hscan⟩ := Outcome.result_bind_eq_ok.mp h
  rw [result_scanAll, Except.ok.injEq] at hscan
  subst hscan
  obtain ⟨source, _, hfound⟩ := List.mem_flatMap.mp hc
  obtain ⟨site, rfl⟩ := SourceText.mem_candidates hfound
  rw [Candidate.result_qualify_eq, Except.ok.injEq] at ht
  obtain ⟨_, hresolve, _⟩ := Candidate.qualified?_eq_some.mp ht
  obtain ⟨rfl, _⟩ := Candidate.resolve?_eq_some.mp hresolve
  exact ⟨(Word.ident site.declaration.name).not_mem_spelling (by decide), hmodules⟩

/-- **Keys are apart from one another.** Two types that qualify, with names that hold no slash, have the same key
exactly if their names and those of their modules are the same, raw marks aside. No key leads through the file of
another one. A unit waits to be moved at the place of its key with another ending, and no key is that place or on the
way to it. The types of the candidates that are scanned on a disk all have names without a slash. -/
theorem unit_keys_apart {policy policy' : MarkerPolicy} {c c' : Candidate} {t t' : QualifiedType}
    (ht : (c.qualify policy).result = .ok (some t)) (ht' : (c'.qualify policy').result = .ok (some t'))
    (h : t.NoSlash) (h' : t'.NoSlash) :
    (t.unitKey = t'.unitKey ↔
      unraw t.typeName = unraw t'.typeName ∧
        t.modulePath.segments.map unraw = t'.modulePath.segments.map unraw) ∧
    ¬GeneratedUnit.LeadsThrough t'.unitKey t.unitKey ∧
    (∃ s : String, t'.unitKey = s ++ ".rs" ∧ t.unitKey ≠ s ++ ".tmp" ∧
      ¬GeneratedUnit.LeadsThrough (s ++ ".tmp") t.unitKey ∧
      ∀ base, (GeneratedUnit.pathIn t'.unitKey base).withExtension Disk.stagedExtension =
        GeneratedUnit.pathIn (s ++ ".tmp") base) ∧
    ∀ (d : Disk) (inputs : Inputs) candidates, d.IsTree → (d.scan inputs).result = .ok candidates →
      ∀ found ∈ candidates, ∀ policy type, (found.qualify policy).result = .ok (some type) → type.NoSlash := by
  have hplace := QualifiedType.isPlace_unitKey ht h
  have hplace' := QualifiedType.isPlace_unitKey ht' h'
  obtain ⟨s, hs⟩ := t'.exists_unitKey_eq_append
  have hstaging := hplace'.names_staging hs
  refine ⟨QualifiedType.unitKey_eq_iff h h',
    GeneratedUnit.not_leadsThrough hplace.names_eq hplace'.names_eq hplace'.plain, ⟨s, hs, ?_, ?_, ?_⟩, ?_⟩
  · intro heq
    rw [← heq, hplace.names_eq] at hstaging
    exact staging_ne_unit _ _ (List.singleton_inj.mp (List.append_inj' hstaging rfl).2).symm
  · exact GeneratedUnit.not_leadsThrough hplace.names_eq hstaging hplace'.plain
  · exact hplace'.withExtension_pathIn hs
  · intro d inputs candidates htree hscan found hfound policy type htype
    exact Disk.noSlash_of_mem_scan htree hscan hfound htype

/-- Two spellings of one type have one key. -/
theorem unit_keys_apart_shop :
    ((markedNamed ["shop", "r#type"] "r#Id").qualify .permissive).result =
        .ok (some ⟨⟨["shop", "r#type"]⟩, "r#Id"⟩) ∧
      ((markedNamed ["r#shop", "r#type"] "Id").qualify .permissive).result =
        .ok (some ⟨⟨["r#shop", "r#type"]⟩, "Id"⟩) ∧
      QualifiedType.unitKey ⟨⟨["shop", "r#type"]⟩, "r#Id"⟩ = QualifiedType.unitKey ⟨⟨["r#shop", "r#type"]⟩, "Id"⟩ ∧
      ¬GeneratedUnit.LeadsThrough (QualifiedType.unitKey ⟨⟨["r#shop", "r#type"]⟩, "Id"⟩)
        (QualifiedType.unitKey ⟨⟨["shop", "r#type"]⟩, "r#Id"⟩) ∧
      QualifiedType.unitKey ⟨⟨["shop", "r#type"]⟩, "r#Id"⟩ ≠ "shop/type/Id.g" ++ ".tmp" := by
  have hraw : ((markedNamed ["shop", "r#type"] "r#Id").qualify .permissive).result =
      .ok (some ⟨⟨["shop", "r#type"]⟩, "r#Id"⟩) := Except.eq_ok_of_toOption (by decide +kernel)
  have hplain : ((markedNamed ["r#shop", "r#type"] "Id").qualify .permissive).result =
      .ok (some ⟨⟨["r#shop", "r#type"]⟩, "Id"⟩) := Except.eq_ok_of_toOption (by decide +kernel)
  have hkey : QualifiedType.unitKey ⟨⟨["r#shop", "r#type"]⟩, "Id"⟩ = "shop/type/Id.g" ++ ".rs" := by decide +kernel
  obtain ⟨hsame, hthrough, ⟨s, hs, hstaging, _⟩, _⟩ :=
    unit_keys_apart hraw hplain (by unfold QualifiedType.NoSlash; decide) (by unfold QualifiedType.NoSlash; decide)
  rw [hkey, String.append_left_inj] at hs
  rw [← hs] at hstaging
  exact ⟨hraw, hplain, hsame.mpr (by decide), hthrough, hstaging⟩

end TypedId
