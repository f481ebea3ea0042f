import TypedId.Proofs.WrittenUnits

/-!
Units stay below the output directory. A key leads below any directory if no name of a module on the way to
its type holds a slash, and in no other case (`units_contained_iff`): a text reads as an identifier also
with a comment around it, and a comment may hold slashes and points. Writing units whose keys lead below
a directory changes no file outside of it, whether the run succeeds or not
(`Disk.confined_writeUnits`).
-/
namespace TypedId

open FileName

/-! ## Pieces of a key -/

namespace Text

variable {α : Type} [DecidableEq α]

theorem length_split (separator : α) (s : List α) : (split separator s).length = s.count separator + 1 := by
  induction s with
  | nil => rfl
  | cons a rest ih =>
    by_cases h : a = separator
    · rw [split, if_pos h, List.length_cons, ih, h, List.count_cons_self]
    · obtain ⟨piece, more, hs⟩ := List.exists_cons_of_ne_nil (split_ne_nil separator rest)
      rw [hs, List.length_cons] at ih
      rw [split_cons_of_ne h hs, List.length_cons, ih, List.count_cons_of_ne h]

theorem count_join (separator : α) {pieces : List (List α)} (hne : pieces ≠ []) :
    (join separator pieces).count separator + 1 = pieces.length + pieces.flatten.count separator := by
  induction pieces with
  | nil => exact absurd rfl hne
  | cons piece rest ih =>
    cases rest with
    | nil => simp [join, Nat.add_comm]
    | cons next others =>
      have hrest := ih (List.cons_ne_nil next others)
      rw [join_cons separator piece (List.cons_ne_nil next others), List.count_append, List.count_cons_self,
        hrest]
      have hcons : (piece :: next :: others).flatten = piece ++ (next :: others).flatten := rfl
      have hlength : (piece :: next :: others).length = (next :: others).length + 1 := rfl
      rw [hcons, hlength, List.count_append]
      omega

end Text

namespace GeneratedUnit

/-- Cut at its slashes, the key has one piece for each module and one for the type, and every piece is a
name of its own: none is empty, a point or two points. -/
structure KeyContained (u : GeneratedUnit) : Prop where
  length : (Text.split '/' u.key.toList).length = u.modulePath.segments.length + 1
  ne_nil : ∀ piece ∈ Text.split '/' u.key.toList, piece ≠ []
  ne_here : ∀ piece ∈ Text.split '/' u.key.toList, piece ≠ ['.']
  ne_up : ∀ piece ∈ Text.split '/' u.key.toList, piece ≠ ['.', '.']

instance (u : GeneratedUnit) : Decidable u.KeyContained :=
  decidable_of_iff
    ((Text.split '/' u.key.toList).length = u.modulePath.segments.length + 1 ∧
      ∀ piece ∈ Text.split '/' u.key.toList, piece ≠ [] ∧ piece ≠ ['.'] ∧ piece ≠ ['.', '.'])
    ⟨fun h => ⟨h.1, fun p hp => (h.2 p hp).1, fun p hp => (h.2 p hp).2.1, fun p hp => (h.2 p hp).2.2⟩,
      fun h => ⟨h.length, fun p hp => ⟨h.ne_nil p hp, h.ne_here p hp, h.ne_up p hp⟩⟩⟩

/-- A key whose pieces are names leads below every directory. -/
theorem KeyContained.components {u : GeneratedUnit} (h : u.KeyContained) (directory : DiskPath) :
    (pathIn u.key directory).components = directory.components ++ (names u.key).map .name := by
  have hproper : ∀ n ∈ names u.key, n.IsProper := by
    intro n hn
    obtain ⟨piece, hpiece, rfl⟩ := List.mem_map.mp hn
    have hinj : ∀ s : String, Text.encode (String.ofList piece) = Text.encode s → piece = s.toList := by
      intro s hs
      rw [← Text.encode_inj hs, String.toList_ofList]
    constructor
    · exact fun heq => h.ne_nil piece hpiece (hinj "" heq)
    · intro hslash
      have hmem := Text.mem_of_mem_encode (c := '/') (by decide) hslash
      rw [String.toList_ofList] at hmem
      exact Text.not_mem_of_mem_split hpiece hmem
    · exact fun heq => h.ne_here piece hpiece (hinj "." heq)
    · exact fun heq => h.ne_up piece hpiece (hinj ".." heq)
  rw [pathIn_eq_descend, DiskPath.components_descend directory hproper]

theorem keyContained_of_isPlain {t : QualifiedType} {content : String}
    (hmodules : ∀ s ∈ t.modulePath.segments, '/' ∉ s.toList ∧ TypedId.IsPlain (unraw s))
    (hname : '/' ∉ t.typeName.toList) :
    KeyContained ⟨t.unitKey, t.modulePath, t.typeName, content⟩ := by
  have hsplit := QualifiedType.split_unitKey (fun s hs => (hmodules s hs).1) hname
  have hpiece : ∀ piece ∈ Text.split '/' t.unitKey.toList, piece ≠ [] ∧ piece ≠ ['.'] ∧ piece ≠ ['.', '.'] := by
    intro piece hp
    rw [hsplit] at hp
    rcases QualifiedType.mem_keyPieces.mp hp with ⟨s, hs, rfl⟩ | rfl
    · obtain ⟨_, hempty, hpoint, _⟩ := hmodules s hs
      refine ⟨fun heq => hempty (String.toList_eq_nil_iff.mp heq), fun heq => ?_, fun heq => ?_⟩
      · exact hpoint (heq ▸ List.mem_cons_self)
      · exact hpoint (heq ▸ List.mem_cons_self)
    · -- The ending alone is longer than two points.
      have hlength : 4 < (unraw t.typeName ++ ".g.rs").toList.length := by
        rw [String.toList_append, List.length_append]
        exact Nat.lt_add_left _ (by decide)
      refine ⟨fun heq => ?_, fun heq => ?_, fun heq => ?_⟩ <;> simp [heq] at hlength
  refine ⟨?_, fun p hp => (hpiece p hp).1, fun p hp => (hpiece p hp).2.1, fun p hp => (hpiece p hp).2.2⟩
  simp [hsplit, QualifiedType.keyPieces]

/-- A slash in a name of a module makes one piece of the key too many. -/
theorem KeyContained.no_slash {t : QualifiedType} {content : String}
    (h : KeyContained ⟨t.unitKey, t.modulePath, t.typeName, content⟩) :
    ∀ s ∈ t.modulePath.segments, '/' ∉ s.toList := by
  have hlength := h.length
  rw [Text.length_split, QualifiedType.toList_unitKey,
    Text.count_join '/' (by simp [QualifiedType.keyPieces])] at hlength
  have hpieces : t.keyPieces.length = t.modulePath.segments.length + 1 := by simp [QualifiedType.keyPieces]
  have hnone : t.keyPieces.flatten.count '/' = 0 := by
    rw [hpieces] at hlength
    exact Nat.add_left_cancel hlength
  intro s hs
  have hmem : (unraw s).toList ∈ t.keyPieces := QualifiedType.mem_keyPieces.mpr (Or.inl ⟨s, hs, rfl⟩)
  rw [← List.count_eq_zero, ← count_unraw (by decide) s, List.count_eq_zero]
  exact fun hslash => List.count_eq_zero.mp hnone (List.mem_flatten.mpr ⟨_, hmem, hslash⟩)

theorem keyContained_iff_of_mem_generate {policy : MarkerPolicy} {candidates : List Candidate}
    {units : List GeneratedUnit} (h : (generate policy candidates).result = .ok units) {u : GeneratedUnit}
    (hu : u ∈ units) : u.KeyContained ↔ ∀ s ∈ u.modulePath.segments, '/' ∉ s.toList := by
  obtain ⟨c, _, t, ⟨_, hresolve, _⟩, hrender⟩ := mem_generate h hu
  obtain ⟨n, hn, rfl⟩ := render_eq_ok.mp hrender
  obtain ⟨rfl, _, _, hmodules⟩ := Candidate.resolve?_eq_some.mp hresolve
  have hspelling : n.spelling = c.name := Ident.spelling_of_ofSpelling? hn
  have hname : '/' ∉ c.name.toList := by
    rw [← hspelling]
    exact (Word.ident n).not_mem_spelling (by decide)
  constructor
  · exact KeyContained.no_slash
  · intro hslash
    exact keyContained_of_isPlain
      (fun s hs => ⟨hslash s hs, isPlain_unraw_of_isIdentifier (hslash s hs) (hmodules s hs)⟩) hname

end GeneratedUnit

/-! ## Writing below a directory -/

namespace Disk

/-- What a run leaves on a disk, whether it succeeds or not: a place where something else stands than before is
one of the places `files`, or it was free and there is a directory now, at one of the places
`directories`. -/
structure Confined (directories files : Location → Prop) (d after : Disk) : Prop where
  tree : after.IsTree
  linkless : after.Linkless
  workplace : after.workplace = d.workplace
  outside : ∀ l, ¬files l → after.entry? l = d.entry? l ∨
    d.entry? l = none ∧ after.entry? l = some .directory ∧ directories l

namespace Confined

variable {directories directories' files files' : Location → Prop} {d d₁ after : Disk}

theorem refl (directories files : Location → Prop) (htree : d.IsTree) (hlinks : d.Linkless) :
    Confined directories files d d :=
  ⟨htree, hlinks, rfl, fun _ _ => Or.inl rfl⟩

theorem trans (h : Confined directories files d d₁) (h' : Confined directories files d₁ after) :
    Confined directories files d after where
  tree := h'.tree
  linkless := h'.linkless
  workplace := h'.workplace.trans h.workplace
  outside l hl := by
    rcases h'.outside l hl with heq | ⟨hnone, hdir, hplace⟩
    · rw [heq]
      exact h.outside l hl
    · rcases h.outside l hl with heq | ⟨_, hdir', _⟩
      · exact Or.inr ⟨heq ▸ hnone, hdir, hplace⟩
      · rw [hnone] at hdir'
        cases hdir'

theorem mono (h : Confined directories files d after)
    (hdirectories : ∀ l, directories l → ¬files' l → directories' l) (hfiles : ∀ l, files l → files' l) :
    Confined directories' files' d after where
  tree := h.tree
  linkless := h.linkless
  workplace := h.workplace
  outside l hl := (h.outside l fun hin => hl (hfiles l hin)).imp_right fun hnew =>
    ⟨hnew.1, hnew.2.1, hdirectories l hnew.2.2 hl⟩

theorem of_grew (htree : d₁.IsTree) (hlinks : d.Linkless) (h : Grew directories d d₁)
    (files : Location → Prop) : Confined directories files d d₁ where
  tree := htree
  linkless := h.linkless hlinks
  workplace := h.workplace
  outside l _ := by
    cases he : d.entry? l with
    | some e => exact Or.inl (h.kept l e he)
    | none =>
      rcases h.fresh l he with hnone | ⟨hdir, hplace⟩
      · exact Or.inl hnone
      · exact Or.inr ⟨rfl, hdir, hplace⟩

theorem of_stored {here : Location} {ds : List FileName} {m n : FileName} {content : List UInt8}
    (h : Stored d after here ds m n content) :
    Confined (fun l => ∃ ns, ns <+: ds ∧ l = walkTo here ns)
      (fun l => l = walkTo here ds ++ [n] ∨ l = walkTo here ds ++ [m]) d after where
  tree := h.tree
  linkless := h.linkless
  workplace := h.workplace
  outside l hl := by
    rw [not_or] at hl
    cases he : d.entry? l with
    | some e => exact Or.inl (h.kept l e he hl.1 hl.2)
    | none => exact (h.fresh l he hl.1).imp_right fun hnew => ⟨rfl, hnew⟩

theorem of_set (htree : d.IsTree) (hlinks : d.Linkless) {l : Location} {m : FileName} (hm : slash ∉ m)
    (hdir : d.isDirectoryAt l = true) (hfree : d.isDirectoryAt (l ++ [m]) = false) (content : List UInt8) :
    Confined (fun _ => False) (fun l' => l' = l ++ [m]) d (d.set (l ++ [m]) (.file content)) where
  tree := htree.set hm hdir fun h => by rw [hfree] at h; cases h
  linkless := hlinks.set (by simp) fun target => by simp
  workplace := rfl
  outside l' hl' := by
    left
    rw [entry?_set d (by simp), if_neg hl']

end Confined

section Replace

variable {d after : Disk} {p : DiskPath} {ds : List FileName} {m n : FileName} {content : List UInt8}

/-- Where a text could not be moved to its place, it may be left where it was written first. -/
theorem confined_of_stage_error (htree : d.IsTree) (hlinks : d.Linkless)
    (hstaged : LeadsTo (p.withExtension stagedExtension) ds m)
    (hkind : (p.withExtension stagedExtension).isAbsolute = p.isAbsolute) {e : Failure}
    (h : d.stage p content = (after, .error e)) :
    Confined (fun _ => False) (fun l => l = walkTo (start d.workplace p) ds ++ [m]) d after := by
  have hstart : start d.workplace (p.withExtension stagedExtension) = start d.workplace p := by
    rw [start, start, hkind]
  have hm : slash ∉ m := DiskPath.no_slash_of_mem_named (by rw [hstaged.named]; simp)
  unfold stage at h
  cases hwrite : d.write (p.withExtension stagedExtension) content with
  | error cause =>
    simp only [hwrite] at h
    cases h
    exact Confined.refl _ _ htree hlinks
  | ok d₁ =>
    simp only [hwrite] at h
    obtain ⟨_, _, hdir, hfree, rfl⟩ := write_spec hlinks hstaged hwrite
    rw [hstart] at hdir hfree h
    split at h
    · cases h
      exact Confined.of_set htree hlinks hm hdir hfree content
    · cases h

/-- Putting a text at a path changes two places and makes directories along the path, whatever comes of it. -/
theorem confined_replace (htree : d.IsTree) (hlinks : d.Linkless) (hp : LeadsTo p ds n)
    (hstaged : LeadsTo (p.withExtension stagedExtension) ds m)
    (hkind : (p.withExtension stagedExtension).isAbsolute = p.isAbsolute) (hne : m ≠ n)
    (hhere : n ≠ herePiece) (hup : n ≠ upPiece) {r : Except Failure Unit}
    (h : d.replace p content = (after, r)) :
    Confined (fun l => ∃ ns, ns <+: p.named ∧ l = walkTo (start d.workplace p) ns)
      (fun l => l = walkTo (start d.workplace p) ds ++ [n] ∨ l = walkTo (start d.workplace p) ds ++ [m])
      d after := by
  cases r with
  | ok u =>
    obtain ⟨_, _, hstored⟩ := replace_spec htree hlinks hp hstaged hkind hne hhere hup h
    refine (Confined.of_stored hstored).mono (fun l hnew _ => ?_) fun _ hl => hl
    obtain ⟨ns, hns, rfl⟩ := hnew
    exact ⟨ns, hns.trans (hp.named ▸ List.prefix_append ds [n]), rfl⟩
  | error e =>
    unfold replace at h
    cases hdirectory : directoryOf? p with
    | none =>
      rw [hdirectory] at h
      exact (confined_of_stage_error htree hlinks hstaged hkind h).mono (fun _ hnone _ => hnone.elim)
        fun _ hl => Or.inr hl
    | some directory =>
      rw [hdirectory] at h
      obtain ⟨_, hfirst, hsame⟩ := of_directoryOf? hdirectory
      cases hmake : d.makeDirectories directory with
      | mk d₁ made =>
        simp only [hmake] at h
        obtain ⟨htree₁, hgrew⟩ := makeDirectories_spec htree hlinks hmake
        have hway : Confined (fun l => ∃ ns, ns <+: p.named ∧ l = walkTo (start d.workplace p) ns)
            (fun l => l = walkTo (start d.workplace p) ds ++ [n] ∨
              l = walkTo (start d.workplace p) ds ++ [m]) d d₁ := by
          refine (Confined.of_grew htree₁ hlinks hgrew _).mono (fun l hnew _ => ?_) fun _ hl => hl
          obtain ⟨ns, hns, rfl⟩ := hnew
          exact ⟨ns, hns.trans hfirst, by rw [start, start, hsame]⟩
        cases made with
        | error cause =>
          cases h
          exact hway
        | ok v =>
          have hstage := confined_of_stage_error htree₁ hway.linkless hstaged hkind h
          rw [hgrew.workplace] at hstage
          exact hway.trans (hstage.mono (fun _ hnone _ => hnone.elim) fun _ hl => Or.inr hl)

end Replace

/-- The place is below the one that a directory's path leads to. -/
def Below (d : Disk) (directory : DiskPath) (l : Location) : Prop :=
  ∃ n rest, l = d.placeOf directory ++ n :: rest

/-- The place is on the way along a directory's path, or at its end. -/
def OnTheWay (d : Disk) (directory : DiskPath) (l : Location) : Prop :=
  ∃ ns, ns <+: directory.named ∧ l = walkTo (start d.workplace directory) ns

open GeneratedUnit

/-- The directories that are made for a unit are on the way to the output directory or below it. -/
theorem below_or_onTheWay {key : String} {directories : List FileName} {own : FileName}
    (hplace : IsPlace key directories own) (d : Disk) (base : DiskPath) {ns : List FileName}
    (hns : ns <+: (pathIn key base).named) :
    d.Below base (walkTo (start d.workplace (pathIn key base)) ns) ∨
      d.OnTheWay base (walkTo (start d.workplace (pathIn key base)) ns) := by
  have hstart : start d.workplace (pathIn key base) = start d.workplace base := by
    rw [start, start, hplace.isAbsolute_pathIn]
  rw [hplace.named, List.append_assoc] at hns
  rw [hstart]
  rcases List.prefix_or_prefix_of_prefix hns (List.prefix_append base.named _) with hfirst | ⟨more, rfl⟩
  · exact Or.inr ⟨ns, hfirst, rfl⟩
  · cases more with
    | nil => exact Or.inr ⟨base.named, List.prefix_refl _, by rw [List.append_nil]⟩
    | cons n rest =>
      have hmore := (List.prefix_append_right_inj base.named).mp hns
      have hproper : ∀ m ∈ n :: rest, m.IsProper :=
        fun m hm => hplace.isProper m (hplace.names_eq ▸ hmore.subset hm)
      exact Or.inl ⟨n, rest, by rw [walkTo_append, walkTo_of_isProper hproper]; rfl⟩

/-- Writing units whose keys lead below a directory changes no file outside of it, whatever comes of it. -/
theorem confined_writeUnits {d : Disk} (htree : d.IsTree) (hlinks : d.Linkless) {base : DiskPath}
    {units : List GeneratedUnit} (hplaces : ∀ u ∈ units, ∃ directories own, IsPlace u.key directories own) :
    Confined (d.OnTheWay base) (d.Below base) d (d.writeUnits base units).disk := by
  induction units generalizing d with
  | nil => exact Confined.refl _ _ htree hlinks
  | cons u rest ih =>
    obtain ⟨directories, own, hplace⟩ := hplaces u List.mem_cons_self
    have hproper := isProper_unit hplace.own_plain
    unfold writeUnits
    dsimp only
    cases hreplace : d.replace (pathIn u.key base) (Text.encode u.content) with
    | mk d₁ r =>
      have hto := hplace.walkTo_directories d base
      have hfirst : Confined (d.OnTheWay base) (d.Below base) d d₁ := by
        refine (confined_replace htree hlinks (hplace.leadsTo base) (hplace.leadsTo_staged base)
          (hplace.isAbsolute_staged base) (staging_ne_unit own own) hproper.ne_here hproper.ne_up
          hreplace).mono ?_ ?_
        · intro l hnew hnot
          obtain ⟨ns, hns, rfl⟩ := hnew
          exact (below_or_onTheWay hplace d base hns).resolve_left hnot
        · intro l hl
          rw [hto, List.append_assoc, List.append_assoc] at hl
          have hbelow : ∀ n, d.Below base (d.placeOf base ++ (directories ++ [n])) := by
            intro n
            obtain ⟨first, more, hcons⟩ := List.exists_cons_of_ne_nil (l := directories ++ [n]) (by simp)
            exact ⟨first, more, by rw [hcons]⟩
          rcases hl with rfl | rfl
          · exact hbelow _
          · exact hbelow _
      cases r with
      | error e => exact hfirst
      | ok v =>
        have hrest := ih hfirst.tree hfirst.linkless fun w hw => hplaces w (List.mem_cons_of_mem u hw)
        unfold Below OnTheWay at hrest hfirst ⊢
        rw [placeOf_congr hfirst.workplace, hfirst.workplace] at hrest
        exact hfirst.trans hrest

end Disk

/-! ## Units of any candidates -/

namespace GeneratedUnit

/-- A unit whose key leads below every directory has a place there. -/
theorem KeyContained.isPlace {policy : MarkerPolicy} {candidates : List Candidate} {units : List GeneratedUnit}
    (h : (generate policy candidates).result = .ok units) {u : GeneratedUnit} (hu : u ∈ units)
    (hcontained : u.KeyContained) : ∃ directories own, IsPlace u.key directories own := by
  have hslash := (keyContained_iff_of_mem_generate h hu).mp hcontained
  obtain ⟨c, _, t, ⟨_, hresolve, _⟩, hrender⟩ := mem_generate h hu
  obtain ⟨rfl, _, _, hmodules⟩ := Candidate.resolve?_eq_some.mp hresolve
  refine isPlace_of_render (fun s hs => ⟨hmodules s hs, hslash s ?_⟩) hrender
  obtain ⟨n, _, rfl⟩ := render_eq_ok.mp hrender
  exact hs

end GeneratedUnit

/-- **Units stay below the output directory exactly if no name of a module holds a slash.** Whatever the
candidates are, the key of a unit has one name for each module and one for the type in this case, and in no
other. If it has, the path of the unit is that of the directory with these names after it; and if all
keys have, writing the units changes no file outside of the directory, whatever comes of it. -/
theorem units_contained_iff {policy : MarkerPolicy} {candidates : List Candidate} {units : List GeneratedUnit}
    (h : (generate policy candidates).result = .ok units) :
    (∀ u ∈ units, u.KeyContained ↔ ∀ s ∈ u.modulePath.segments, '/' ∉ s.toList) ∧
    (∀ u ∈ units, u.KeyContained → ∀ directory, ∃ ns : List FileName,
      ns.length = u.modulePath.segments.length + 1 ∧
      (GeneratedUnit.pathIn u.key directory).components = directory.components ++ ns.map .name) ∧
    ∀ (d : Disk) (directory : DiskPath), d.IsTree → d.Linkless → (∀ u ∈ units, u.KeyContained) →
      Disk.Confined (d.OnTheWay directory) (d.Below directory) d (d.writeUnits directory units).disk := by
  refine ⟨fun u hu => GeneratedUnit.keyContained_iff_of_mem_generate h hu, ?_, ?_⟩
  · intro u hu hcontained directory
    refine ⟨GeneratedUnit.names u.key, ?_, hcontained.components directory⟩
    rw [GeneratedUnit.names, List.length_map, hcontained.length]
  · intro d directory htree hlinks hcontained
    exact Disk.confined_writeUnits htree hlinks fun u hu => (hcontained u hu).isPlace h hu

/-- A declaration with the marker, in the module that these names lead to. -/
def markedIn (segments : List String) : Candidate where
  name := "OrderId"
  modulePath := ⟨segments⟩
  isExtensible := true
  isGeneric := false
  attributes := [⟨"identifier", "identifier"⟩]
  source := DiskPath.ofString "src/lib.rs"

theorem units_contained_iff_shop :
    ∃ units, (generate .permissive [markedIn ["shop", "r#type"]]).result = .ok units ∧
      units.map GeneratedUnit.key = ["shop/type/OrderId.g.rs"] ∧
      (∀ u ∈ units, u.KeyContained ∧ ∀ s ∈ u.modulePath.segments, '/' ∉ s.toList) ∧
      Disk.Confined (oneSource.OnTheWay (DiskPath.ofString "out")) (oneSource.Below (DiskPath.ofString "out"))
        oneSource (oneSource.writeUnits (DiskPath.ofString "out") units).disk := by
  have hrun : (generate .permissive [markedIn ["shop", "r#type"]]).result.toOption.any (fun units =>
      units.map GeneratedUnit.key == ["shop/type/OrderId.g.rs"] &&
        units.all fun u => decide u.KeyContained) = true := by decide +kernel
  obtain ⟨units, hunits, hkeys⟩ := (Option.any_eq_true _ _).mp hrun
  rw [Bool.and_eq_true, List.all_eq_true] at hkeys
  have hok := Except.eq_ok_of_toOption hunits
  have hcontained : ∀ u ∈ units, u.KeyContained := fun u hu => of_decide_eq_true (hkeys.2 u hu)
  obtain ⟨hiff, _, hconfined⟩ := units_contained_iff hok
  refine ⟨units, hok, beq_iff_eq.mp hkeys.1, fun u hu => ⟨hcontained u hu, (hiff u hu).mp (hcontained u hu)⟩, ?_⟩
  exact hconfined oneSource (DiskPath.ofString "out") (Disk.isTree_of_entries (by decide) (by decide))
    (Disk.linkless_of_entries (by simp [oneSource])) hcontained

/-- A comment beside the name of a module may lead out of the output directory, and the file of the unit is
then written there. -/
theorem comment_escapes :
    ∃ units, (generate .permissive [markedIn ["a/*/../../../x*/"]]).result = .ok units ∧
      (∃ u ∈ units, ¬u.KeyContained ∧ ['.', '.'] ∈ Text.split '/' u.key.toList) ∧
      ∃ content, (oneSource.writeUnits (DiskPath.ofString "out") units).disk.entry?
        (["w", "x*", "OrderId.g.rs"].map Text.encode) = some (.file content) := by
  have hrun : (generate .permissive [markedIn ["a/*/../../../x*/"]]).result.toOption.any (fun units =>
      units.any (fun u => !decide u.KeyContained && decide (['.', '.'] ∈ Text.split '/' u.key.toList)) &&
        (oneSource.writeUnits (DiskPath.ofString "out") units).disk.isFileAt
          (["w", "x*", "OrderId.g.rs"].map Text.encode)) = true := by
    decide +kernel
  obtain ⟨units, hunits, hwritten⟩ := (Option.any_eq_true _ _).mp hrun
  rw [Bool.and_eq_true, List.any_eq_true] at hwritten
  obtain ⟨⟨u, hu, hkey⟩, hfile⟩ := hwritten
  rw [Bool.and_eq_true, Bool.not_eq_true', decide_eq_false_iff_not, decide_eq_true_eq] at hkey
  exact ⟨units, Except.eq_ok_of_toOption hunits, ⟨u, hu, hkey⟩, Disk.isFileAt_iff.mp hfile⟩

end TypedId
