import TypedId.Proofs.ModuleNames
import TypedId.Proofs.UnitPaths

/-!
What a run that writes units leaves on the disk. Every unit has a place of its own and a second one where
its text is written first, and no place is the place of anything else in the run; so what one step has
stored, no later step changes (`writeUnits_spec`).
-/
namespace TypedId

open FileName

namespace Disk

/-! ## Places -/

/-- The place that a path leads to where no link is on the way. -/
def placeOf (d : Disk) (p : DiskPath) : Location := walkTo (start d.workplace p) p.named

/-- The path where a text for this path is written before it is moved there. -/
def stagedPath (p : DiskPath) : DiskPath := p.withExtension stagedExtension

theorem walkTo_of_isProper {here : Location} {ns : List FileName} (h : ∀ n ∈ ns, n.IsProper) :
    walkTo here ns = here ++ ns := by
  induction ns generalizing here with
  | nil => simp [walkTo]
  | cons n rest ih =>
    have hn := h n List.mem_cons_self
    rw [walkTo, if_neg (show n ≠ herePiece from hn.ne_here), if_neg (show n ≠ upPiece from hn.ne_up),
      ih fun m hm => h m (List.mem_cons_of_mem n hm)]
    simp

/-- Something stands wherever a walk comes by. -/
theorem CanWalk.found {d : Disk} (htree : d.IsTree) {here : Location} (hhere : d.isDirectoryAt here = true)
    {todo : List FileName} (h : d.CanWalk here todo) : d.entry? (walkTo here todo) ≠ none := by
  induction todo generalizing here with
  | nil =>
    rw [walkTo, isDirectoryAt_iff.mp hhere]
    simp
  | cons piece rest ih =>
    rw [CanWalk] at h
    rw [walkTo]
    have hrest := h.2
    split
    · next hpiece =>
      rw [if_pos hpiece] at hrest
      exact ih hhere hrest
    · next hpiece =>
      rw [if_neg hpiece] at hrest
      split
      · next hup =>
        rw [if_pos hup] at hrest
        refine ih ?_ hrest
        rcases List.eq_nil_or_concat here with rfl | ⟨around, n, rfl⟩
        · exact hhere
        · rw [List.concat_eq_append] at hhere ⊢
          rw [List.dropLast_concat]
          exact htree.parent around n (by rw [isDirectoryAt_iff.mp hhere]; simp)
      · next hup =>
        rw [if_neg hup] at hrest
        cases rest with
        | nil => exact hrest.2.1
        | cons next others => exact ih hrest.2.2.1 hrest.2.2

theorem IsTree.isDirectoryAt_start {d : Disk} (h : d.IsTree) (p : DiskPath) :
    d.isDirectoryAt (start d.workplace p) = true := by
  unfold start
  split
  · rfl
  · exact h.workplace

end Disk

namespace GeneratedUnit

namespace IsPlace

variable {key key' : String} {directories directories' : List FileName} {own own' : FileName}

theorem placeOf_eq (h : IsPlace key directories own) (d : Disk) (base : DiskPath) :
    d.placeOf (pathIn key base) = d.placeOf base ++ directories ++ [own ++ unitEnding] := by
  have hplain : ∀ n ∈ directories ++ [own ++ unitEnding], n.IsProper := h.names_eq ▸ h.isProper
  rw [Disk.placeOf, h.named, List.append_assoc, Disk.walkTo_append, Disk.walkTo_of_isProper hplain,
    Disk.start, h.isAbsolute_pathIn]
  simp [Disk.placeOf, Disk.start]

theorem walkTo_directories (h : IsPlace key directories own) (d : Disk) (base : DiskPath) :
    Disk.walkTo (Disk.start d.workplace (pathIn key base)) (base.named ++ directories) =
      d.placeOf base ++ directories := by
  rw [Disk.walkTo_append, Disk.walkTo_of_isProper fun n hn => (h.plain n hn).isProper, Disk.start,
    h.isAbsolute_pathIn]
  rfl

theorem placeOf_staged (h : IsPlace key directories own) (d : Disk) (base : DiskPath) :
    d.placeOf (Disk.stagedPath (pathIn key base)) = d.placeOf base ++ directories ++ [own ++ stagingEnding] := by
  have hproper := isProper_staging h.own_plain
  have hstart : Disk.start d.workplace (Disk.stagedPath (pathIn key base)) =
      Disk.start d.workplace (pathIn key base) := by
    rw [Disk.start, Disk.start, Disk.stagedPath, h.isAbsolute_staged]
  rw [Disk.placeOf, hstart, Disk.stagedPath, (h.leadsTo_staged base).named, Disk.walkTo_append,
    h.walkTo_directories, Disk.walkTo_of_isProper (by simpa using hproper)]

/-- Units with different keys have different places. -/
theorem placeOf_ne (h : IsPlace key directories own) (h' : IsPlace key' directories' own') (hne : key ≠ key')
    (d : Disk) (base : DiskPath) : d.placeOf (pathIn key base) ≠ d.placeOf (pathIn key' base) := by
  rw [h.placeOf_eq, h'.placeOf_eq, List.append_assoc, List.append_assoc, ← h.names_eq, ← h'.names_eq]
  intro heq
  exact hne (names_inj (List.append_cancel_left heq))

/-- No unit has its place where another, or it itself, is written first. -/
theorem placeOf_ne_staged (h : IsPlace key directories own) (h' : IsPlace key' directories' own') (d : Disk)
    (base : DiskPath) : d.placeOf (pathIn key base) ≠ d.placeOf (Disk.stagedPath (pathIn key' base)) := by
  rw [h.placeOf_eq, h'.placeOf_staged]
  intro heq
  have hlast := (List.append_inj' heq rfl).2
  exact staging_ne_unit own' own (List.singleton_inj.mp hlast).symm

/-- No directory that is made for a unit below the output directory stands where a unit is written first. -/
theorem staged_ne_directory (h : IsPlace key directories own) (h' : IsPlace key' directories' own') (d : Disk)
    (base : DiskPath) {ns : List FileName} (hns : ns <+: directories') :
    d.placeOf (Disk.stagedPath (pathIn key base)) ≠ d.placeOf base ++ ns := by
  rw [h.placeOf_staged]
  intro heq
  have hmem : own ++ stagingEnding ∈ ns := by
    rw [List.append_assoc] at heq
    rw [← List.append_cancel_left heq]
    simp
  apply (h'.plain _ (hns.subset hmem)).no_dot
  rw [stagingEnding_eq]
  simp

end IsPlace

end GeneratedUnit

/-! ## A whole run -/

namespace Disk

open GeneratedUnit

/-- The units have been put at their places below a directory. Their texts are found there and nothing is
left where they were written first; whatever else there was is still there, and whatever else is new is
a directory on the way to a unit. -/
structure Written (d after : Disk) (base : DiskPath) (units : List GeneratedUnit) : Prop where
  tree : after.IsTree
  linkless : after.Linkless
  workplace : after.workplace = d.workplace
  directory : ∀ l, d.isDirectoryAt l = true → after.isDirectoryAt l = true
  content : ∀ u ∈ units, after.find (pathIn u.key base) =
    .ok (d.placeOf (pathIn u.key base), .file (Text.encode u.content))
  staged : ∀ u ∈ units, after.entry? (d.placeOf (stagedPath (pathIn u.key base))) = none
  kept : ∀ l e, d.entry? l = some e →
    (∀ u ∈ units, l ≠ d.placeOf (pathIn u.key base) ∧ l ≠ d.placeOf (stagedPath (pathIn u.key base))) →
    after.entry? l = some e
  fresh : ∀ l, d.entry? l = none → (∀ u ∈ units, l ≠ d.placeOf (pathIn u.key base)) →
    after.entry? l = none ∨ after.entry? l = some .directory ∧ ∃ u ∈ units, ∃ directories own ns,
      IsPlace u.key directories own ∧ ns <+: base.named ++ directories ∧
      l = walkTo (start d.workplace base) ns

theorem Written.nil {d : Disk} (htree : d.IsTree) (hlinks : d.Linkless) (base : DiskPath) :
    Written d d base [] where
  tree := htree
  linkless := hlinks
  workplace := rfl
  directory _ h := h
  content := by simp
  staged := by simp
  kept _ _ h _ := h
  fresh _ h _ := Or.inl h

theorem Written.of_replace {d d' : Disk} (htree : d.IsTree) (hlinks : d.Linkless) {base : DiskPath}
    {u : GeneratedUnit} {directories : List FileName} {own : FileName} (hplace : IsPlace u.key directories own)
    (h : d.replace (pathIn u.key base) (Text.encode u.content) = (d', .ok ())) :
    Written d d' base [u] ∧ d'.CanWalk (start d.workplace base) base.named := by
  have hstart : start d.workplace (pathIn u.key base) = start d.workplace base := by
    rw [start, start, hplace.isAbsolute_pathIn]
  have hproper := isProper_unit hplace.own_plain
  obtain ⟨htakes, _, hstored⟩ := replace_spec htree hlinks (hplace.leadsTo base) (hplace.leadsTo_staged base)
    (hplace.isAbsolute_staged base) (staging_ne_unit own own) hproper.ne_here hproper.ne_up h
  have hto := hplace.walkTo_directories d base
  have hat := hplace.placeOf_eq d base
  have hstaging := hplace.placeOf_staged d base
  refine ⟨⟨hstored.tree, hstored.linkless, hstored.workplace, hstored.directory, ?_, ?_, ?_, ?_⟩, ?_⟩
  · intro v hv
    rw [List.mem_singleton.mp hv]
    refine (find_eq_ok_iff hstored.linkless).mpr ⟨htakes.error, ?_, ?_, ?_⟩
    · rw [hstored.workplace, (hplace.leadsTo base).steps]
      exact hstored.canWalk
    · rw [hstored.workplace, (hplace.leadsTo base).steps, placeOf, (hplace.leadsTo base).named]
    · rw [hat, ← hto]
      exact hstored.at_place
  · intro v hv
    rw [List.mem_singleton.mp hv, hstaging, ← hto]
    exact hstored.at_staging
  · intro l e he hne
    obtain ⟨hl, hl'⟩ := hne u (List.mem_singleton_self u)
    rw [hat, ← hto] at hl
    rw [hstaging, ← hto] at hl'
    exact hstored.kept l e he hl hl'
  · intro l hl hne
    have hl' := hne u (List.mem_singleton_self u)
    rw [hat, ← hto] at hl'
    refine (hstored.fresh l hl hl').imp_right ?_
    intro hsome
    obtain ⟨hdir, ns, hns, rfl⟩ := hsome
    exact ⟨hdir, u, List.mem_singleton_self u, directories, own, ns, hplace, hns, by rw [hstart]⟩
  · have hcan := hstored.canWalk
    rw [hstart, List.append_assoc] at hcan
    exact (canWalk_append.mp hcan).1

theorem placeOf_congr {d d' : Disk} (h : d'.workplace = d.workplace) (p : DiskPath) :
    d'.placeOf p = d.placeOf p := by
  rw [placeOf, placeOf, h]

/-- Once the output directory is there, no directory that is made on the way to a unit stands where a unit was
written first. -/
theorem staged_ne_made {d : Disk} (htree : d.IsTree) {base : DiskPath}
    (hcan : d.CanWalk (start d.workplace base) base.named) {key key' : String}
    {directories directories' : List FileName} {own own' : FileName} (hu : IsPlace key directories own)
    (hv : IsPlace key' directories' own') (hnone : d.entry? (d.placeOf (stagedPath (pathIn key base))) = none)
    {ns : List FileName} (hns : ns <+: base.named ++ directories') :
    d.placeOf (stagedPath (pathIn key base)) ≠ walkTo (start d.workplace base) ns := by
  intro heq
  rcases List.prefix_or_prefix_of_prefix hns (List.prefix_append base.named directories') with
    ⟨more, hmore⟩ | ⟨more, rfl⟩
  · -- On the way to the output directory something stands everywhere.
    rw [← hmore] at hcan
    rw [heq] at hnone
    exact (canWalk_append.mp hcan).1.found htree (htree.isDirectoryAt_start base) hnone
  · have hmore := (List.prefix_append_right_inj base.named).mp hns
    refine hu.staged_ne_directory hv d base hmore ?_
    rw [heq, walkTo_append, walkTo_of_isProper fun n hn => (hv.plain n (hmore.subset hn)).isProper]
    rfl

/-! One unit after another: `d₁` is the disk after the first unit, `after` the one after the others. -/

section Cons

variable {d d₁ after : Disk} {base : DiskPath} {u : GeneratedUnit} {rest : List GeneratedUnit}

/-- The places of the first unit are not those of a later one. -/
theorem places_apart (hplaces : ∀ v ∈ u :: rest, ∃ directories own, IsPlace v.key directories own)
    (hkeys : ∀ v ∈ rest, u.key ≠ v.key) (d : Disk) (base : DiskPath) : ∀ v ∈ rest,
    d.placeOf (pathIn u.key base) ≠ d.placeOf (pathIn v.key base) ∧
      d.placeOf (pathIn u.key base) ≠ d.placeOf (stagedPath (pathIn v.key base)) ∧
      d.placeOf (stagedPath (pathIn u.key base)) ≠ d.placeOf (pathIn v.key base) := by
  intro v hv
  obtain ⟨directories, own, hu⟩ := hplaces u List.mem_cons_self
  obtain ⟨directories', own', hv'⟩ := hplaces v (List.mem_cons_of_mem u hv)
  exact ⟨hu.placeOf_ne hv' (hkeys v hv) d base, hu.placeOf_ne_staged hv' d base,
    (hv'.placeOf_ne_staged hu d base).symm⟩

/-- The text of the first unit stays, because the places of the others are other places. -/
theorem Written.content_kept (hplaces : ∀ v ∈ u :: rest, ∃ directories own, IsPlace v.key directories own)
    (hkeys : ∀ v ∈ rest, u.key ≠ v.key) (hfirst : Written d d₁ base [u]) (hrest : Written d₁ after base rest) :
    after.find (pathIn u.key base) = .ok (d.placeOf (pathIn u.key base), .file (Text.encode u.content)) := by
  have hplace := placeOf_congr hfirst.workplace
  have hapart := places_apart hplaces hkeys d base
  have hfound := hfirst.content u (List.mem_singleton_self u)
  refine find_of_unchanged hfirst.linkless hrest.linkless hrest.workplace hrest.directory hfound ?_
  obtain ⟨_, _, _, hentry⟩ := (find_eq_ok_iff hfirst.linkless).mp hfound
  refine hrest.kept _ _ hentry fun w hw => ?_
  rw [hplace, hplace]
  exact ⟨(hapart w hw).1, (hapart w hw).2.1⟩

/-- Nothing comes up again where the first unit was written first. -/
theorem Written.staged_kept (hplaces : ∀ v ∈ u :: rest, ∃ directories own, IsPlace v.key directories own)
    (hkeys : ∀ v ∈ rest, u.key ≠ v.key) (hfirst : Written d d₁ base [u])
    (hcan : d₁.CanWalk (start d.workplace base) base.named) (hrest : Written d₁ after base rest) :
    after.entry? (d.placeOf (stagedPath (pathIn u.key base))) = none := by
  have hplace := placeOf_congr hfirst.workplace
  have hapart := places_apart hplaces hkeys d base
  have hnone := hfirst.staged u (List.mem_singleton_self u)
  obtain ⟨directories, own, hu⟩ := hplaces u List.mem_cons_self
  rcases hrest.fresh _ hnone (fun w hw => by rw [hplace]; exact (hapart w hw).2.2) with
    hnone | ⟨_, w, hw, directories', own', ns, hw', hns, heq⟩
  · exact hnone
  · -- The later units could only have made a directory here.
    refine absurd heq ?_
    rw [← hplace] at hnone ⊢
    rw [← hfirst.workplace] at hcan
    exact staged_ne_made hfirst.tree hcan hu hw' hnone hns

theorem Written.fresh_cons (hfirst : Written d d₁ base [u]) (hrest : Written d₁ after base rest)
    {l : Location} (hl : d.entry? l = none) (hne : ∀ w ∈ u :: rest, l ≠ d.placeOf (pathIn w.key base)) :
    after.entry? l = none ∨ after.entry? l = some .directory ∧ ∃ w ∈ u :: rest, ∃ directories own ns,
      IsPlace w.key directories own ∧ ns <+: base.named ++ directories ∧
      l = walkTo (start d.workplace base) ns := by
  have hthere : ∀ w ∈ [u], l ≠ d.placeOf (pathIn w.key base) := fun w hw =>
    hne w (List.mem_cons.mpr (Or.inl (List.mem_singleton.mp hw)))
  rcases hfirst.fresh l hl hthere with hnone | ⟨hdir, w, hw, hway⟩
  · have hlater : ∀ w ∈ rest, l ≠ d₁.placeOf (pathIn w.key base) := by
      intro w hw
      rw [placeOf_congr hfirst.workplace]
      exact hne w (List.mem_cons_of_mem u hw)
    refine (hrest.fresh l hnone hlater).imp_right ?_
    intro hsome
    obtain ⟨hdir, w, hw, hway⟩ := hsome
    rw [hfirst.workplace] at hway
    exact ⟨hdir, w, List.mem_cons_of_mem u hw, hway⟩
  · right
    exact ⟨isDirectoryAt_iff.mp (hrest.directory l (isDirectoryAt_iff.mpr hdir)), w,
      List.mem_cons.mpr (Or.inl (List.mem_singleton.mp hw)), hway⟩

theorem Written.cons (hplaces : ∀ v ∈ u :: rest, ∃ directories own, IsPlace v.key directories own)
    (hkeys : ∀ v ∈ rest, u.key ≠ v.key) (hfirst : Written d d₁ base [u])
    (hcan : d₁.CanWalk (start d.workplace base) base.named) (hrest : Written d₁ after base rest) :
    Written d after base (u :: rest) where
  tree := hrest.tree
  linkless := hrest.linkless
  workplace := hrest.workplace.trans hfirst.workplace
  directory l hl := hrest.directory l (hfirst.directory l hl)
  content v hv := by
    rcases List.mem_cons.mp hv with rfl | hv
    · exact Written.content_kept hplaces hkeys hfirst hrest
    · rw [← placeOf_congr hfirst.workplace]
      exact hrest.content v hv
  staged v hv := by
    rcases List.mem_cons.mp hv with rfl | hv
    · exact Written.staged_kept hplaces hkeys hfirst hcan hrest
    · rw [← placeOf_congr hfirst.workplace]
      exact hrest.staged v hv
  kept l e he hne := by
    refine hrest.kept l e ?_ ?_
    · exact hfirst.kept l e he fun w hw => hne w (List.mem_cons.mpr (Or.inl (List.mem_singleton.mp hw)))
    · intro w hw
      rw [placeOf_congr hfirst.workplace, placeOf_congr hfirst.workplace]
      exact hne w (List.mem_cons_of_mem u hw)
  fresh _ hl hne := hfirst.fresh_cons hrest hl hne

end Cons

/-- Units are put at their places one after another. -/
theorem writeUnits_cons_eq_ok {d : Disk} {base : DiskPath} {u : GeneratedUnit} {rest : List GeneratedUnit}
    {paths : List DiskPath} (h : (d.writeUnits base (u :: rest)).outcome.result = .ok paths) :
    ∃ d₁ more, d.replace (pathIn u.key base) (Text.encode u.content) = (d₁, .ok ()) ∧
      (d₁.writeUnits base rest).outcome.result = .ok more ∧ paths = pathIn u.key base :: more ∧
      (d.writeUnits base (u :: rest)).disk = (d₁.writeUnits base rest).disk := by
  rw [writeUnits] at h ⊢
  dsimp only at h ⊢
  cases hreplace : d.replace (pathIn u.key base) (Text.encode u.content) with
  | mk d₁ r =>
    rw [hreplace] at h
    cases r with
    | error e => cases h
    | ok v =>
      dsimp only at h ⊢
      rw [Outcome.result_bind_of_ok (Outcome.result_tell _)] at h
      obtain ⟨more, hmore, h⟩ := Outcome.result_bind_eq_ok.mp h
      cases h
      exact ⟨d₁, more, rfl, hmore, rfl, rfl⟩

theorem writeUnits_spec {d : Disk} (htree : d.IsTree) (hlinks : d.Linkless) {base : DiskPath}
    {units : List GeneratedUnit} (hplaces : ∀ u ∈ units, ∃ directories own, IsPlace u.key directories own)
    (hkeys : (units.map GeneratedUnit.key).Nodup) {paths : List DiskPath}
    (h : (d.writeUnits base units).outcome.result = .ok paths) :
    paths = planUnits base units ∧ Written d (d.writeUnits base units).disk base units := by
  -- Over the units, from the disk that each step has left: it is again a tree without links.
  induction units generalizing d paths with
  | nil =>
    cases h
    exact ⟨rfl, Written.nil htree hlinks base⟩
  | cons u rest ih =>
    obtain ⟨directories, own, hplace⟩ := hplaces u List.mem_cons_self
    obtain ⟨hkey, hkeys⟩ := List.nodup_cons.mp hkeys
    obtain ⟨d₁, more, hreplace, hmore, rfl, hdisk⟩ := writeUnits_cons_eq_ok h
    obtain ⟨hfirst, hcan⟩ := Written.of_replace htree hlinks hplace hreplace
    obtain ⟨rfl, hrest⟩ :=
      ih hfirst.tree hfirst.linkless (fun w hw => hplaces w (List.mem_cons_of_mem u hw)) hkeys hmore
    rw [hdisk]
    refine ⟨rfl, Written.cons hplaces ?_ hfirst hcan hrest⟩
    intro w hw heq
    exact hkey (heq ▸ List.mem_map_of_mem hw)

end Disk

/-! ## What a run answers -/

/-- What a run answers is what it has done: `paths` are the places of the units below the directory, in their
order and each its own, and after the run every one of them holds the text of its unit. Nothing is left
where the texts were written first, whatever a path led to before it leads to still unless it is one of
these places, and there is nothing new but the units and directories. -/
structure TrueAnswer (d after : Disk) (directory : DiskPath) (units : List GeneratedUnit)
    (paths : List DiskPath) : Prop where
  planned : paths = units.map fun u => GeneratedUnit.pathIn u.key directory
  distinct : (paths.map DiskPath.components).Nodup
  below : ∀ path ∈ paths, ∃ n rest,
    path.components = directory.components ++ (n :: rest).map Component.name
  content : ∀ u path, (u, path) ∈ units.zip paths → after.read path = .ok (Text.encode u.content)
  staged : ∀ path ∈ paths, after.entry? (d.placeOf (Disk.stagedPath path)) = none ∧
    after.isPresent (Disk.stagedPath path) = false
  kept : ∀ p l e, d.find p = .ok (l, e) →
    (∀ path ∈ paths, l ≠ d.placeOf path ∧ l ≠ d.placeOf (Disk.stagedPath path)) →
    after.find p = .ok (l, e)
  fresh : ∀ l e, d.entry? l = none → after.entry? l = some e →
    e = .directory ∨ ∃ path ∈ paths, l = d.placeOf path

namespace Disk

open GeneratedUnit

theorem zip_planUnits (base : DiskPath) (units : List GeneratedUnit) :
    units.zip (planUnits base units) = units.map fun u => (u, pathIn u.key base) := by
  simpa [planUnits] using List.zip_map' (f := id) (g := fun u : GeneratedUnit => pathIn u.key base) (l := units)

theorem of_mem_zip_planUnits {base : DiskPath} {units : List GeneratedUnit} {u : GeneratedUnit} {path : DiskPath}
    (h : (u, path) ∈ units.zip (planUnits base units)) : pathIn u.key base = path ∧ u ∈ units := by
  rw [zip_planUnits] at h
  obtain ⟨v, hv, heq⟩ := List.mem_map.mp h
  cases heq
  exact ⟨rfl, hv⟩

theorem planUnits_distinct {base : DiskPath} {units : List GeneratedUnit}
    (hplaces : ∀ u ∈ units, ∃ directories own, IsPlace u.key directories own)
    (hkeys : (units.map GeneratedUnit.key).Nodup) :
    ((planUnits base units).map DiskPath.components).Nodup := by
  rw [planUnits, List.map_map, List.nodup_iff_pairwise_ne, List.pairwise_map]
  rw [List.nodup_iff_pairwise_ne, List.pairwise_map] at hkeys
  refine hkeys.imp_of_mem ?_
  intro u v hu hv hne heq
  obtain ⟨_, _, hu⟩ := hplaces u hu
  obtain ⟨_, _, hv⟩ := hplaces v hv
  simp only [Function.comp, hu.components, hv.components] at heq
  have hnames := List.append_cancel_left heq
  exact hne (names_inj ((List.map_inj_right fun _ _ => Component.name.inj).mp hnames))

/-- No path leads to where a unit was written first. -/
theorem Written.isPresent_staged {d after : Disk} {base : DiskPath} {units : List GeneratedUnit}
    (h : Written d after base units) {u : GeneratedUnit} (hu : u ∈ units) {directories : List FileName}
    {own : FileName} (hplace : IsPlace u.key directories own) :
    after.isPresent (stagedPath (pathIn u.key base)) = false := by
  have hnone := h.staged u hu
  have hto := hplace.leadsTo_staged base
  unfold isPresent
  split
  · next x hfound =>
    obtain ⟨_, _, hl, he⟩ := (find_eq_ok_iff h.linkless).mp hfound
    rw [stagedPath, hto.steps, ← hto.named] at hl
    rw [← placeOf_congr h.workplace, placeOf, stagedPath, hl, he] at hnone
    cases hnone
  · rfl

theorem Written.trueAnswer {d after : Disk} (hlinks : d.Linkless) {base : DiskPath} {units : List GeneratedUnit}
    (hplaces : ∀ u ∈ units, ∃ directories own, IsPlace u.key directories own)
    (hkeys : (units.map GeneratedUnit.key).Nodup) (h : Written d after base units) :
    TrueAnswer d after base units (planUnits base units) where
  planned := rfl
  distinct := planUnits_distinct hplaces hkeys
  below path hpath := by
    obtain ⟨u, hu, rfl⟩ := List.mem_map.mp hpath
    obtain ⟨_, _, hu⟩ := hplaces u hu
    obtain ⟨n, rest, hnames⟩ := List.exists_cons_of_ne_nil (show names u.key ≠ [] by simp [hu.names_eq])
    exact ⟨n, rest, by rw [hu.components, hnames]⟩
  content u path hmem := by
    obtain ⟨rfl, hu⟩ := of_mem_zip_planUnits hmem
    rw [read, h.content u hu]
    rfl
  staged path hpath := by
    obtain ⟨u, hu, rfl⟩ := List.mem_map.mp hpath
    obtain ⟨_, _, hplace⟩ := hplaces u hu
    exact ⟨h.staged u hu, h.isPresent_staged hu hplace⟩
  kept p l e hfound hne := by
    obtain ⟨_, _, _, he⟩ := (find_eq_ok_iff hlinks).mp hfound
    refine find_of_unchanged hlinks h.linkless h.workplace h.directory hfound (h.kept l e he ?_)
    exact fun u hu => hne _ (List.mem_map_of_mem hu)
  fresh l e hl he := by
    by_cases hunit : ∃ u ∈ units, l = d.placeOf (pathIn u.key base)
    · obtain ⟨u, hu, rfl⟩ := hunit
      exact Or.inr ⟨_, List.mem_map_of_mem hu, rfl⟩
    · -- Not the place of a unit, so if it is new then it is a directory on the way to one.
      rcases h.fresh l hl fun u hu heq => hunit ⟨u, hu, heq⟩ with hnone | ⟨hdir, _⟩
      · rw [hnone] at he
        cases he
      · rw [hdir] at he
        exact Or.inl (Option.some.inj he).symm

/-- The units that are generated on a disk have their places. -/
theorem isPlace_of_mem_generate {d : Disk} (htree : d.IsTree) {inputs : Inputs} {policy : MarkerPolicy}
    {candidates : List Candidate} {units : List GeneratedUnit}
    (hscan : (d.scan inputs).result = .ok candidates) (h : (generate policy candidates).result = .ok units) :
    ∀ u ∈ units, ∃ directories own, IsPlace u.key directories own := by
  intro u hu
  obtain ⟨c, hc, t, ⟨_, hresolve, _⟩, hrender⟩ := mem_generate h hu
  obtain ⟨rfl, _, _, hmodules⟩ := Candidate.resolve?_eq_some.mp hresolve
  exact isPlace_of_render
    (fun s hs => ⟨hmodules s hs, no_slash_of_mem_scan htree hscan c hc s hs⟩) hrender

theorem placeUnits_trueAnswer {d : Disk} (htree : d.IsTree) (hlinks : d.Linkless) {inputs : Inputs}
    {policy : MarkerPolicy} {candidates : List Candidate} {units : List GeneratedUnit}
    (hscan : (d.scan inputs).result = .ok candidates) (hunits : (generate policy candidates).result = .ok units)
    {directory : DiskPath} {paths : List DiskPath}
    (h : (d.placeUnits directory false units).outcome.result = .ok paths) :
    TrueAnswer d (d.placeUnits directory false units).disk directory units paths := by
  have hplaces := isPlace_of_mem_generate htree hscan hunits
  have hkeys := generate_keys_nodup hunits
  obtain ⟨rfl, hwritten⟩ := writeUnits_spec htree hlinks hplaces hkeys h
  exact hwritten.trueAnswer hlinks hplaces hkeys

/-- A run in one is a generation and the placing of what it generates. -/
theorem generateAndWrite_eq_ok {d : Disk} {inputs : Inputs} {policy : MarkerPolicy} {directory : DiskPath}
    {dryRun : Bool} {answer : List (GeneratedUnit × DiskPath)} :
    (d.generateAndWrite inputs policy directory dryRun).outcome.result = .ok answer ↔
      ∃ units paths, (d.generateUnits inputs policy).result = .ok units ∧
        (d.placeUnits directory dryRun units).outcome.result = .ok paths ∧ answer = units.zip paths := by
  unfold generateAndWrite
  dsimp only
  split
  · next e he =>
    rw [he]
    simp
  · next units hunits =>
    rw [hunits]
    constructor
    · intro h
      obtain ⟨_, hagain, h⟩ := Outcome.result_bind_eq_ok.mp h
      obtain ⟨paths, hpaths, h⟩ := Outcome.result_bind_eq_ok.mp h
      rw [hunits] at hagain
      cases hagain
      cases h
      exact ⟨units, paths, rfl, hpaths, rfl⟩
    · intro hsome
      obtain ⟨_, paths, heq, hpaths, rfl⟩ := hsome
      cases heq
      exact Outcome.result_bind_eq_ok.mpr ⟨units, hunits, Outcome.result_bind_eq_ok.mpr ⟨paths, hpaths, rfl⟩⟩

theorem disk_generateAndWrite {d : Disk} {inputs : Inputs} {policy : MarkerPolicy} {directory : DiskPath}
    {dryRun : Bool} {units : List GeneratedUnit} (h : (d.generateUnits inputs policy).result = .ok units) :
    (d.generateAndWrite inputs policy directory dryRun).disk = (d.placeUnits directory dryRun units).disk := by
  unfold generateAndWrite
  dsimp only
  rw [h]

end Disk

/-- **What a run that writes answers is what it has done.** On a disk without links this holds of a scan, the
generation and the writing one after the other, and of all three in one; and a dry run from the same
disk answers the same. -/
theorem run_answers_truly {d : Disk} (htree : d.IsTree) (hlinks : d.Linkless) (inputs : Inputs)
    (policy : MarkerPolicy) (directory : DiskPath) :
    (∀ candidates units paths, (d.scan inputs).result = .ok candidates →
      (generate policy candidates).result = .ok units →
      (d.placeUnits directory false units).outcome.result = .ok paths →
      TrueAnswer d (d.placeUnits directory false units).disk directory units paths ∧
        (d.placeUnits directory true units).outcome.result = .ok paths) ∧
    ∀ answer, (d.generateAndWrite inputs policy directory false).outcome.result = .ok answer →
      TrueAnswer d (d.generateAndWrite inputs policy directory false).disk directory
        (answer.map Prod.fst) (answer.map Prod.snd) ∧
      (d.generateAndWrite inputs policy directory true).outcome.result = .ok answer ∧
      (d.generateAndWrite inputs policy directory true).disk = d := by
  constructor
  · intro candidates units paths hscan hunits h
    have htrue := Disk.placeUnits_trueAnswer htree hlinks hscan hunits h
    refine ⟨htrue, ?_⟩
    rw [htrue.planned]
    rfl
  · intro answer h
    obtain ⟨units, paths, hgenerated, hpaths, rfl⟩ := Disk.generateAndWrite_eq_ok.mp h
    obtain ⟨candidates, hscan, hunits⟩ := Outcome.result_bind_eq_ok.mp hgenerated
    have htrue := Disk.placeUnits_trueAnswer htree hlinks hscan hunits hpaths
    have hlength : units.length = paths.length := by rw [htrue.planned, List.length_map]
    refine ⟨?_, ?_, Disk.disk_generateAndWrite hgenerated⟩
    · rw [Disk.disk_generateAndWrite hgenerated, List.map_fst_zip (Nat.le_of_eq hlength),
        List.map_snd_zip (Nat.le_of_eq hlength.symm)]
      exact htrue
    · exact Disk.generateAndWrite_eq_ok.mpr ⟨units, paths, hgenerated, by rw [htrue.planned]; rfl, rfl⟩

/-- A disk with one source file, which holds a struct that carries the marker. -/
def oneSource : Disk where
  entries :=
    let w := Text.encode "w"
    let src := Text.encode "src"
    [([w], .directory), ([w, src], .directory),
      ([w, src, Text.encode "a.rs"], .file (Text.encode "#[identifier] struct A(i64);"))]
  workplace := [Text.encode "w"]

/-- A disk with three marked structs in one source file. The units of the first two go into one directory, and that of
the third into a directory inside it. -/
def threeStructs : Disk where
  entries :=
    let w := Text.encode "w"
    let src := Text.encode "src"
    [([w], .directory), ([w, src], .directory),
      ([w, src, Text.encode "a.rs"], .file (Text.encode
        "#[identifier] struct A(i64); #[identifier] struct B(i64); mod b \x7b #[identifier] struct C(i64); \x7d"))]
  workplace := [Text.encode "w"]

/-- The units of a run share directories, and each way of writing them answers truly. -/
theorem run_answers_truly_threeStructs :
    threeStructs.IsTree ∧ threeStructs.Linkless ∧ ∃ candidates units paths answer,
      (threeStructs.scan ⟨[DiskPath.ofString "src"], none⟩).result = .ok candidates ∧
      (generate .permissive candidates).result = .ok units ∧
      paths = ["out/a/A.g.rs", "out/a/B.g.rs", "out/a/b/C.g.rs"].map DiskPath.ofString ∧
      (threeStructs.placeUnits (DiskPath.ofString "out") false units).outcome.result = .ok paths ∧
      TrueAnswer threeStructs (threeStructs.placeUnits (DiskPath.ofString "out") false units).disk
        (DiskPath.ofString "out") units paths ∧
      (threeStructs.generateAndWrite ⟨[DiskPath.ofString "src"], none⟩ .permissive (DiskPath.ofString "out")
        false).outcome.result = .ok answer ∧
      answer.map Prod.snd = paths ∧
      TrueAnswer threeStructs (threeStructs.generateAndWrite ⟨[DiskPath.ofString "src"], none⟩ .permissive
        (DiskPath.ofString "out") false).disk (DiskPath.ofString "out") (answer.map Prod.fst) paths := by
  have htree : threeStructs.IsTree := Disk.isTree_of_entries (by decide) (by decide)
  have hlinks : threeStructs.Linkless := Disk.linkless_of_entries (by simp [threeStructs])
  have hrun : (threeStructs.generateAndWrite ⟨[DiskPath.ofString "src"], none⟩ .permissive
      (DiskPath.ofString "out") false).outcome.result.toOption.any (fun answer => answer.map Prod.snd ==
        ["out/a/A.g.rs", "out/a/B.g.rs", "out/a/b/C.g.rs"].map DiskPath.ofString) = true := by decide +kernel
  obtain ⟨answer, hanswer, hpaths⟩ := (Option.any_eq_true _ _).mp hrun
  have hok := Except.eq_ok_of_toOption hanswer
  have hpaths := beq_iff_eq.mp hpaths
  obtain ⟨units, paths, hgenerated, hplaced, hzip⟩ := Disk.generateAndWrite_eq_ok.mp hok
  obtain ⟨candidates, hscan, hunits⟩ := Outcome.result_bind_eq_ok.mp hgenerated
  have hroutes := run_answers_truly htree hlinks ⟨[DiskPath.ofString "src"], none⟩ .permissive (DiskPath.ofString "out")
  have hplanned := (hroutes.1 candidates units paths hscan hunits hplaced).1
  have hlength : units.length = paths.length := by rw [hplanned.planned, List.length_map]
  have hsame : answer.map Prod.snd = paths := by rw [hzip, List.map_snd_zip (Nat.le_of_eq hlength.symm)]
  refine ⟨htree, hlinks, candidates, units, paths, answer, hscan, hunits, hsame ▸ hpaths, hplaced, hplanned, hok, hsame,
    ?_⟩
  rw [← hsame]
  exact (hroutes.2 answer hok).1

end TypedId
