import TypedId.Proofs.PathPlaces
import TypedId.Proofs.Regeneration

/-!
The module of a file, told by where the file lies. Below a root the module is read off the path of the file if
that begins with the path of the root, and off the two places otherwise. Both readings agree unless the path
goes up after the root, out of a directory that it has come into (`file_module_iff`), so only such a path can
hide that a file lies outside the root. One does: `up_hides_outside`.
-/
namespace TypedId

open FileName

namespace Disk

/-! ## Ways that go up -/

theorem walkComponents_append (here : Location) (xs ys : List Component) :
    walkComponents here (xs ++ ys) = walkComponents (walkComponents here xs) ys := by
  induction xs generalizing here with
  | nil => rfl
  | cons c rest ih =>
    cases c with
    | root => exact ih []
    | here => exact ih here
    | up => exact ih here.dropLast
    | name n => exact ih (here ++ [n])

/-- Followed from a place, the components go up at least once out of a directory below the root of the disk. -/
def climbs (here : Location) : List Component → Bool
  | [] => false
  | .root :: rest => climbs [] rest
  | .here :: rest => climbs here rest
  | .up :: rest => !here.isEmpty || climbs here.dropLast rest
  | .name n :: rest => climbs (here ++ [n]) rest

/-- A way that does not go up leads to what its names say. -/
theorem walkComponents_of_not_climbs {here : Location} {components : List Component} (hroot : .root ∉ components)
    (h : climbs here components = false) :
    walkComponents here components = here ++ components.filterMap Component.name? := by
  induction components generalizing here with
  | nil => simp [walkComponents]
  | cons c rest ih =>
    obtain ⟨hc, hrest⟩ := not_or.mp fun hor => hroot (List.mem_cons.mpr hor)
    cases c with
    | root => exact absurd rfl hc
    | here => exact ih hrest h
    | up =>
      rw [climbs, Bool.or_eq_false_iff, Bool.not_eq_false', List.isEmpty_iff] at h
      obtain ⟨rfl, h⟩ := h
      exact ih hrest h
    | name n =>
      rw [walkComponents, ih hrest h, List.append_assoc]
      rfl

theorem length_walkComponents_le {here : Location} {components : List Component} (hroot : .root ∉ components) :
    (walkComponents here components).length ≤ here.length + (components.filterMap Component.name?).length := by
  induction components generalizing here with
  | nil => simp [walkComponents]
  | cons c rest ih =>
    obtain ⟨hc, hrest⟩ := not_or.mp fun hor => hroot (List.mem_cons.mpr hor)
    cases c with
    | root => exact absurd rfl hc
    | here => exact ih hrest
    | up =>
      have hup : (walkComponents here.dropLast rest).length ≤ _ := ih hrest
      rw [List.length_dropLast] at hup
      exact Nat.le_trans hup (Nat.add_le_add_right (Nat.sub_le _ _) _)
    | name n =>
      have hname : (walkComponents (here ++ [n]) rest).length ≤ _ := ih hrest
      rw [List.length_append, List.length_singleton, Nat.add_assoc, Nat.add_comm 1] at hname
      exact hname

/-- A way that goes up leads less far down than its names say. -/
theorem length_walkComponents_lt {here : Location} {components : List Component} (hroot : .root ∉ components)
    (h : climbs here components = true) :
    (walkComponents here components).length < here.length + (components.filterMap Component.name?).length := by
  induction components generalizing here with
  | nil => cases h
  | cons c rest ih =>
    obtain ⟨hc, hrest⟩ := not_or.mp fun hor => hroot (List.mem_cons.mpr hor)
    cases c with
    | root => exact absurd rfl hc
    | here => exact ih hrest h
    | up =>
      by_cases hhere : here = []
      · subst hhere
        exact ih hrest h
      · have hup : (walkComponents here.dropLast rest).length ≤ _ := length_walkComponents_le hrest
        have hpos := List.length_pos_iff.mpr hhere
        rw [List.length_dropLast] at hup
        exact Nat.lt_of_le_of_lt hup (Nat.add_lt_add_right (Nat.sub_lt hpos Nat.one_pos) _)
    | name n =>
      have hname : (walkComponents (here ++ [n]) rest).length < _ := ih hrest h
      rw [List.length_append, List.length_singleton, Nat.add_assoc, Nat.add_comm 1] at hname
      exact hname

/-! ## Paths of files -/

theorem IsTree.isDirectoryAt_dropLast {d : Disk} (h : d.IsTree) {l : Location} (hl : d.isDirectoryAt l = true) :
    d.isDirectoryAt l.dropLast = true := by
  rcases List.eq_nil_or_concat l with rfl | ⟨around, n, rfl⟩
  · exact hl
  · rw [List.concat_eq_append] at hl ⊢
    rw [List.dropLast_concat]
    exact h.parent around n (by rw [isDirectoryAt_iff.mp hl]; simp)

/-- A path that leads to a file ends with the name of the file. -/
theorem components_of_file {d : Disk} (htree : d.IsTree) (hlinks : d.Linkless) {p : DiskPath} {l : Location}
    {content : List UInt8} (h : d.find p = .ok (l, .file content)) :
    ∃ before n, p.components = before ++ [.name n] := by
  obtain ⟨_, hcan, hto, hentry⟩ := (find_eq_ok_iff hlinks).mp h
  have hfile : d.isDirectoryAt l = false := by rw [isDirectoryAt, hentry]; rfl
  rw [walkTo_steps_named] at hto
  rw [steps_eq, canWalk_append] at hcan
  rcases List.eq_nil_or_concat p.named with hnil | ⟨init, piece, hnamed⟩
  · rw [hnil, walkTo] at hto
    rw [← hto, htree.isDirectoryAt_start p] at hfile
    cases hfile
  · rw [List.concat_eq_append] at hnamed
    rw [hnamed, walkTo_append, walkTo] at hto
    rw [hnamed, canWalk_append, CanWalk] at hcan
    obtain ⟨_, hdir, _⟩ := hcan.1
    split at hto
    · rw [walkTo] at hto
      rw [← hto, hdir] at hfile
      cases hfile
    · next hhere =>
      split at hto
      · rw [walkTo] at hto
        rw [← hto, htree.isDirectoryAt_dropLast hdir] at hfile
        cases hfile
      · next hup =>
        have hne : piece ≠ [] := DiskPath.ne_nil_of_mem_named (p := p) (by rw [hnamed]; simp)
        have hname : DiskPath.component? piece = some (.name piece) := by
          unfold DiskPath.component?
          rw [if_neg (by simpa [hne] using show piece ≠ [dot] from hhere), if_neg (show piece ≠ [dot, dot] from hup)]
        refine ⟨p.lead ++ init.filterMap DiskPath.component?, piece, ?_⟩
        rw [DiskPath.components_eq, hnamed, List.filterMap_append, List.append_assoc]
        simp [hname]

end Disk

/-! ## The module at a place -/

namespace ModulePath

/-- The module of the file with this name in nested directories. -/
def ofNames (directories : List FileName) (file : FileName) : ModulePath :=
  let stem := Text.decodeLossy (FileName.stem file)
  ⟨directories.map (fun n => segmentOf (Text.decodeLossy n)) ++
    if directoryStems.contains stem then [] else [segmentOf stem]⟩

theorem ofComponents?_concat (before : List Component) (n : FileName) :
    ofComponents? (before ++ [.name n]) = some (ofNames (before.filterMap Component.name?) n) := by
  unfold ofComponents?
  rw [List.getLast?_concat]
  simp [Component.name?, ofNames]

theorem length_eq_of_ofNames {ds ds' : List FileName} {n : FileName} (h : ofNames ds n = ofNames ds' n) :
    ds.length = ds'.length := by
  have hsegments := congrArg (fun p => p.segments.length) h
  simpa [ofNames] using hsegments

end ModulePath

namespace Disk

/-- The module of a file at `place` that is counted from `directory`: the names between them tell it. A file that
does not lie below the directory has none. -/
def moduleAt? (directory place : Location) : Option ModulePath :=
  if directory.isPrefixOf place then ModulePath.ofComponents? ((place.drop directory.length).map .name) else none

theorem moduleAt?_of_not_below {directory place : Location} (h : ¬directory <+: place) :
    moduleAt? directory place = none := by
  rw [moduleAt?, if_neg (fun hbelow => h (List.isPrefixOf_iff_prefix.mp hbelow))]

theorem moduleAt?_append (directory names : Location) (n : FileName) :
    moduleAt? directory (directory ++ (names ++ [n])) = some (ModulePath.ofNames names n) := by
  have hnames : (names.map Component.name).filterMap Component.name? = names := by
    rw [List.filterMap_map]
    exact List.filterMap_some
  rw [moduleAt?, if_pos (List.isPrefixOf_iff_prefix.mpr (List.prefix_append _ _)), List.drop_left, List.map_append,
    List.map_singleton, ModulePath.ofComponents?_concat, hnames]

section Module

variable {d : Disk} {root file : DiskPath} {l l' : Location}

theorem moduleOf?_of_below {rest : List Component} (h : DiskPath.below? root file = some rest) :
    d.moduleOf? root file = ModulePath.ofComponents? rest := by
  rw [moduleOf?, relative?, h]
  rfl

/-- A path that does not begin with that of the root is followed. -/
theorem moduleOf?_of_not_below (hroot : d.resolve true root = .ok l) (hfile : d.resolve true file = .ok l')
    (h : DiskPath.below? root file = none) : d.moduleOf? root file = moduleAt? l l' := by
  have hbase : d.canonical root = .ok (.root :: l.map .name) := by rw [canonical, hroot]; rfl
  have hplace : d.canonical file = .ok (.root :: l'.map .name) := by rw [canonical, hfile]; rfl
  have hbelow : (Component.root :: l.map Component.name).isPrefixOf (.root :: l'.map .name) = l.isPrefixOf l' := by
    rw [Bool.eq_iff_iff, List.isPrefixOf_iff_prefix, List.isPrefixOf_iff_prefix, List.cons_prefix_cons]
    exact (and_iff_right rfl).trans (List.prefix_map_iff_of_injective fun _ _ heq => Component.name.inj heq)
  rw [moduleOf?, relative?, h, hbase, hplace, moduleAt?]
  dsimp only
  rw [hbelow]
  split
  · rw [List.length_cons, List.drop_succ_cons, List.length_map, ← List.map_drop]
    rfl
  · rfl

/-- Read off the path, the module is that of the place exactly if the path does not go up after the root. -/
theorem ofComponents?_eq_moduleAt?_iff {before : List Component} {n : FileName} (hroot : .root ∉ before ++ [.name n])
    (hne : walkComponents l (before ++ [.name n]) ≠ l) :
    ModulePath.ofComponents? (before ++ [.name n]) = moduleAt? l (walkComponents l (before ++ [.name n])) ↔
      climbs l (before ++ [.name n]) = false := by
  have hnames : (before ++ [Component.name n]).filterMap Component.name? = before.filterMap Component.name? ++ [n] := by
    simp [Component.name?]
  rw [ModulePath.ofComponents?_concat]
  constructor
  · intro heq
    rw [← Bool.not_eq_true]
    intro hclimbs
    have hshort := length_walkComponents_lt hroot hclimbs
    rw [hnames] at hshort
    by_cases hbelow : l <+: walkComponents l (before ++ [.name n])
    · obtain ⟨more, hmore⟩ := hbelow
      obtain ⟨init, m, rfl⟩ := (List.eq_nil_or_concat more).resolve_left fun hnil => hne (by simp [← hmore, hnil])
      rw [List.concat_eq_append] at hmore
      obtain rfl : m = n := by
        rw [walkComponents_append, walkComponents, walkComponents, ← List.append_assoc] at hmore
        simpa using (List.append_inj' hmore rfl).2
      rw [← hmore] at heq hshort
      rw [moduleAt?_append] at heq
      have hlength := ModulePath.length_eq_of_ofNames (Option.some.inj heq)
      simp only [List.length_append, List.length_singleton] at hshort
      omega
    · rw [moduleAt?_of_not_below hbelow] at heq
      cases heq
  · intro hclimbs
    rw [walkComponents_of_not_climbs hroot hclimbs, hnames, moduleAt?_append]

/-- A file has the module of its place unless its path goes up after the root. -/
theorem moduleOf?_eq_moduleAt?_iff (htree : d.IsTree) (hlinks : d.Linkless) (hroot : d.find root = .ok (l, .directory))
    {content : List UInt8} (hfile : d.find file = .ok (l', .file content)) :
    d.moduleOf? root file = moduleAt? l l' ↔ (DiskPath.below? root file).any (climbs l) = false := by
  cases hbelow : DiskPath.below? root file with
  | none =>
    rw [moduleOf?_of_not_below (resolve_of_find hroot) (resolve_of_find hfile) hbelow]
    simp
  | some rest =>
    have hcomponents := DiskPath.below?_eq_some.mp hbelow
    obtain ⟨herror, _, hbase, hdir⟩ := (find_eq_ok_iff hlinks).mp hroot
    obtain ⟨_, _, hplace, hentry⟩ := (find_eq_ok_iff hlinks).mp hfile
    rw [walkTo_steps] at hbase hplace
    rw [hcomponents, walkComponents_append, hbase] at hplace
    have hne : l' ≠ l := by
      rintro rfl
      rw [hdir] at hentry
      cases hentry
    -- The root has a component, so the last one of the file comes after it.
    obtain ⟨first, n, hlast⟩ := components_of_file htree hlinks hfile
    have hrest : ∃ before, rest = before ++ [.name n] := by
      rcases List.eq_nil_or_concat rest with rfl | ⟨before, c, rfl⟩
      · exact absurd hplace.symm hne
      · rw [List.concat_eq_append] at hcomponents ⊢
        rw [hlast, ← List.append_assoc] at hcomponents
        exact ⟨before, by rw [(List.append_inj' hcomponents rfl).2]⟩
    obtain ⟨before, rfl⟩ := hrest
    have hnoroot : Component.root ∉ before ++ [.name n] := by
      have hpos := List.length_pos_iff.mpr (DiskPath.components_ne_nil (pathError?_eq_none.mp herror).2.1)
      have hnot := DiskPath.root_not_mem_drop file hpos
      rwa [hcomponents, List.drop_left] at hnot
    rw [moduleOf?_of_below hbelow, ← hplace, Option.any_some]
    exact ofComponents?_eq_moduleAt?_iff hnoroot (by rwa [hplace])

end Module

/-! ## Discovery below a root -/

theorem readSource_eq_outsideRoot {d : Disk} {f : FoundFile} (h : d.moduleOf? f.base f.path = none) :
    (d.readSource f).result = .error (.outsideRoot f.path f.base) := by
  unfold readSource
  rw [h]
  rfl

theorem base_of_filesOf {d : Disk} {root p : DiskPath} {files : List FoundFile}
    (h : d.filesOf (some root) p = .ok files) : ∀ f ∈ files, f.base = root := by
  unfold filesOf at h
  split at h
  · cases h
  · split at h
    · cases hfound : d.walkDirectory p with
      | error e =>
        rw [hfound] at h
        cases h
      | ok found =>
        rw [hfound] at h
        cases h
        intro f hf
        obtain ⟨e, _, rfl⟩ := List.mem_map.mp hf
        rfl
    · cases h
      intro f hf
      rw [List.mem_singleton.mp hf]
      rfl

theorem base_of_filesOfAll {d : Disk} {paths : List DiskPath} {root : DiskPath} {files : List FoundFile}
    (h : d.filesOfAll ⟨paths, some root⟩ = .ok files) : ∀ f ∈ files, f.base = root := by
  intro f hf
  obtain ⟨p, _, found, hfound, hmem⟩ := (mem_filesOfAll h).1 f hf
  exact base_of_filesOf hfound f hmem

/-- The run ends with the first file that cannot be read as a source. -/
theorem result_readSources_of_error {d : Disk} {before after : List FoundFile} {f : FoundFile} {e : Failure}
    (hbefore : ∀ g ∈ before, ∃ s, (d.readSource g).result = .ok s) (hf : (d.readSource f).result = .error e) :
    (d.readSources (before ++ f :: after)).result = .error e := by
  induction before with
  | nil => exact Outcome.result_bind_of_error hf _
  | cons g rest ih =>
    obtain ⟨s, hs⟩ := hbefore g List.mem_cons_self
    rw [List.cons_append, readSources, Outcome.result_bind_of_ok hs]
    exact Outcome.result_bind_of_error (ih fun k hk => hbefore k (List.mem_cons_of_mem g hk)) _

end Disk

/-- Where no link is on the disk, a file has the module that its place below the root tells, and none if it lies
outside, exactly if its path does not begin with that of the root and then go up out of a directory. A file that
lies outside the root on a path that does not do so ends the discovery, unless another one has done so before. -/
theorem file_module_iff {d : Disk} (htree : d.IsTree) (hlinks : d.Linkless) {root : DiskPath} {l : Location}
    (hroot : d.find root = .ok (l, .directory)) :
    (∀ file l' content, d.find file = .ok (l', .file content) →
      (d.moduleOf? root file = Disk.moduleAt? l l' ↔ (DiskPath.below? root file).any (Disk.climbs l) = false)) ∧
    ∀ paths files, d.filesOfAll ⟨paths, some root⟩ = .ok files → ∀ f ∈ files, ∀ l' content,
      d.find f.path = .ok (l', .file content) → ¬l <+: l' →
      (DiskPath.below? root f.path).any (Disk.climbs l) = false →
        (∀ sources, (d.discover ⟨paths, some root⟩).result ≠ .ok sources) ∧
        ∀ before after, files = before ++ f :: after → (∀ g ∈ before, ∃ s, (d.readSource g).result = .ok s) →
          (d.discover ⟨paths, some root⟩).result = .error (.outsideRoot f.path root) := by
  refine ⟨fun file l' content hfile => Disk.moduleOf?_eq_moduleAt?_iff htree hlinks hroot hfile, ?_⟩
  intro paths files hfiles f hf l' content hfind houtside hstays
  have hbase : f.base = root := Disk.base_of_filesOfAll hfiles f hf
  have hnone : d.moduleOf? f.base f.path = none := by
    rw [hbase, (Disk.moduleOf?_eq_moduleAt?_iff htree hlinks hroot hfind).mpr hstays,
      Disk.moduleAt?_of_not_below houtside]
  have herror := Disk.readSource_eq_outsideRoot hnone
  have hdiscover : d.discover ⟨paths, some root⟩ = d.readSources files := by rw [Disk.discover, hfiles]
  rw [hdiscover]
  constructor
  · intro sources hsources
    rw [Disk.result_readSources] at hsources
    obtain ⟨s, hs⟩ := Disk.mapM_eq_ok_iff.mp ⟨sources, hsources⟩ f hf
    rw [herror] at hs
    cases hs
  · intro before after hcut hbefore
    rw [hbase] at herror
    rw [hcut]
    exact Disk.result_readSources_of_error hbefore herror

/-- A disk with a root of sources and a file beside it. -/
def besideSource : Disk where
  entries :=
    let w := Text.encode "w"
    let src := Text.encode "src"
    [([w], .directory), ([w, src], .directory), ([w, src, Text.encode "lib.rs"], .file []),
      ([w, Text.encode "a.rs"], .file (Text.encode "#[identifier] struct A(i64);"))]
  workplace := [Text.encode "w"]

theorem find_root_besideSource :
    besideSource.find (DiskPath.ofString "src") = .ok (["w", "src"].map Text.encode, .directory) :=
  Except.eq_ok_of_toOption (by decide +kernel)

theorem file_module_iff_beside :
    besideSource.IsTree ∧ besideSource.Linkless ∧
      besideSource.moduleOf? (DiskPath.ofString "src") (DiskPath.ofString "./src/../src/lib.rs") = some ⟨[]⟩ ∧
      (besideSource.discover ⟨[DiskPath.ofString "a.rs"], some (DiskPath.ofString "src")⟩).result =
        .error (.outsideRoot (DiskPath.ofString "a.rs") (DiskPath.ofString "src")) := by
  have htree : besideSource.IsTree := Disk.isTree_of_entries (by decide) (by decide)
  have hlinks : besideSource.Linkless := Disk.linkless_of_entries (by simp [besideSource])
  obtain ⟨hmodule, houtside⟩ := file_module_iff htree hlinks find_root_besideSource
  refine ⟨htree, hlinks, ?_, ?_⟩
  · rw [(hmodule _ (["w", "src", "lib.rs"].map Text.encode) [] (Except.eq_ok_of_toOption (by decide +kernel))).mpr
      (by decide +kernel)]
    decide +kernel
  · have hfiles : besideSource.filesOfAll ⟨[DiskPath.ofString "a.rs"], some (DiskPath.ofString "src")⟩ =
        .ok [⟨DiskPath.ofString "a.rs", DiskPath.ofString "src"⟩] := Except.eq_ok_of_toOption (by decide +kernel)
    obtain ⟨_, hfirst⟩ := houtside _ _ hfiles _ (List.mem_singleton_self _) (["w", "a.rs"].map Text.encode)
      (Text.encode "#[identifier] struct A(i64);") (Except.eq_ok_of_toOption (by decide +kernel)) (by decide)
      (by decide +kernel)
    exact hfirst [] [] rfl (by simp)

/-- A path that goes up right after the root gives a file beside the root a module, and the discovery goes through. -/
theorem up_hides_outside :
    besideSource.find (DiskPath.ofString "src") = .ok (["w", "src"].map Text.encode, .directory) ∧
      besideSource.find (DiskPath.ofString "src/../a.rs") =
        .ok (["w", "a.rs"].map Text.encode, .file (Text.encode "#[identifier] struct A(i64);")) ∧
      ¬["w", "src"].map Text.encode <+: ["w", "a.rs"].map Text.encode ∧
      besideSource.moduleOf? (DiskPath.ofString "src") (DiskPath.ofString "src/../a.rs") = some ⟨["a"]⟩ ∧
      (besideSource.discover ⟨[DiskPath.ofString "src/../a.rs"], some (DiskPath.ofString "src")⟩).result =
        .ok [⟨DiskPath.ofString "src/../a.rs", ⟨["a"]⟩, "#[identifier] struct A(i64);"⟩] := by
  refine ⟨find_root_besideSource, Except.eq_ok_of_toOption (by decide +kernel), by decide, by decide +kernel, ?_⟩
  exact Except.eq_ok_of_toOption (by decide +kernel)

end TypedId
