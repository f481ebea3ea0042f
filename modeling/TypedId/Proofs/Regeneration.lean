import TypedId.Proofs.Rediscovery
import TypedId.Proofs.ScannedUnits

/-!
Generating again. The units that a run writes may lie among the sources of the next run, which then finds them.
They give it no unit, whatever they hold, because the name of their module has a point in it; so the
next run answers as the first and leaves the tree as it is, exactly if the system takes every path under which it
finds a source (`regeneration_iff`).
-/
namespace TypedId

open FileName

/-! ## Files of units among the sources -/

theorem mem_unraw {s : String} (h : '.' ∈ s.toList) : '.' ∈ (unraw s).toList := by
  rw [← List.count_pos_iff] at h ⊢
  rwa [count_unraw (by decide) s]

namespace ModulePath

theorem mem_segmentOf {s : String} {c : Char} (h : c ∈ s.toList) : c ∈ (segmentOf s).toList := by
  unfold segmentOf
  split
  · rw [String.toList_append]
    exact List.mem_append_right _ h
  · exact h

/-- The module of a unit's file has a name with a point. -/
theorem exists_dot_of_unit {components : List Component} {own : FileName} {p : ModulePath}
    (hlast : components.getLast? = some (.name (own ++ unitEnding))) (h : ofComponents? components = some p) :
    ∃ s ∈ p.segments, '.' ∈ s.toList := by
  have hstem : '.' ∈ (Text.decodeLossy (stem (own ++ unitEnding))).toList := by
    rw [stem_unit, Text.decodeLossy, String.toList_ofList]
    refine List.mem_map.mpr ⟨.char '.', Text.char_mem_pieces (by decide) ?_, rfl⟩
    exact List.mem_append_right own List.mem_cons_self
  have hplain : directoryStems.contains (Text.decodeLossy (stem (own ++ unitEnding))) = false := by
    rw [← Bool.not_eq_true, List.contains_iff_mem]
    intro hmem
    have hnone : ∀ s ∈ directoryStems, '.' ∉ s.toList := by decide
    exact hnone _ hmem hstem
  unfold ofComponents? at h
  rw [hlast] at h
  dsimp only at h
  rw [hplain, if_neg Bool.false_ne_true] at h
  cases h
  exact ⟨_, List.mem_append_right _ (List.mem_singleton_self _), mem_segmentOf hstem⟩

/-- A file below a directory has a module, whatever its names are. -/
theorem ofComponents?_isSome {names : List FileName} (hne : names ≠ []) :
    ∃ m, ofComponents? (names.map .name) = some m := by
  obtain ⟨init, n, rfl⟩ := (List.eq_nil_or_concat names).resolve_left hne
  rw [List.concat_eq_append, List.map_append, List.map_singleton]
  unfold ofComponents?
  rw [List.getLast?_concat]
  exact ⟨_, rfl⟩

end ModulePath

/-- A source whose module has a name with a point gives no unit. -/
theorem SourceText.filterMap_qualified?_eq_nil {s : SourceText} {name : String} (hmem : name ∈ s.modulePath.segments)
    (hslash : '/' ∉ name.toList) (hdot : '.' ∈ name.toList) (policy : MarkerPolicy) :
    s.candidates.filterMap (Candidate.qualified? policy) = [] := by
  rw [List.filterMap_eq_nil_iff]
  intro c hc
  obtain ⟨site, rfl⟩ := SourceText.mem_candidates hc
  rw [Option.eq_none_iff_forall_ne_some]
  intro t ht
  obtain ⟨_, hresolve, _⟩ := Candidate.qualified?_eq_some.mp ht
  obtain ⟨_, _, _, hmodules⟩ := Candidate.resolve?_eq_some.mp hresolve
  have hid := hmodules name (List.mem_append_left _ hmem)
  exact (isPlain_unraw_of_isIdentifier hslash hid).2.1 (mem_unraw hdot)

namespace Disk

theorem moduleOf?_joinNames (d : Disk) (p : DiskPath) {names : Location} (hproper : ∀ n ∈ names, n.IsProper) :
    d.moduleOf? p (p.joinNames names) = ModulePath.ofComponents? (names.map .name) := by
  have hbelow : DiskPath.below? p (p.joinNames names) = some (names.map .name) := by
    unfold DiskPath.below?
    rw [DiskPath.joinNames_eq_descend, DiskPath.components_descend p hproper, List.drop_left, if_pos]
    exact List.isPrefixOf_iff_prefix.mpr (List.prefix_append _ _)
  unfold moduleOf? relative?
  rw [hbelow]
  rfl

/-- A file that is found below one of the inputs is a source that is reached there. -/
theorem exists_reachedSource {d : Disk} (htree : d.IsTree) (hsound : d.IsSound) {paths : List DiskPath}
    (hpaths : ∀ p ∈ paths, d.isDirectory p = true) {files : List FoundFile}
    (hfiles : d.filesOfAll ⟨paths, none⟩ = .ok files) {f : FoundFile} (hf : f ∈ files) :
    ∃ p ∈ paths, ∃ l names content, d.find p = .ok (l, .directory) ∧ f = ⟨p.joinNames names, p⟩ ∧
      (names, .file content) ∈ d.reachedSources p l := by
  obtain ⟨p, hp, found, hfound, hmem⟩ := (mem_filesOfAll hfiles).1 f hf
  obtain ⟨l, hl⟩ := isDirectory_iff.mp (hpaths p hp)
  obtain ⟨_, rfl⟩ := (filesOf_eq_ok htree hsound hl).mp hfound
  obtain ⟨⟨names, e⟩, he, rfl⟩ := List.mem_map.mp hmem
  obtain ⟨content, rfl⟩ := isFile_of_isSourceAt ((mem_reachedSources hsound).mp he).2.2.1
  exact ⟨p, hp, l, names, content, hl, rfl, he⟩

/-! ## Reading the sources -/

theorem result_readSources (d : Disk) (files : List FoundFile) :
    (d.readSources files).result = files.mapM fun f => (d.readSource f).result := by
  induction files with
  | nil => rfl
  | cons f rest ih =>
    rw [readSources, List.mapM_cons, Outcome.result_bind, ← ih]
    refine congrArg _ (funext fun s => ?_)
    rw [Outcome.result_bind]
    rfl

theorem readText_eq_ok {d : Disk} {p : DiskPath} {text : String} :
    d.readText p = .ok text ↔ ∃ l content, d.find p = .ok (l, .file content) ∧ Text.decode? content = some text := by
  unfold readText read
  cases d.find p with
  | error e => simp [bind, Except.bind]
  | ok found =>
    obtain ⟨l, e⟩ := found
    cases e with
    | file content =>
      simp only [bind, Except.bind, Except.ok.injEq, Prod.mk.injEq, Entry.file.injEq, and_assoc]
      cases htext : Text.decode? content <;> simp [htext]
    | _ => simp [bind, Except.bind]

theorem readSource_eq_ok {d : Disk} {f : FoundFile} {s : SourceText} :
    (d.readSource f).result = .ok s ↔ ∃ m text, d.moduleOf? f.base f.path = some m ∧ d.readText f.path = .ok text ∧
      s = ⟨f.path, m, text⟩ := by
  unfold readSource
  cases d.moduleOf? f.base f.path with
  | none => simp [Outcome.fail]
  | some m =>
    dsimp only
    rw [Outcome.result_bind_of_ok (Outcome.result_tell _)]
    cases d.readText f.path with
    | error e => simp [Outcome.fail]
    | ok text => simp [eq_comm]

end Disk

/-- The types of a source that get units. -/
def SourceText.types (policy : MarkerPolicy) (s : SourceText) : List QualifiedType :=
  s.candidates.filterMap (Candidate.qualified? policy)

theorem Disk.generateUnits_eq_ok {d : Disk} {inputs : Inputs} {policy : MarkerPolicy} {units : List GeneratedUnit} :
    (d.generateUnits inputs policy).result = .ok units ↔
      ∃ files sources, d.filesOfAll inputs = .ok files ∧ (d.readSources files).result = .ok sources ∧
        GeneratedUnit.renderAll [] (sources.flatMap (SourceText.types policy)) = .ok units := by
  have hgenerate : ∀ sources : List SourceText, (generate policy (sources.flatMap SourceText.candidates)).result =
      GeneratedUnit.renderAll [] (sources.flatMap (SourceText.types policy)) := by
    intro sources
    rw [generate, result_generateFrom, List.filterMap_flatMap]
    rfl
  have hscan : ∀ sources candidates, (scanAll sources).result = .ok candidates ↔
      sources.flatMap SourceText.candidates = candidates := by
    intro sources candidates
    rw [result_scanAll, Except.ok.injEq]
  unfold generateUnits scan discover
  simp only [Outcome.result_bind_eq_ok, hscan]
  cases d.filesOfAll inputs with
  | error e => simp [Outcome.fail]
  | ok files =>
    constructor
    · intro hsome
      obtain ⟨_, ⟨sources, hsources, rfl⟩, hunits⟩ := hsome
      exact ⟨files, sources, rfl, hsources, (hgenerate sources).symm.trans hunits⟩
    · intro hsome
      obtain ⟨_, sources, heq, hsources, hunits⟩ := hsome
      cases heq
      exact ⟨_, ⟨sources, hsources, rfl⟩, (hgenerate sources).trans hunits⟩

namespace Disk

open GeneratedUnit

/-- The file of a unit that is found among the sources gives no type a unit, whatever it holds. -/
theorem types_eq_nil {d : Disk} (htree : d.IsTree) (hsound : d.IsSound) {paths : List DiskPath}
    (hpaths : ∀ p ∈ paths, d.isDirectory p = true) {files : List FoundFile}
    (hfiles : d.filesOfAll ⟨paths, none⟩ = .ok files) {f : FoundFile} (hf : f ∈ files)
    (hunit : f.isHandwritten = false) {s : SourceText} (hs : (d.readSource f).result = .ok s)
    (policy : MarkerPolicy) : s.types policy = [] := by
  obtain ⟨p, _, l, names, content, hl, rfl, hreached⟩ := exists_reachedSource htree hsound hpaths hfiles hf
  obtain ⟨hne, hentry, hsource, _⟩ := (mem_reachedSources hsound).mp hreached
  rw [isHandwritten_joinNames htree hsound p hreached] at hunit
  have hproper := hsound.isProper_of_found htree hentry
  obtain ⟨init, n, rfl⟩ := (List.eq_nil_or_concat names).resolve_left hne
  rw [List.concat_eq_append] at *
  obtain ⟨own, rfl⟩ : ∃ own, own ++ unitEnding = n := by
    simp only [isHandwrittenAt, isSourceAt, List.getLast?_concat, Option.any_some, Option.bind_some,
      FileName.isHandwritten] at hunit hsource
    rw [hsource, Bool.true_and, Bool.not_eq_false', List.isSuffixOf_iff_suffix] at hunit
    exact hunit
  obtain ⟨m, text, hm, _, rfl⟩ := readSource_eq_ok.mp hs
  rw [moduleOf?_joinNames d p hproper] at hm
  have hlast : ((init ++ [own ++ unitEnding]).map Component.name).getLast? = some (.name (own ++ unitEnding)) := by
    simp
  obtain ⟨name, hname, hdot⟩ := ModulePath.exists_dot_of_unit hlast hm
  refine SourceText.filterMap_qualified?_eq_nil hname ?_ hdot policy
  refine ModulePath.no_slash_of_ofComponents? (fun k hk => ?_) hm name hname
  obtain ⟨k', hk', heq⟩ := List.mem_map.mp hk
  cases heq
  exact (hproper k hk').no_slash

namespace SameSources

variable {d d' : Disk} (h : SameSources d d') (htree : d.IsTree) (hlinks : d.Linkless) (hsound : d.IsSound)
include h htree hlinks hsound

/-- A source file with the name of a handwritten one is read as before. -/
theorem readSource_again {paths : List DiskPath} (hpaths : ∀ p ∈ paths, d.isDirectory p = true)
    {files : List FoundFile} (hfiles : d.filesOfAll ⟨paths, none⟩ = .ok files) {f : FoundFile} (hf : f ∈ files)
    (hhand : f.isHandwritten = true) {s : SourceText} (hs : (d.readSource f).result = .ok s) :
    (d'.readSource f).result = .ok s := by
  obtain ⟨p, _, l, names, content, hl, rfl, hreached⟩ := exists_reachedSource htree hsound hpaths hfiles hf
  obtain ⟨hne, hentry, _, _⟩ := (mem_reachedSources hsound).mp hreached
  rw [isHandwritten_joinNames htree hsound p hreached] at hhand
  have hproper := hsound.isProper_of_found htree hentry
  obtain ⟨m, text, hm, htext, rfl⟩ := readSource_eq_ok.mp hs
  obtain ⟨place, content', hfind, hdecode⟩ := readText_eq_ok.mp htext
  rw [moduleOf?_joinNames d p hproper, ← moduleOf?_joinNames d' p hproper] at hm
  refine readSource_eq_ok.mpr ⟨m, text, hm, readText_eq_ok.mpr ⟨place, content', ?_, hdecode⟩, rfl⟩
  -- The path is one that leads to a file, so it leads to the one that was found by it.
  have hshort := (pathError?_eq_none.mp ((find_eq_ok_iff hlinks).mp hfind).1).2.2
  have hplace := find_joinNames htree hlinks hsound hl hentry hshort
  rw [hfind] at hplace
  cases hplace
  refine find_of_unchanged hlinks h.linkless h.workplace h.directory hfind ?_
  obtain ⟨init, n, rfl⟩ := (List.eq_nil_or_concat names).resolve_left hne
  rw [List.concat_eq_append] at hhand hentry ⊢
  rw [← List.append_assoc] at hentry ⊢
  exact (h.handwritten _ n content (by simpa [isHandwrittenAt] using hhand)).mpr hentry

/-- The sources give the same types units once more. -/
theorem types_again {paths : List DiskPath} (hpaths : ∀ p ∈ paths, d.isDirectory p = true)
    {files files' : List FoundFile} {sources sources' : List SourceText}
    (hfiles : d.filesOfAll ⟨paths, none⟩ = .ok files) (hread : (d.readSources files).result = .ok sources)
    (hfiles' : d'.filesOfAll ⟨paths, none⟩ = .ok files')
    (hfilter : files'.filter FoundFile.isHandwritten = files.filter FoundFile.isHandwritten)
    (hread' : (d'.readSources files').result = .ok sources') (policy : MarkerPolicy) :
    sources'.flatMap (SourceText.types policy) = sources.flatMap (SourceText.types policy) := by
  have hpaths' : ∀ p ∈ paths, d'.isDirectory p = true := fun p hp =>
    isDirectory_of_directory hlinks h.linkless h.workplace h.directory (hpaths p hp)
  rw [result_readSources] at hread hread'
  obtain ⟨own, hown, htypes⟩ := mapM_filter (k := SourceText.types policy)
    (fun f hf hunit s hs => types_eq_nil htree hsound hpaths hfiles hf hunit hs policy) hread
  obtain ⟨own', hown', htypes'⟩ := mapM_filter (k := SourceText.types policy)
    (fun f hf hunit s hs => types_eq_nil h.tree h.sound hpaths' hfiles' hf hunit hs policy) hread'
  have hagain : (files.filter FoundFile.isHandwritten).mapM (fun f => (d'.readSource f).result) = .ok own := by
    refine mapM_congr (fun f hf s hs => ?_) hown
    obtain ⟨hf, hhand⟩ := List.mem_filter.mp hf
    exact h.readSource_again htree hlinks hsound hpaths hfiles hf hhand hs
  rw [hfilter, hagain] at hown'
  cases hown'
  rw [← htypes, ← htypes']

end SameSources

/-- Sources that have been read have paths that are not too long. -/
theorem length_lt_of_readSources {d : Disk} (hlinks : d.Linkless) {files : List FoundFile}
    {sources : List SourceText} (hread : (d.readSources files).result = .ok sources) :
    ∀ f ∈ files, f.path.bytes.length < pathLimit := by
  intro f hf
  rw [result_readSources] at hread
  obtain ⟨s, hs⟩ := mapM_eq_ok_iff.mp ⟨sources, hread⟩ f hf
  obtain ⟨_, _, _, htext, _⟩ := readSource_eq_ok.mp hs
  obtain ⟨l, content, hfind, _⟩ := readText_eq_ok.mp htext
  exact (pathError?_eq_none.mp ((find_eq_ok_iff hlinks).mp hfind).1).2.2

/-- A run that has answered has found its sources, all under paths that are not too long. -/
theorem filesOfAll_of_run {d : Disk} (hlinks : d.Linkless) {inputs : Inputs} {policy : MarkerPolicy}
    {directory : DiskPath} {dryRun : Bool} {answer : List (GeneratedUnit × DiskPath)}
    (hrun : (d.generateAndWrite inputs policy directory dryRun).outcome.result = .ok answer) :
    ∃ files, d.filesOfAll inputs = .ok files ∧ ∀ f ∈ files, f.path.bytes.length < pathLimit := by
  obtain ⟨_, _, hunits, _⟩ := generateAndWrite_eq_ok.mp hrun
  obtain ⟨files, _, hfiles, hread, _⟩ := generateUnits_eq_ok.mp hunits
  exact ⟨files, hfiles, length_lt_of_readSources hlinks hread⟩

/-- A source below an input holds a text if all sources have been read, under whatever path that was. -/
theorem exists_text {d : Disk} (htree : d.IsTree) (hlinks : d.Linkless) (hsound : d.IsSound) {paths : List DiskPath}
    {files : List FoundFile} (hfiles : d.filesOfAll ⟨paths, none⟩ = .ok files) {sources : List SourceText}
    (hread : (d.readSources files).result = .ok sources) {p : DiskPath} (hp : p ∈ paths) {l names : Location}
    (hl : d.find p = .ok (l, .directory)) {content : List UInt8}
    (hreached : (names, .file content) ∈ d.reachedSources p l)
    (hshort : (p.joinNames names).bytes.length < pathLimit) : ∃ text, Text.decode? content = some text := by
  obtain ⟨found, hfound, _⟩ := filesOfAll_eq_ok.mp hfiles
  obtain ⟨own, hown⟩ := mapM_eq_ok_iff.mp ⟨found, hfound⟩ p hp
  obtain ⟨_, hmap⟩ := (filesOf_eq_ok htree hsound hl).mp hown
  have hmem : (⟨p.joinNames names, p⟩ : FoundFile) ∈ own := by
    rw [← hmap]
    exact List.mem_map.mpr ⟨_, hreached, rfl⟩
  -- The file may have been read under another path, but not one with other components.
  obtain ⟨g, hg, hsame⟩ := (mem_filesOfAll hfiles).2 p hp own hown _ hmem
  rw [result_readSources] at hread
  obtain ⟨s, hs⟩ := mapM_eq_ok_iff.mp ⟨sources, hread⟩ g hg
  obtain ⟨_, text, _, htext, _⟩ := readSource_eq_ok.mp hs
  obtain ⟨place, content', hfind, hdecode⟩ := readText_eq_ok.mp htext
  obtain ⟨_, hentry, _, _⟩ := (mem_reachedSources hsound).mp hreached
  have hplace := place_eq_of_same hlinks hsame (find_joinNames htree hlinks hsound hl hentry hshort) hfind
  obtain ⟨_, _, _, hentry'⟩ := (find_eq_ok_iff hlinks).mp hfind
  rw [← hplace, hentry] at hentry'
  cases hentry'
  exact ⟨text, hdecode⟩

/-! ## After a run -/

section Run

variable {d after : Disk} (htree : d.IsTree) (hlinks : d.Linkless) (hsound : d.IsSound) {base : DiskPath}
  {units : List GeneratedUnit} (hplaces : ∀ u ∈ units, ∃ directories own, IsPlace u.key directories own)
  (hwritten : Written d after base units)
include hwritten

/-- A file that stands elsewhere than a unit stood there before the units were written. -/
theorem entry?_before {l : Location} {content : List UInt8} (h : after.entry? l = some (.file content))
    (hne : ∀ u ∈ units, l ≠ d.placeOf (pathIn u.key base)) : d.entry? l = some (.file content) := by
  have hstaged : ∀ u ∈ units, l ≠ d.placeOf (stagedPath (pathIn u.key base)) := by
    intro u hu heq
    rw [heq, hwritten.staged u hu] at h
    cases h
  cases he : d.entry? l with
  | none =>
    rcases hwritten.fresh l he hne with hnone | ⟨hdir, _⟩
    · rw [hnone] at h
      cases h
    · rw [hdir] at h
      cases h
  | some e =>
    rw [hwritten.kept l e he fun u hu => ⟨hne u hu, hstaged u hu⟩] at h
    exact h

include hplaces

/-- Writing units leaves every handwritten source as it is. -/
theorem Written.sameSources (hsound' : after.IsSound) (hfilters : SameFilters d after) : SameSources d after where
  tree := hwritten.tree
  linkless := hwritten.linkless
  sound := hsound'
  workplace := hwritten.workplace
  directory := hwritten.directory
  handwritten l n content hhand := by
    have hne : ∀ u ∈ units, l ++ [n] ≠ d.placeOf (pathIn u.key base) ∧
        l ++ [n] ≠ d.placeOf (stagedPath (pathIn u.key base)) := by
      intro u hu
      obtain ⟨directories, own, hplace⟩ := hplaces u hu
      rw [hplace.placeOf_eq, hplace.placeOf_staged]
      constructor
      · intro heq
        cases (List.append_inj' heq rfl).2
        rw [isHandwritten_unit] at hhand
        cases hhand
      · intro heq
        cases (List.append_inj' heq rfl).2
        rw [isHandwritten_staging] at hhand
        cases hhand
    exact ⟨fun h => entry?_before hwritten h fun u hu => (hne u hu).1, fun h => hwritten.kept _ _ h hne⟩
  filters := hfilters

omit hplaces in
include htree hlinks hsound in
/-- Every source that is found after the run can be read, unless its path is too long. -/
theorem readSource_of_short (hsources : SameSources d after) {paths : List DiskPath}
    (hpaths : ∀ p ∈ paths, d.isDirectory p = true) {files files' : List FoundFile} {sources : List SourceText}
    (hfiles : d.filesOfAll ⟨paths, none⟩ = .ok files) (hread : (d.readSources files).result = .ok sources)
    (hfiles' : after.filesOfAll ⟨paths, none⟩ = .ok files') {f : FoundFile} (hf : f ∈ files')
    (hshort : f.path.bytes.length < pathLimit) : ∃ s, (after.readSource f).result = .ok s := by
  have hpaths' : ∀ p ∈ paths, after.isDirectory p = true := fun p hp =>
    isDirectory_of_directory hlinks hwritten.linkless hwritten.workplace hwritten.directory (hpaths p hp)
  obtain ⟨p, hp, l, names, content, hl', rfl, hreached⟩ :=
    exists_reachedSource hwritten.tree hsources.sound hpaths' hfiles' hf
  obtain ⟨hne, hentry, hsource, hreach⟩ := (mem_reachedSources hsources.sound).mp hreached
  have hfind := find_joinNames hwritten.tree hwritten.linkless hsources.sound hl' hentry hshort
  have hdecode : ∃ text, Text.decode? content = some text := by
    by_cases hunit : ∃ u ∈ units, l ++ names = d.placeOf (pathIn u.key base)
    · obtain ⟨u, hu, heq⟩ := hunit
      obtain ⟨_, _, _, hcontent⟩ := (find_eq_ok_iff hwritten.linkless).mp (hwritten.content u hu)
      rw [← heq, hentry] at hcontent
      cases hcontent
      exact ⟨u.content, Text.decode?_encode u.content⟩
    · obtain ⟨l₀, hl⟩ := isDirectory_iff.mp (hpaths p hp)
      have hsame := hsources.find_eq hlinks hl
      rw [hl'] at hsame
      cases hsame
      have hbefore := entry?_before hwritten hentry fun u hu heq => hunit ⟨u, hu, heq⟩
      rw [hsources.reaches_eq htree hlinks hsound hl (by rw [hbefore]; simp)] at hreach
      exact exists_text htree hlinks hsound hfiles hread hp hl
        ((mem_reachedSources hsound).mpr ⟨hne, hbefore, hsource, hreach⟩) hshort
  obtain ⟨text, htext⟩ := hdecode
  have hproper := hsources.sound.isProper_of_found hwritten.tree hentry
  obtain ⟨m, hm⟩ := ModulePath.ofComponents?_isSome hne
  rw [← moduleOf?_joinNames after p hproper] at hm
  exact ⟨_, readSource_eq_ok.mpr ⟨m, text, hm, readText_eq_ok.mpr ⟨_, content, hfind, htext⟩, rfl⟩⟩

end Run

/-- What a run that has answered has left. -/
theorem written_of_run {d : Disk} (htree : d.IsTree) (hlinks : d.Linkless) (hsound : d.IsSound) {inputs : Inputs}
    {policy : MarkerPolicy} {directory : DiskPath} {answer : List (GeneratedUnit × DiskPath)}
    (hrun : (d.generateAndWrite inputs policy directory false).outcome.result = .ok answer) :
    ∃ units, (d.generateUnits inputs policy).result = .ok units ∧ answer = units.zip (planUnits directory units) ∧
      (∀ u ∈ units, ∃ directories own, IsPlace u.key directories own) ∧
      Written d (d.generateAndWrite inputs policy directory false).disk directory units ∧
      (∀ u ∈ units, (d.generateAndWrite inputs policy directory false).disk.SettledUnit directory u) ∧
      (d.generateAndWrite inputs policy directory false).disk.IsSound := by
  obtain ⟨units, paths, hunits, hwrite, rfl⟩ := generateAndWrite_eq_ok.mp hrun
  rw [disk_generateAndWrite hunits]
  obtain ⟨candidates, hscan, hgenerate⟩ := Outcome.result_bind_eq_ok.mp hunits
  have hplaces := isPlace_of_mem_generate htree hscan hgenerate
  have hkeys := generate_keys_nodup hgenerate
  obtain ⟨rfl, hwritten⟩ := writeUnits_spec htree hlinks hplaces hkeys hwrite
  exact ⟨units, hunits, rfl, hplaces, hwritten, settled_writeUnits htree hlinks hplaces hkeys hwrite,
    isSound_writeUnits htree hlinks hsound hplaces hwrite⟩

end Disk

/-- **Generating again answers the same and leaves the tree as it is, exactly if every path is one that the system
takes.** On a disk without links, let a run that was given directories have answered, and let the files that it
wrote have left the rules of every directory as they were. Then the next run finds its sources, and it answers
as the first did, with the same tree after it, in the one case that no path under which it finds a source
is too long. -/
theorem regeneration_iff {d : Disk} (htree : d.IsTree) (hlinks : d.Linkless) (hsound : d.IsSound)
    {paths : List DiskPath} (hpaths : ∀ p ∈ paths, d.isDirectory p = true) {policy : MarkerPolicy}
    {directory : DiskPath} {answer : List (GeneratedUnit × DiskPath)} {after : Disk}
    (hrun : (d.generateAndWrite ⟨paths, none⟩ policy directory false).outcome.result = .ok answer)
    (hafter : (d.generateAndWrite ⟨paths, none⟩ policy directory false).disk = after)
    (hfilters : d.SameFilters after) :
    ∃ files, after.filesOfAll ⟨paths, none⟩ = .ok files ∧
      ((after.generateAndWrite ⟨paths, none⟩ policy directory false).outcome.result = .ok answer ∧
        after.SameTree (after.generateAndWrite ⟨paths, none⟩ policy directory false).disk ↔
          ∀ f ∈ files, f.path.bytes.length < Disk.pathLimit) := by
  obtain ⟨units, hunits, rfl, hplaces, hwritten, hsettled, hsound'⟩ := Disk.written_of_run htree hlinks hsound hrun
  rw [hafter] at hwritten hsettled hsound'
  have hsources := hwritten.sameSources hplaces hsound' hfilters
  obtain ⟨files, sources, hfiles, hread, hrender⟩ := Disk.generateUnits_eq_ok.mp hunits
  obtain ⟨files', hfiles', hfilter⟩ := hsources.filesOfAll_again htree hlinks hsound hpaths hfiles
  refine ⟨files', hfiles', ?_, ?_⟩
  · rintro ⟨hagain, _⟩
    obtain ⟨_, hfiles'', hshort⟩ := Disk.filesOfAll_of_run hwritten.linkless hagain
    rw [hfiles'] at hfiles''
    cases hfiles''
    exact hshort
  · intro hshort
    rw [Disk.result_readSources] at hread
    obtain ⟨sources', hread'⟩ := Disk.mapM_eq_ok_iff.mpr fun f hf =>
      Disk.readSource_of_short htree hlinks hsound hwritten hsources hpaths hfiles
        ((Disk.result_readSources d files).trans hread) hfiles' hf (hshort f hf)
    rw [← Disk.result_readSources] at hread hread'
    have htypes := hsources.types_again htree hlinks hsound hpaths hfiles hread hfiles' hfilter hread' policy
    have hagain : (after.generateUnits ⟨paths, none⟩ policy).result = .ok units :=
      Disk.generateUnits_eq_ok.mpr ⟨files', sources', hfiles', hread', htypes ▸ hrender⟩
    obtain ⟨hanswer, hsame⟩ := Disk.writeUnits_again hwritten.tree hwritten.linkless hsettled
    rw [Disk.disk_generateAndWrite hagain]
    exact ⟨Disk.generateAndWrite_eq_ok.mpr ⟨units, _, hagain, hanswer, rfl⟩, hsame⟩

/-! ## Two runs on one source -/

/-- A run that looks for sources below a directory, and writes its units below `src`. -/
def Disk.runInside (d : Disk) (p : DiskPath) : DiskRun (List (GeneratedUnit × DiskPath)) :=
  d.generateAndWrite ⟨[p], none⟩ .permissive (DiskPath.ofString "src/o") false

/-- What stands on the disk when such a run has found the one source. -/
def placesInside : List Location :=
  [["w"], ["w", "src"], ["w", "src", "a.rs"], ["w", "src", "o"], ["w", "src", "o", "a"],
    ["w", "src", "o", "a", "A.g.rs"]].map fun names => names.map Text.encode

theorem hasNoRules_of_placesInside {d : Disk} (h : ∀ x ∈ d.entries, x.1 ∈ placesInside) : d.HasNoRules := by
  have hnames : ∀ l ∈ placesInside, ∀ name ∈ DirectoryRules.ruleFiles, l.getLast? ≠ some (Text.encode name) := by
    decide
  exact Disk.HasNoRules.of_entries fun x hx => hnames x.1 (h x hx)

theorem isTree_oneSource : oneSource.IsTree := Disk.isTree_of_entries (by decide) (by decide)

theorem linkless_oneSource : oneSource.Linkless := Disk.linkless_of_entries (by simp [oneSource])

theorem isSound_oneSource : oneSource.IsSound := Disk.IsSound.of_entries (by decide) (by decide)

/-- What the disk is like after a run on the one source that has written its unit. -/
theorem after_runInside {p : DiskPath} {answer : List (GeneratedUnit × DiskPath)}
    (hrun : (oneSource.runInside p).outcome.result = .ok answer)
    (hplaces : (oneSource.runInside p).disk.entries.map Prod.fst = placesInside) {l : Location}
    (hl : oneSource.find p = .ok (l, .directory)) :
    (oneSource.runInside p).disk.IsTree ∧ (oneSource.runInside p).disk.Linkless ∧
      (oneSource.runInside p).disk.IsSound ∧ (oneSource.runInside p).disk.HasNoRules ∧
      oneSource.SameFilters (oneSource.runInside p).disk ∧
      (oneSource.runInside p).disk.find p = .ok (l, .directory) := by
  have hrules : oneSource.HasNoRules := hasNoRules_of_placesInside (by decide)
  have hrules' : (oneSource.runInside p).disk.HasNoRules := by
    refine hasNoRules_of_placesInside fun x hx => ?_
    rw [← hplaces]
    exact List.mem_map_of_mem hx
  obtain ⟨_, _, _, _, hwritten, _, hsound'⟩ :=
    Disk.written_of_run isTree_oneSource linkless_oneSource isSound_oneSource hrun
  exact ⟨hwritten.tree, hwritten.linkless, hsound', hrules',
    Disk.SameFilters.of_hasNoRules linkless_oneSource hwritten.linkless hrules hrules',
    Disk.find_directory_of_unchanged linkless_oneSource hwritten.linkless hwritten.workplace hwritten.directory hl⟩

theorem regeneration_iff_oneSource :
    oneSource.IsTree ∧ oneSource.Linkless ∧ oneSource.IsSound ∧
      (∀ p ∈ [DiskPath.ofString "src"], oneSource.isDirectory p = true) ∧ ∃ answer after,
      (oneSource.runInside (DiskPath.ofString "src")).outcome.result = .ok answer ∧
      (oneSource.runInside (DiskPath.ofString "src")).disk = after ∧ oneSource.SameFilters after ∧
      answer.map Prod.snd = [DiskPath.ofString "src/o/a/A.g.rs"] ∧
      (after.runInside (DiskPath.ofString "src")).outcome.result = .ok answer ∧
      after.SameTree (after.runInside (DiskPath.ofString "src")).disk := by
  have hpaths : ∀ p ∈ [DiskPath.ofString "src"], oneSource.isDirectory p = true := by decide +kernel
  have hrun : ((oneSource.runInside (DiskPath.ofString "src")).outcome.result.toOption.any
      (fun answer => answer.map Prod.snd == [DiskPath.ofString "src/o/a/A.g.rs"]) &&
        (oneSource.runInside (DiskPath.ofString "src")).disk.entries.map Prod.fst == placesInside) = true := by
    decide +kernel
  rw [Bool.and_eq_true, beq_iff_eq] at hrun
  obtain ⟨hanswer, hplaces⟩ := hrun
  obtain ⟨answer, hanswer, hwritten⟩ := (Option.any_eq_true _ _).mp hanswer
  have hok := Except.eq_ok_of_toOption hanswer
  have hfind : oneSource.find (DiskPath.ofString "src") = .ok (["w", "src"].map Text.encode, .directory) :=
    Except.eq_ok_of_toOption (by decide +kernel)
  obtain ⟨htree', _, hsound', _, hfilters, hfind'⟩ := after_runInside hok hplaces hfind
  obtain ⟨files, hfiles, hiff⟩ :=
    regeneration_iff isTree_oneSource linkless_oneSource isSound_oneSource hpaths hok rfl hfilters
  refine ⟨isTree_oneSource, linkless_oneSource, isSound_oneSource, hpaths, answer, _, hok, rfl, hfilters,
    beq_iff_eq.mp hwritten, ?_⟩
  refine hiff.mpr fun f hf => ?_
  obtain ⟨⟨names, e⟩, he, rfl⟩ := (Disk.mem_filesOfAll_singleton htree' hsound' hfind' hfiles).mp hf
  obtain ⟨_, hentry, _⟩ := (Disk.mem_reachedSources hsound').mp he
  have hshort : ∀ l ∈ placesInside,
      ((DiskPath.ofString "src").joinNames (l.drop 2)).bytes.length < Disk.pathLimit := by decide +kernel
  refine hshort (["w", "src"].map Text.encode ++ names) ?_
  rw [← hplaces]
  exact List.mem_map_of_mem (Disk.mem_entries (by simp) hentry)

/-- The next run stops if the path of the unit has become too long. -/
theorem stops_of_long {p : DiskPath} {answer : List (GeneratedUnit × DiskPath)}
    (hrun : (oneSource.runInside p).outcome.result = .ok answer)
    (hplaces : (oneSource.runInside p).disk.entries.map Prod.fst = placesInside)
    (hunit : (oneSource.runInside p).disk.isFileAt (["w", "src", "o", "a", "A.g.rs"].map Text.encode) = true)
    (hl : oneSource.find p = .ok (["w", "src"].map Text.encode, .directory))
    (hlong : Disk.pathLimit ≤ (p.joinNames (["o", "a", "A.g.rs"].map Text.encode)).bytes.length) :
    ∀ again, ((oneSource.runInside p).disk.runInside p).outcome.result ≠ .ok again := by
  intro again hagain
  obtain ⟨htree, hlinks, hsound, hrules, _, hl'⟩ := after_runInside hrun hplaces hl
  obtain ⟨files, hfiles, hshort⟩ := Disk.filesOfAll_of_run hlinks hagain
  obtain ⟨content, he⟩ := Disk.isFileAt_iff.mp hunit
  have hreached : (["o", "a", "A.g.rs"].map Text.encode, .file content) ∈
      (oneSource.runInside p).disk.reachedSources p (["w", "src"].map Text.encode) := by
    have hseen : (["o", "a", "A.g.rs"].map Text.encode).all (fun name => name.head? != some dot) = true := by decide
    rw [Disk.mem_reachedSources hsound, Disk.reaches_of_hasNoRules hlinks hrules]
    exact ⟨by simp, he, rfl, hseen⟩
  have hmem := (Disk.mem_filesOfAll_singleton htree hsound hl' hfiles).mpr ⟨_, hreached, rfl⟩
  exact Nat.not_lt.mpr hlong (hshort _ hmem)

/-- A path to the directory `src` with so many points before it that little can follow. -/
def longPath : DiskPath := ⟨(List.replicate 2041 (Text.encode "./")).flatten ++ Text.encode "src"⟩

/-- A unit may lie so deep below the sources that the next run, which finds it, does not get to read it. -/
theorem long_path_stops :
    oneSource.IsTree ∧ oneSource.Linkless ∧ oneSource.IsSound ∧
      (∀ p ∈ [longPath], oneSource.isDirectory p = true) ∧ ∃ answer after,
      (oneSource.runInside longPath).outcome.result = .ok answer ∧
      (oneSource.runInside longPath).disk = after ∧ oneSource.SameFilters after ∧
      ∀ again, (after.runInside longPath).outcome.result ≠ .ok again := by
  have hpaths : ∀ p ∈ [longPath], oneSource.isDirectory p = true := by decide +kernel
  have hrun : ((oneSource.runInside longPath).outcome.result.toOption.isSome &&
      (oneSource.runInside longPath).disk.entries.map Prod.fst == placesInside &&
      (oneSource.runInside longPath).disk.isFileAt (["w", "src", "o", "a", "A.g.rs"].map Text.encode)) = true := by
    decide +kernel
  rw [Bool.and_eq_true, Bool.and_eq_true, beq_iff_eq] at hrun
  obtain ⟨⟨hanswer, hplaces⟩, hunit⟩ := hrun
  obtain ⟨answer, hanswer⟩ := Option.isSome_iff_exists.mp hanswer
  have hok := Except.eq_ok_of_toOption hanswer
  obtain ⟨l, hl⟩ := Disk.isDirectory_iff.mp (hpaths longPath (List.mem_singleton_self _))
  -- The place is that of the short path with the same components.
  have hshort : oneSource.find (DiskPath.ofString "./src") = .ok (["w", "src"].map Text.encode, .directory) :=
    Except.eq_ok_of_toOption (by decide +kernel)
  have hplace := Disk.place_eq_of_same linkless_oneSource (by decide +kernel) hl hshort
  rw [hplace] at hl
  obtain ⟨_, _, _, _, hfilters, _⟩ := after_runInside hok hplaces hl
  have hlong : Disk.pathLimit ≤ (longPath.joinNames (["o", "a", "A.g.rs"].map Text.encode)).bytes.length := by
    decide +kernel
  exact ⟨isTree_oneSource, linkless_oneSource, isSound_oneSource, hpaths, answer, _, hok, rfl, hfilters,
    stops_of_long hok hplaces hunit hl hlong⟩

end TypedId
