import TypedId.Proofs.DiskListing

/-!
A second look at the sources. Suppose that a disk has changed, and that of what a walk looks at only new
directories and the files of units are different (`SameSources`). Then the walk succeeds once more, finds the
same handwritten files in the same order (`filesOfAll_again`), and still reaches of the old things what it
reached before (`reaches_eq`).
-/
namespace TypedId

open FileName

/-! ## Rules of directories -/

/-- A path that is too long leads to nothing. -/
theorem Disk.find_of_long {p : DiskPath} (h : pathLimit ≤ p.bytes.length) (d : Disk) (x : Location × Entry) :
    d.find p ≠ .ok x := by
  have herror : pathError? p ≠ none := fun hnone => Nat.not_lt.mpr h (pathError?_eq_none.mp hnone).2.2
  obtain ⟨e, he⟩ := Option.ne_none_iff_exists'.mp herror
  unfold find resolve
  rw [he]
  simp [bind, Except.bind]

namespace DirectoryRules

/-- The rules of a directory that holds no file with rules. -/
def empty (directory : DiskPath) : DirectoryRules :=
  ⟨⟨directory.bytes, []⟩, ⟨directory.bytes, []⟩, ⟨directory.bytes, []⟩, false, []⟩

/-- The names of the files with rules and of the repository. -/
def ruleFiles : List String := [".ignore", ".gitignore", ".git"]

theorem readFile_of_not_found {d : Disk} {file : DiskPath} (h : ∀ x, d.find file ≠ .ok x) :
    readFile d file = ([], []) := by
  unfold readFile Disk.read
  cases hfind : d.find file with
  | ok x => exact absurd hfind (h x)
  | error e => rfl

theorem repository?_of_not_found {d : Disk} {directory : DiskPath} (h : ∀ x, d.find (child directory ".git") ≠ .ok x) :
    repository? d directory = none := by
  unfold repository?
  cases hfind : d.find (child directory ".git") with
  | ok x => exact absurd hfind (h x)
  | error e => rfl

theorem read_of_not_found {d : Disk} {directory : DiskPath}
    (h : ∀ name ∈ ruleFiles, ∀ x, d.find (child directory name) ≠ .ok x) : read d directory = empty directory := by
  have hgit := h ".git" (by decide)
  have hpresent : d.isPresent (child directory ".git") = false := by
    unfold Disk.isPresent
    cases hfind : d.find (child directory ".git") with
    | ok x => exact absurd hfind (hgit x)
    | error e => rfl
  unfold read
  rw [repository?_of_not_found hgit, hpresent, readFile_of_not_found (h ".ignore" (by decide)),
    readFile_of_not_found (h ".gitignore" (by decide))]
  rfl

/-- A directory whose path is too long has no rules. -/
theorem read_of_long {directory : DiskPath} (h : Disk.pathLimit ≤ directory.bytes.length) (d : Disk) :
    read d directory = empty directory := by
  refine read_of_not_found fun name hname x => Disk.find_of_long ?_ d x
  have hslash : slash ∉ Text.encode name := by
    revert name
    decide
  obtain ⟨between, hbytes, _⟩ := DiskPath.bytes_join directory hslash
  change _ ≤ (directory.join ⟨Text.encode name⟩).bytes.length
  rw [hbytes, List.length_append, List.length_append]
  omega

end DirectoryRules

/-- No file with rules and no repository stands on the disk. -/
def Disk.HasNoRules (d : Disk) : Prop :=
  ∀ name ∈ DirectoryRules.ruleFiles, ∀ l, d.entry? (l ++ [Text.encode name]) = none

theorem Disk.HasNoRules.of_entries {d : Disk}
    (h : ∀ x ∈ d.entries, ∀ name ∈ DirectoryRules.ruleFiles, x.1.getLast? ≠ some (Text.encode name)) :
    d.HasNoRules := by
  intro name hname l
  rw [Option.eq_none_iff_forall_ne_some]
  intro e he
  exact h _ (mem_entries (by simp) he) name hname List.getLast?_concat

/-- Where no rules stand, none are found. -/
theorem DirectoryRules.not_found_of_hasNoRules {d : Disk} (hlinks : d.Linkless) (h : d.HasNoRules)
    (directory : DiskPath) : ∀ name ∈ ruleFiles, ∀ x, d.find (child directory name) ≠ .ok x := by
  intro name hname x hfind
  have hproper : FileName.IsProper (Text.encode name) := by
    have hall : ∀ name ∈ ruleFiles, Text.encode name ≠ [] ∧ slash ∉ Text.encode name ∧ Text.encode name ≠ [dot] ∧
        Text.encode name ≠ [dot, dot] := by decide
    obtain ⟨hnil, hslash, hhere, hup⟩ := hall name hname
    exact ⟨hnil, hslash, hhere, hup⟩
  have hnames : ∀ m ∈ ([] : List FileName) ++ [Text.encode name], m.IsProper := by simpa using hproper
  have hto : Disk.LeadsTo (child directory name) (directory.named ++ []) (Text.encode name) :=
    Disk.leadsTo_descend directory hnames
  obtain ⟨_, _, hplace, hentry⟩ := (Disk.find_eq_ok_iff hlinks).mp hfind
  rw [hto.steps, Disk.walkTo_append, Disk.walkTo_of_isProper (by simpa using hproper)] at hplace
  rw [← hplace, h name hname] at hentry
  cases hentry

theorem DirectoryRules.read_of_hasNoRules {d : Disk} (hlinks : d.Linkless) (h : d.HasNoRules) (directory : DiskPath) :
    read d directory = empty directory := read_of_not_found (not_found_of_hasNoRules hlinks h directory)

/-- Where no directory has rules, a name is passed over exactly if it begins with a point. -/
theorem PlacedRules.admits_of_empty {chain : List PlacedRules}
    (h : ∀ p ∈ chain, ∃ directory, p.rules = .empty directory) (name : FileName) (isDirectory : Bool) :
    admits chain name isDirectory = (name.head? != some dot) := by
  have hrepository : upToRepository chain = [] := by
    induction chain with
    | nil => rfl
    | cons p rest ih =>
      obtain ⟨directory, hp⟩ := h p List.mem_cons_self
      have hfalse : p.rules.isRepository = false := by rw [hp]; rfl
      rw [upToRepository, hfalse, if_neg Bool.false_ne_true, ih fun q hq => h q (List.mem_cons_of_mem p hq)]
  have hown : (chain.findSome? fun p => p.rules.own.verdict? p.path isDirectory) = none := by
    rw [List.findSome?_eq_none_iff]
    intro p hp
    obtain ⟨directory, hempty⟩ := h p hp
    rw [hempty]
    rfl
  unfold admits verdict?
  rw [hrepository, hown]
  rfl

theorem WalkRoot.reaches_of_empty {d : Disk} {w : WalkRoot} (hread : ∀ p, DirectoryRules.read d p = .empty p)
    (haround : ∀ rules ∈ w.around, ∃ directory, rules = .empty directory) (isDirectory : Bool)
    {inside : List DirectoryRules} (hinside : ∀ rules ∈ inside, ∃ directory, rules = .empty directory)
    (gone names : Location) :
    w.reaches d isDirectory inside gone names = names.all fun name => name.head? != some dot := by
  induction names generalizing inside gone with
  | nil => rfl
  | cons name rest ih =>
    have hnext : ∀ rules ∈ DirectoryRules.read d (w.path.joinNames gone) :: inside,
        ∃ directory, rules = .empty directory := by
      intro rules hrules
      rcases List.mem_cons.mp hrules with rfl | hrules
      · exact ⟨_, hread _⟩
      · exact hinside rules hrules
    rw [reaches, ih hnext, List.all_cons, PlacedRules.admits_of_empty]
    intro p hp
    rcases List.mem_append.mp hp with hp | hp
    · obtain ⟨rules, hrules, rfl⟩ := List.mem_map.mp hp
      exact hnext rules hrules
    · obtain ⟨rules, hrules, rfl⟩ := List.mem_map.mp hp
      exact haround rules hrules

/-! ## Names of source files -/

/-- The name of a source file that is not the file of a unit. -/
def FileName.isHandwritten (n : FileName) : Bool :=
  n.extension? == some Disk.sourceExtension && !unitEnding.isSuffixOf n

/-- The file has the name of a source file that is not the file of a unit. -/
def FoundFile.isHandwritten (f : FoundFile) : Bool := f.path.fileName?.any FileName.isHandwritten

theorem FoundFile.respectsPaths_isHandwritten : RespectsPaths isHandwritten := by
  intro f g hsame
  have hcomponents : f.path.components = g.path.components := by simpa [DiskPath.same] using hsame
  rw [isHandwritten, isHandwritten, DiskPath.fileName?, DiskPath.fileName?, hcomponents]

theorem FileName.isHandwritten_unit (own : FileName) : isHandwritten (own ++ unitEnding) = false := by
  have hsuffix : unitEnding.isSuffixOf (own ++ unitEnding) = true :=
    List.isSuffixOf_iff_suffix.mpr (List.suffix_append own unitEnding)
  rw [isHandwritten, hsuffix]
  simp

theorem FileName.isHandwritten_staging (own : FileName) : isHandwritten (own ++ stagingEnding) = false := by
  have hextension : (some [116, 109, 112] == some Disk.sourceExtension) = false := by decide
  rw [isHandwritten, extension?, splitAtDot?_staging, Option.map_some, hextension, Bool.false_and]

namespace Disk

/-- What stands at the end of the names is a source file. -/
def isSourceAt (e : Location × Entry) : Bool :=
  match e.2 with
  | .file _ => e.1.getLast?.bind FileName.extension? == some sourceExtension
  | _ => false

/-- What stands at the end of the names is a source file that is not the file of a unit. -/
def isHandwrittenAt (e : Location × Entry) : Bool :=
  match e.2 with
  | .file _ => e.1.getLast?.any FileName.isHandwritten
  | _ => false

/-- Every directory of the first disk has the same rules on the second. -/
def SameFilters (d d' : Disk) : Prop :=
  ∀ p, d.isDirectory p = true → DirectoryRules.read d' p = DirectoryRules.read d p

theorem SameFilters.of_hasNoRules {d d' : Disk} (hlinks : d.Linkless) (hlinks' : d'.Linkless) (h : d.HasNoRules)
    (h' : d'.HasNoRules) : SameFilters d d' := by
  intro p _
  rw [DirectoryRules.read_of_hasNoRules hlinks h, DirectoryRules.read_of_hasNoRules hlinks' h']

/-- Nothing that a walk looks at is different on the second disk, but for directories that are new and for
source files that are those of units. -/
structure SameSources (d d' : Disk) : Prop where
  tree : d'.IsTree
  linkless : d'.Linkless
  sound : d'.IsSound
  workplace : d'.workplace = d.workplace
  directory : ∀ l, d.isDirectoryAt l = true → d'.isDirectoryAt l = true
  handwritten : ∀ l n content, n.isHandwritten = true →
    (d'.entry? (l ++ [n]) = some (.file content) ↔ d.entry? (l ++ [n]) = some (.file content))
  filters : SameFilters d d'

/-! ## Walks -/

theorem resolve_of_find {d : Disk} {p : DiskPath} {l : Location} {e : Entry} (h : d.find p = .ok (l, e)) :
    d.resolve true p = .ok l := by
  unfold find at h
  cases hresolve : d.resolve true p with
  | error cause =>
    rw [hresolve] at h
    cases h
  | ok l' =>
    rw [hresolve] at h
    simp only [bind, Except.bind] at h
    split at h
    · cases h
      rfl
    · cases h

/-- The directory at a place, as it is walked by a path. -/
def walkRoot (d : Disk) (p : DiskPath) (l : Location) : WalkRoot :=
  ⟨p, pathOf l, (placesAround l).map fun place => DirectoryRules.read d (pathOf place)⟩

theorem walkDirectory_eq_ok {d : Disk} {p : DiskPath} {l : Location} (hp : d.resolve true p = .ok l)
    {found : List (DiskPath × Entry)} :
    d.walkDirectory p = .ok found ↔
      (d.walkRoot p l).around.reverse.flatMap DirectoryRules.faults = [] ∧
        ((d.below l).filter fun e => (d.walkRoot p l).reaches d (e.2 == .directory) [] [] e.1).map
          (fun e => (p.joinNames e.1, e.2)) = found := by
  have hmap : ∀ xs : List (Location × Entry),
      (xs.filterMap fun e =>
        if (d.walkRoot p l).reaches d (e.2 == .directory) [] [] e.1 then some (p.joinNames e.1, e.2) else none) =
      (xs.filter fun e => (d.walkRoot p l).reaches d (e.2 == .directory) [] [] e.1).map
        fun e => (p.joinNames e.1, e.2) := by
    intro xs
    rw [← List.filterMap_eq_map', List.filterMap_filter]
  have hroot : d.walkRoot p l =
      ⟨p, pathOf l, (placesAround l).map fun place => DirectoryRules.read d (pathOf place)⟩ := rfl
  rw [← hmap, hroot]
  unfold walkDirectory
  rw [hp]
  dsimp only
  split
  · next hfaults => simp [hfaults]
  · next hfaults => simp [hfaults]

theorem reaches_congr {d d' : Disk} {w : WalkRoot} {gone names : Location}
    (h : ∀ before, before <+: gone ++ names → before ≠ gone ++ names →
      DirectoryRules.read d' (w.path.joinNames before) = DirectoryRules.read d (w.path.joinNames before))
    (isDirectory : Bool) (inside : List DirectoryRules) :
    w.reaches d' isDirectory inside gone names = w.reaches d isDirectory inside gone names := by
  induction names generalizing gone inside with
  | nil => rfl
  | cons name rest ih =>
    have hhere := h gone (List.prefix_append gone _) (by simp)
    rw [List.append_cons] at h
    simp only [WalkRoot.reaches, hhere, ih h]

theorem reaches_of_hasNoRules {d : Disk} (hlinks : d.Linkless) (h : d.HasNoRules) (p : DiskPath) (l names : Location)
    (isDirectory : Bool) :
    (d.walkRoot p l).reaches d isDirectory [] [] names = names.all fun name => name.head? != some dot := by
  have hread := DirectoryRules.read_of_hasNoRules hlinks h
  refine WalkRoot.reaches_of_empty hread (fun rules hrules => ?_) isDirectory (by simp) [] names
  obtain ⟨place, _, rfl⟩ := List.mem_map.mp hrules
  exact ⟨_, hread _⟩

/-- The path of the root leads there. -/
theorem find_root {d : Disk} (hlinks : d.Linkless) : d.find ⟨[slash]⟩ = .ok ([], .directory) := by
  have hsteps : steps ⟨[slash]⟩ = [herePiece] := by decide
  have hstart : start d.workplace ⟨[slash]⟩ = [] := rfl
  refine (find_eq_ok_iff hlinks).mpr ⟨by decide, ?_, ?_, rfl⟩
  · rw [hsteps, hstart]
    exact ⟨rfl, by rw [if_pos rfl]; trivial⟩
  · rw [hsteps, hstart]
    rfl

namespace SameSources

variable {d d' : Disk} (h : SameSources d d') (htree : d.IsTree) (hlinks : d.Linkless) (hsound : d.IsSound)
include h htree hlinks hsound

/-- Directories that were there have their rules, whatever path they are looked at by. -/
theorem read_eq {p : DiskPath} {l : Location} (hp : d.find p = .ok (l, .directory)) {names : Location}
    (hdir : d.isDirectoryAt (l ++ names) = true) :
    DirectoryRules.read d' (p.joinNames names) = DirectoryRules.read d (p.joinNames names) := by
  by_cases hshort : (p.joinNames names).bytes.length < pathLimit
  · refine h.filters _ (isDirectory_iff.mpr ⟨l ++ names, ?_⟩)
    exact find_joinNames htree hlinks hsound hp (isDirectoryAt_iff.mp hdir) hshort
  · rw [DirectoryRules.read_of_long (Nat.le_of_not_lt hshort), DirectoryRules.read_of_long (Nat.le_of_not_lt hshort)]

theorem walkRoot_eq {p : DiskPath} {l : Location} (hp : d.find p = .ok (l, .directory)) :
    d'.walkRoot p l = d.walkRoot p l := by
  obtain ⟨_, _, _, hdir⟩ := (find_eq_ok_iff hlinks).mp hp
  unfold walkRoot
  congr 1
  refine List.map_congr_left fun place hplace => ?_
  obtain ⟨length, hlength, rfl⟩ := List.mem_map.mp hplace
  rw [List.mem_reverse, List.mem_range] at hlength
  refine h.read_eq htree hlinks hsound (find_root hlinks) ?_
  have hbelow : l.drop length ≠ [] := by
    rw [← List.length_pos_iff, List.length_drop]
    omega
  refine htree.isDirectoryAt_of_below hbelow ?_
  rw [List.nil_append, List.take_append_drop, hdir]
  simp

theorem reaches_eq {p : DiskPath} {l : Location} (hp : d.find p = .ok (l, .directory)) {names : Location}
    (hfound : d.entry? (l ++ names) ≠ none) (isDirectory : Bool) :
    (d'.walkRoot p l).reaches d' isDirectory [] [] names = (d.walkRoot p l).reaches d isDirectory [] [] names := by
  rw [h.walkRoot_eq htree hlinks hsound hp]
  refine reaches_congr ?_ isDirectory []
  intro before hbefore hne
  obtain ⟨after, hafter⟩ := hbefore
  rw [List.nil_append] at hafter hne
  have hbelow : after ≠ [] := by
    intro hnil
    exact hne (by rw [← hafter, hnil, List.append_nil])
  refine h.read_eq htree hlinks hsound hp (htree.isDirectoryAt_of_below hbelow ?_)
  rwa [List.append_assoc, hafter]

end SameSources

/-! ## Found files -/

/-- The source files that are reached below a walked directory, by the names that lead to them. -/
def reachedSources (d : Disk) (p : DiskPath) (l : Location) : List (Location × Entry) :=
  (d.below l).filter fun e => isSourceAt e && (d.walkRoot p l).reaches d false [] [] e.1

theorem mem_reachedSources {d : Disk} (hsound : d.IsSound) {p : DiskPath} {l : Location} {e : Location × Entry} :
    e ∈ d.reachedSources p l ↔ e.1 ≠ [] ∧ d.entry? (l ++ e.1) = some e.2 ∧ isSourceAt e = true ∧
      (d.walkRoot p l).reaches d false [] [] e.1 = true := by
  rw [reachedSources, List.mem_filter, hsound.mem_below, Bool.and_eq_true, and_assoc]

theorem isFile_of_isSourceAt {e : Location × Entry} (h : isSourceAt e = true) : ∃ content, e.2 = .file content := by
  obtain ⟨names, entry⟩ := e
  cases entry with
  | file content => exact ⟨content, rfl⟩
  | _ => cases h

theorem isSourceAt_of_isHandwrittenAt {e : Location × Entry} (h : isHandwrittenAt e = true) : isSourceAt e = true := by
  obtain ⟨names, entry⟩ := e
  cases entry with
  | file content =>
    obtain ⟨n, hn, hname⟩ := (Option.any_eq_true _ _).mp h
    rw [FileName.isHandwritten, Bool.and_eq_true] at hname
    rw [isSourceAt, show names.getLast? = some n from hn]
    exact hname.1
  | _ => cases h

theorem fileName?_joinNames (p : DiskPath) {names : Location} (hne : names ≠ []) (hproper : ∀ n ∈ names, n.IsProper) :
    (p.joinNames names).fileName? = names.getLast? := by
  obtain ⟨init, n, rfl⟩ := (List.eq_nil_or_concat names).resolve_left hne
  rw [List.concat_eq_append] at hproper ⊢
  rw [DiskPath.fileName?, DiskPath.joinNames_eq_descend, DiskPath.components_descend p hproper, List.map_append,
    List.map_singleton, ← List.append_assoc, List.getLast?_concat, List.getLast?_concat]
  rfl

section Found

variable {d : Disk} (htree : d.IsTree) (hsound : d.IsSound)
include htree hsound

theorem isSource_joinNames (p : DiskPath) {l : Location} {e : Location × Entry} (he : e ∈ d.below l) :
    isSource (p.joinNames e.1, e.2) = isSourceAt e := by
  obtain ⟨hne, hentry⟩ := hsound.mem_below.mp he
  have hname := fileName?_joinNames p hne (hsound.isProper_of_found htree hentry)
  unfold isSource isSourceAt
  cases e.2 with
  | file content => rw [hname]
  | _ => rfl

theorem isHandwritten_joinNames (p : DiskPath) {l : Location} {e : Location × Entry} (he : e ∈ d.reachedSources p l)
    (base : DiskPath) : FoundFile.isHandwritten ⟨p.joinNames e.1, base⟩ = isHandwrittenAt e := by
  obtain ⟨hne, hentry, hsource, _⟩ := (mem_reachedSources hsound).mp he
  have hname := fileName?_joinNames p hne (hsound.isProper_of_found htree hentry)
  obtain ⟨content, hfile⟩ := isFile_of_isSourceAt hsource
  unfold FoundFile.isHandwritten isHandwrittenAt
  rw [hname, hfile]

theorem filesOf_eq_ok {p : DiskPath} {l : Location} (hp : d.find p = .ok (l, .directory)) {files : List FoundFile} :
    d.filesOf none p = .ok files ↔
      (d.walkRoot p l).around.reverse.flatMap DirectoryRules.faults = [] ∧
        (d.reachedSources p l).map (fun e => ⟨p.joinNames e.1, p⟩) = files := by
  have hpresent : d.isPresent p = true := by
    unfold isPresent
    rw [hp]
  have hdir : d.isDirectory p = true := isDirectory_iff.mpr ⟨l, hp⟩
  have hwalk := fun found => (walkDirectory_eq_ok (resolve_of_find hp) : d.walkDirectory p = .ok found ↔ _)
  unfold filesOf
  rw [hpresent, hdir, Bool.not_true, if_neg Bool.false_ne_true, if_pos rfl]
  cases hfound : d.walkDirectory p with
  | error e =>
    have hfaults : (d.walkRoot p l).around.reverse.flatMap DirectoryRules.faults ≠ [] := by
      intro hnil
      rw [(hwalk _).mpr ⟨hnil, rfl⟩] at hfound
      cases hfound
    simp [hfaults, Except.map]
  | ok found =>
    obtain ⟨hfaults, rfl⟩ := (hwalk found).mp hfound
    -- What is listed as a source is a file, so the walk has not taken it for a directory.
    have hfilter : ((d.below l).filter fun e => (d.walkRoot p l).reaches d (e.2 == .directory) [] [] e.1).filter
        (isSource ∘ fun e => (p.joinNames e.1, e.2)) = d.reachedSources p l := by
      rw [List.filter_filter, reachedSources]
      refine List.filter_congr fun e he => ?_
      rw [Function.comp, isSource_joinNames htree hsound p he]
      cases hsource : isSourceAt e with
      | false => rfl
      | true =>
        obtain ⟨content, hfile⟩ := isFile_of_isSourceAt hsource
        have hkind : (e.2 == .directory) = false := by rw [hfile]; rfl
        rw [hkind]
    simp only [hfaults, true_and, Except.map, List.filter_map, hfilter, List.map_map, Except.ok.injEq]
    rfl

theorem filter_isHandwritten (p : DiskPath) (l : Location) :
    ((d.reachedSources p l).map fun e => (⟨p.joinNames e.1, p⟩ : FoundFile)).filter FoundFile.isHandwritten =
      ((d.reachedSources p l).filter isHandwrittenAt).map fun e => ⟨p.joinNames e.1, p⟩ := by
  rw [List.filter_map]
  congr 1
  exact List.filter_congr fun e he => isHandwritten_joinNames htree hsound p he p

end Found

namespace SameSources

variable {d d' : Disk} (h : SameSources d d') (htree : d.IsTree) (hlinks : d.Linkless) (hsound : d.IsSound)
include h htree hlinks hsound

theorem filter_reachedSources {p : DiskPath} {l : Location} (hp : d.find p = .ok (l, .directory)) :
    (d'.reachedSources p l).filter isHandwrittenAt = (d.reachedSources p l).filter isHandwrittenAt := by
  have hsplit : ∀ x : Disk, (x.reachedSources p l).filter isHandwrittenAt =
      ((x.below l).filter isHandwrittenAt).filter fun e => (x.walkRoot p l).reaches x false [] [] e.1 := by
    intro x
    rw [reachedSources, List.filter_filter, List.filter_filter]
    refine List.filter_congr fun e _ => ?_
    cases hhand : isHandwrittenAt e with
    | false => simp
    | true => simp [isSourceAt_of_isHandwrittenAt hhand]
  have hbelow : (d'.below l).filter isHandwrittenAt = (d.below l).filter isHandwrittenAt := by
    refine hsound.filter_below_eq h.sound ?_
    intro names e hne hhand
    obtain ⟨init, n, rfl⟩ := (List.eq_nil_or_concat names).resolve_left hne
    rw [List.concat_eq_append] at hhand ⊢
    obtain ⟨content, rfl⟩ := isFile_of_isSourceAt (isSourceAt_of_isHandwrittenAt hhand)
    rw [← List.append_assoc]
    refine h.handwritten _ n content ?_
    simpa [isHandwrittenAt] using hhand
  rw [hsplit, hsplit, hbelow]
  refine List.filter_congr fun e he => ?_
  refine h.reaches_eq htree hlinks hsound hp ?_ false
  rw [(hsound.mem_below.mp (List.mem_filter.mp he).1).2]
  simp

omit htree hsound in
theorem find_eq {p : DiskPath} {l : Location} (hp : d.find p = .ok (l, .directory)) :
    d'.find p = .ok (l, .directory) :=
  find_directory_of_unchanged hlinks h.linkless h.workplace h.directory hp

theorem filesOf_again {p : DiskPath} (hp : d.isDirectory p = true) {files : List FoundFile}
    (hfiles : d.filesOf none p = .ok files) :
    ∃ files', d'.filesOf none p = .ok files' ∧
      files'.filter FoundFile.isHandwritten = files.filter FoundFile.isHandwritten := by
  obtain ⟨l, hl⟩ := isDirectory_iff.mp hp
  have hl' := h.find_eq hlinks hl
  obtain ⟨hfaults, rfl⟩ := (filesOf_eq_ok htree hsound hl).mp hfiles
  rw [← h.walkRoot_eq htree hlinks hsound hl] at hfaults
  refine ⟨_, (filesOf_eq_ok h.tree h.sound hl').mpr ⟨hfaults, rfl⟩, ?_⟩
  rw [filter_isHandwritten h.tree h.sound, filter_isHandwritten htree hsound,
    h.filter_reachedSources htree hlinks hsound hl]

end SameSources

/-! ## Paths with the same components -/

/-- The place that components lead to where no link is on the way. -/
def walkComponents (here : Location) : List Component → Location
  | [] => here
  | .root :: rest => walkComponents [] rest
  | .here :: rest => walkComponents here rest
  | .up :: rest => walkComponents here.dropLast rest
  | .name n :: rest => walkComponents (here ++ [n]) rest

theorem walkTo_pieces (here : Location) (pieces : List FileName) :
    walkTo here (pieces.filter fun piece => !piece.isEmpty) =
      walkComponents here (pieces.filterMap DiskPath.component?) := by
  induction pieces generalizing here with
  | nil => rfl
  | cons piece rest ih =>
    by_cases hempty : piece = []
    · rw [hempty, List.filter_cons_of_neg (by simp), List.filterMap_cons_none DiskPath.component?_nil, ih]
    · rw [List.filter_cons_of_pos (by simpa using hempty), walkTo]
      by_cases hhere : piece = herePiece
      · have hnone : DiskPath.component? piece = none := by rw [hhere]; rfl
        rw [if_pos hhere, List.filterMap_cons_none hnone, ih]
      · rw [if_neg hhere]
        by_cases hup : piece = upPiece
        · have hsome : DiskPath.component? piece = some .up := by rw [hup]; rfl
          rw [if_pos hup, List.filterMap_cons_some hsome, walkComponents, ih]
        · have hsome : DiskPath.component? piece = some (.name piece) := by
            unfold DiskPath.component?
            rw [if_neg (by simpa [hempty] using show piece ≠ [dot] from hhere),
              if_neg (show piece ≠ [dot, dot] from hup)]
          rw [if_neg hup, List.filterMap_cons_some hsome, walkComponents, ih]

/-- Where a path leads is told by its components. -/
theorem walkTo_steps (workplace : Location) (p : DiskPath) :
    walkTo (start workplace p) (steps p) = walkComponents workplace p.components := by
  rw [walkTo_steps_named, DiskPath.named, walkTo_pieces, start]
  cases hkind : p.isAbsolute with
  | true =>
    rw [if_pos rfl, DiskPath.components_of_isAbsolute hkind, walkComponents]
  | false =>
    obtain ⟨first, rest, hpieces⟩ := List.exists_cons_of_ne_nil (Text.split_ne_nil slash p.bytes)
    have hpieces : p.pieces = first :: rest := hpieces
    rw [if_neg Bool.false_ne_true, DiskPath.components_of_not_isAbsolute hkind hpieces, hpieces]
    by_cases hpoint : first = [dot]
    · rw [if_pos hpoint, hpoint, List.filterMap_cons_none rfl]
      rfl
    · rw [if_neg hpoint]
      cases hfirst : DiskPath.component? first with
      | none => rw [List.filterMap_cons_none hfirst]; rfl
      | some c => rw [List.filterMap_cons_some hfirst]; rfl

/-- Paths with the same components lead to the same place. -/
theorem place_eq_of_same {d : Disk} (hlinks : d.Linkless) {p q : DiskPath} (hsame : p.same q = true)
    {l l' : Location} {e e' : Entry} (hp : d.find p = .ok (l, e)) (hq : d.find q = .ok (l', e')) : l = l' := by
  obtain ⟨_, _, rfl, _⟩ := (find_eq_ok_iff hlinks).mp hp
  obtain ⟨_, _, rfl, _⟩ := (find_eq_ok_iff hlinks).mp hq
  have hcomponents : p.components = q.components := by simpa [DiskPath.same] using hsame
  rw [walkTo_steps, walkTo_steps, hcomponents]

/-! ## Lists of answers -/

theorem mapM_cons_eq_ok {α β ε : Type} {f : α → Except ε β} {x : α} {xs : List α} {ys : List β} :
    (x :: xs).mapM f = .ok ys ↔ ∃ y more, f x = .ok y ∧ xs.mapM f = .ok more ∧ ys = y :: more := by
  rw [List.mapM_cons]
  cases f x with
  | error e => simp [bind, Except.bind]
  | ok y =>
    cases xs.mapM f with
    | error e => simp [bind, Except.bind]
    | ok more => simp [bind, Except.bind, pure, Except.pure, eq_comm]

theorem mapM_eq_ok_iff {α β ε : Type} {f : α → Except ε β} {xs : List α} :
    (∃ ys, xs.mapM f = .ok ys) ↔ ∀ x ∈ xs, ∃ y, f x = .ok y := by
  induction xs with
  | nil => exact ⟨fun _ _ hx => (List.not_mem_nil hx).elim, fun _ => ⟨[], rfl⟩⟩
  | cons x rest ih =>
    constructor
    · rintro ⟨ys, hys⟩ z hz
      obtain ⟨y, more, hy, hmore, rfl⟩ := mapM_cons_eq_ok.mp hys
      rcases List.mem_cons.mp hz with rfl | hz
      · exact ⟨y, hy⟩
      · exact ih.mp ⟨more, hmore⟩ z hz
    · intro h
      obtain ⟨y, hy⟩ := h x List.mem_cons_self
      obtain ⟨more, hmore⟩ := ih.mpr fun z hz => h z (List.mem_cons_of_mem x hz)
      exact ⟨y :: more, mapM_cons_eq_ok.mpr ⟨y, more, hy, hmore, rfl⟩⟩

theorem mapM_congr {α β ε : Type} {f g : α → Except ε β} {xs : List α} {ys : List β}
    (h : ∀ x ∈ xs, ∀ y, f x = .ok y → g x = .ok y) (hf : xs.mapM f = .ok ys) : xs.mapM g = .ok ys := by
  induction xs generalizing ys with
  | nil => exact hf
  | cons x rest ih =>
    obtain ⟨y, more, hy, hmore, rfl⟩ := mapM_cons_eq_ok.mp hf
    have hrest := ih (fun z hz => h z (List.mem_cons_of_mem x hz)) hmore
    exact mapM_cons_eq_ok.mpr ⟨y, more, h x List.mem_cons_self y hy, hrest, rfl⟩

/-- What gives nothing may be left out. -/
theorem mapM_filter {α β γ ε : Type} {f : α → Except ε β} {k : β → List γ} {q : α → Bool} {xs : List α} {ys : List β}
    (h : ∀ x ∈ xs, q x = false → ∀ y, f x = .ok y → k y = []) (hf : xs.mapM f = .ok ys) :
    ∃ zs, (xs.filter q).mapM f = .ok zs ∧ zs.flatMap k = ys.flatMap k := by
  induction xs generalizing ys with
  | nil =>
    cases hf
    exact ⟨[], rfl, rfl⟩
  | cons x rest ih =>
    obtain ⟨y, more, hy, hmore, rfl⟩ := mapM_cons_eq_ok.mp hf
    obtain ⟨zs, hzs, hflat⟩ := ih (fun z hz => h z (List.mem_cons_of_mem x hz)) hmore
    cases hx : q x with
    | false =>
      refine ⟨zs, by rw [List.filter_cons_of_neg (by simp [hx]), hzs], ?_⟩
      rw [List.flatMap_cons, h x List.mem_cons_self hx y hy, List.nil_append, hflat]
    | true =>
      refine ⟨y :: zs, ?_, by rw [List.flatMap_cons, List.flatMap_cons, hflat]⟩
      rw [List.filter_cons_of_pos hx]
      exact mapM_cons_eq_ok.mpr ⟨y, zs, hy, hzs, rfl⟩

section Lists

variable {α β ε : Type} {f g : α → Except ε (List β)}

theorem mapM_again {q : β → Bool} {xs : List α} {ys : List (List β)}
    (h : ∀ x ∈ xs, ∀ y, f x = .ok y → ∃ y', g x = .ok y' ∧ y'.filter q = y.filter q) (hf : xs.mapM f = .ok ys) :
    ∃ ys', xs.mapM g = .ok ys' ∧ ys'.flatten.filter q = ys.flatten.filter q := by
  induction xs generalizing ys with
  | nil =>
    cases hf
    exact ⟨[], rfl, rfl⟩
  | cons x rest ih =>
    obtain ⟨y, more, hy, hmore, rfl⟩ := mapM_cons_eq_ok.mp hf
    obtain ⟨y', hy', hfilter⟩ := h x List.mem_cons_self y hy
    obtain ⟨more', hmore', hrest⟩ := ih (fun z hz => h z (List.mem_cons_of_mem x hz)) hmore
    refine ⟨y' :: more', mapM_cons_eq_ok.mpr ⟨y', more', hy', hmore', rfl⟩, ?_⟩
    rw [List.flatten_cons, List.flatten_cons, List.filter_append, List.filter_append, hfilter, hrest]

theorem mem_flatten_of_mapM {xs : List α} {ys : List (List β)} (hf : xs.mapM f = .ok ys) {b : β} :
    b ∈ ys.flatten ↔ ∃ x ∈ xs, ∃ y, f x = .ok y ∧ b ∈ y := by
  induction xs generalizing ys with
  | nil =>
    cases hf
    simp
  | cons x rest ih =>
    obtain ⟨y, more, hy, hmore, rfl⟩ := mapM_cons_eq_ok.mp hf
    rw [List.flatten_cons, List.mem_append, ih hmore]
    simp [hy]

end Lists

/-! ## All inputs -/

theorem filesOfAll_eq_ok {d : Disk} {inputs : Inputs} {files : List FoundFile} :
    d.filesOfAll inputs = .ok files ↔ ∃ found, inputs.paths.mapM (d.filesOf inputs.root) = .ok found ∧
      FoundFile.dropRepeated (found.flatten.mergeSort FoundFile.atMost) = files := by
  unfold filesOfAll
  cases inputs.paths.mapM (d.filesOf inputs.root) with
  | error e => simp [Except.map]
  | ok found => simp [Except.map]

/-- The files of several inputs are files of each, and each path of such a file is there. -/
theorem mem_filesOfAll {d : Disk} {inputs : Inputs} {files : List FoundFile} (h : d.filesOfAll inputs = .ok files) :
    (∀ f ∈ files, ∃ p ∈ inputs.paths, ∃ found, d.filesOf inputs.root p = .ok found ∧ f ∈ found) ∧
      ∀ p ∈ inputs.paths, ∀ found, d.filesOf inputs.root p = .ok found → ∀ f ∈ found,
        ∃ g ∈ files, f.path.same g.path = true := by
  obtain ⟨found, hfound, rfl⟩ := filesOfAll_eq_ok.mp h
  constructor
  · intro f hf
    have hmem := FoundFile.mem_of_mem_dropRepeated hf
    rw [List.mem_mergeSort] at hmem
    exact (mem_flatten_of_mapM hfound).mp hmem
  · intro p hp files hfiles f hf
    refine FoundFile.exists_same_of_mem ?_
    rw [List.mem_mergeSort]
    exact (mem_flatten_of_mapM hfound).mpr ⟨p, hp, files, hfiles, hf⟩

/-- Below a single input the sources are found that are reached there. -/
theorem mem_filesOfAll_singleton {d : Disk} (htree : d.IsTree) (hsound : d.IsSound) {p : DiskPath} {l : Location}
    (hl : d.find p = .ok (l, .directory)) {files : List FoundFile} (hfiles : d.filesOfAll ⟨[p], none⟩ = .ok files)
    {f : FoundFile} : f ∈ files ↔ ∃ e ∈ d.reachedSources p l, ⟨p.joinNames e.1, p⟩ = f := by
  obtain ⟨found, hfound, _⟩ := filesOfAll_eq_ok.mp hfiles
  obtain ⟨own, hown⟩ := mapM_eq_ok_iff.mp ⟨found, hfound⟩ p (List.mem_singleton_self p)
  obtain ⟨_, rfl⟩ := (filesOf_eq_ok htree hsound hl).mp hown
  have hreached : ∀ {g}, g ∈ files → ∃ e ∈ d.reachedSources p l, ⟨p.joinNames e.1, p⟩ = g := by
    intro g hg
    obtain ⟨q, hq, own', hown', hg⟩ := (mem_filesOfAll hfiles).1 g hg
    rw [List.mem_singleton.mp hq, hown] at hown'
    cases hown'
    exact List.mem_map.mp hg
  refine ⟨hreached, ?_⟩
  rintro ⟨e, he, rfl⟩
  obtain ⟨g, hg, hsame⟩ := (mem_filesOfAll hfiles).2 p (List.mem_singleton_self p) _ hown _ (List.mem_map_of_mem he)
  obtain ⟨e', he', rfl⟩ := hreached hg
  -- Names that lead below the input are told by the components of the path.
  have hproper : ∀ {x}, x ∈ d.reachedSources p l → ∀ n ∈ x.1, n.IsProper := by
    intro x hx
    exact hsound.isProper_of_found htree ((mem_reachedSources hsound).mp hx).2.1
  have hcomponents : (p.joinNames e.1).components = (p.joinNames e'.1).components := by
    simpa [DiskPath.same] using hsame
  rw [DiskPath.joinNames_eq_descend, DiskPath.joinNames_eq_descend, DiskPath.components_descend p (hproper he),
    DiskPath.components_descend p (hproper he'), List.append_cancel_left_eq,
    List.map_inj_right (fun _ _ h => Component.name.inj h)] at hcomponents
  rw [hcomponents]
  exact hg

namespace SameSources

/-- The files are found once more, those with the names of handwritten ones in the same order. -/
theorem filesOfAll_again {d d' : Disk} (h : SameSources d d') (htree : d.IsTree) (hlinks : d.Linkless)
    (hsound : d.IsSound) {paths : List DiskPath} (hpaths : ∀ p ∈ paths, d.isDirectory p = true)
    {files : List FoundFile} (hfiles : d.filesOfAll ⟨paths, none⟩ = .ok files) :
    ∃ files', d'.filesOfAll ⟨paths, none⟩ = .ok files' ∧
      files'.filter FoundFile.isHandwritten = files.filter FoundFile.isHandwritten := by
  obtain ⟨found, hfound, rfl⟩ := filesOfAll_eq_ok.mp hfiles
  obtain ⟨found', hfound', hfilter⟩ := mapM_again (g := d'.filesOf none) (q := FoundFile.isHandwritten)
    (fun p hp y hy => h.filesOf_again htree hlinks hsound (hpaths p hp) hy) hfound
  refine ⟨_, filesOfAll_eq_ok.mpr ⟨found', hfound', rfl⟩, ?_⟩
  rw [FoundFile.filter_inOrder FoundFile.respectsPaths_isHandwritten,
    FoundFile.filter_inOrder FoundFile.respectsPaths_isHandwritten, hfilter]

end SameSources

end Disk

end TypedId
