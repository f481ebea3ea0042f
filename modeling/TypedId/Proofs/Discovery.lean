import Mathlib
import TypedId.Proofs.FileModules
import TypedId.Proofs.FirstOfKey

/-!
What is discovered below several inputs. Neither the order in which the inputs are listed nor their repetition has
a part in it (`discovery_of_members`): the files come in the order of their paths, each path once, and of the bases
by which a path is reached the one is kept that all others extend. Paths are compared by their components, which
is enough to tell where a path leads, also where links are on the way (`Disk.resolve_eq_of_same`).
-/
namespace TypedId

open FileName

/-! ## Files in order -/

namespace FoundFile

/-- The files have the same path and the same base. -/
structure Same (f g : FoundFile) : Prop where
  path : f.path.same g.path = true
  base : f.base.same g.base = true

theorem atMost_refl (a : FoundFile) : a.atMost a = true := atMost_iff.mpr (Or.inr ⟨rfl, List.le_refl _⟩)

/-- What a file is ordered by. -/
def sortKeys (f : FoundFile) : List (List UInt8) × List (List UInt8) := (f.path.sortKey, f.base.sortKey)

theorem same_iff {f g : FoundFile} : f.Same g ↔ f.sortKeys = g.sortKeys := by
  rw [sortKeys, sortKeys, Prod.mk.injEq, ← DiskPath.same_iff, ← DiskPath.same_iff]
  exact ⟨fun h => ⟨h.path, h.base⟩, fun h => ⟨h.1, h.2⟩⟩

/-- A file that is kept is at most each that has its path. -/
theorem atMost_of_mem_dropRepeatedAfter {f k g : FoundFile} {files : List FoundFile}
    (hsorted : (f :: files).Pairwise fun a b => a.atMost b = true) (hk : k ∈ f.dropRepeatedAfter files)
    (hg : g ∈ f :: files) (hsame : g.path.same k.path = true) : k.atMost g = true := by
  induction files generalizing f g with
  | nil =>
    rw [List.mem_singleton.mp hk, List.mem_singleton.mp hg]
    exact atMost_refl f
  | cons a rest ih =>
    obtain ⟨hf, hrest⟩ := List.pairwise_cons.mp hsorted
    rw [dropRepeatedAfter] at hk
    by_cases hfa : f.path.same a.path = true
    · rw [if_pos hfa] at hk
      have hshort : (f :: rest).Pairwise fun a b => a.atMost b = true :=
        List.pairwise_cons.mpr ⟨fun b hb => hf b (List.mem_cons_of_mem a hb), (List.pairwise_cons.mp hrest).2⟩
      rcases List.mem_cons.mp hg with rfl | hg
      · exact ih hshort hk List.mem_cons_self hsame
      · rcases List.mem_cons.mp hg with rfl | hg
        · have hfk : f.path.same k.path = true :=
            DiskPath.same_iff.mpr ((DiskPath.same_iff.mp hfa).trans (DiskPath.same_iff.mp hsame))
          exact atMost_trans k f g (ih hshort hk List.mem_cons_self hfk) (hf g List.mem_cons_self)
        · exact ih hshort hk (List.mem_cons_of_mem f hg) hsame
    · rw [if_neg hfa] at hk
      rcases List.mem_cons.mp hk with rfl | hlater
      · rcases List.mem_cons.mp hg with rfl | hg
        · exact atMost_refl g
        · exact hf g hg
      · rcases List.mem_cons.mp hg with rfl | hg
        · -- What is kept after `a` comes at `a` or later, so it has another path than the file before.
          have hother : g.path.same k.path = false := by
            rcases mem_of_mem_dropRepeatedAfter hlater with rfl | hmem
            · simpa using hfa
            · exact same_eq_false (hf a List.mem_cons_self) ((List.pairwise_cons.mp hrest).1 k hmem)
                (by simpa using hfa)
          rw [hother] at hsame
          cases hsame
        · exact ih hrest hlater hg hsame

theorem pairwise_dropRepeatedAfter {f : FoundFile} {files : List FoundFile}
    (hsorted : (f :: files).Pairwise fun a b => a.atMost b = true) :
    (f.dropRepeatedAfter files).Pairwise fun a b => a.path.sortKey < b.path.sortKey := by
  induction files generalizing f with
  | nil => exact List.pairwise_singleton _ f
  | cons a rest ih =>
    obtain ⟨hf, hrest⟩ := List.pairwise_cons.mp hsorted
    rw [dropRepeatedAfter]
    split
    · exact ih (List.pairwise_cons.mpr
        ⟨fun b hb => hf b (List.mem_cons_of_mem a hb), (List.pairwise_cons.mp hrest).2⟩)
    · next hfa =>
      refine List.pairwise_cons.mpr ⟨fun k hk => ?_, ih hrest⟩
      have hlt : f.path.sortKey < a.path.sortKey :=
        (atMost_iff.mp (hf a List.mem_cons_self)).resolve_right fun h => hfa (DiskPath.same_iff.mpr h.1)
      rcases mem_of_mem_dropRepeatedAfter hk with rfl | hmem
      · exact hlt
      · rcases atMost_iff.mp ((List.pairwise_cons.mp hrest).1 k hmem) with hmore | ⟨heq, _⟩
        · exact List.lt_trans hlt hmore
        · exact heq ▸ hlt

section InOrder

variable (files : List FoundFile)

/-- The files in the order of their paths, each path once. -/
def inOrder : List FoundFile := dropRepeated (files.mergeSort atMost)

theorem pairwise_inOrder : (inOrder files).Pairwise fun a b => a.path.sortKey < b.path.sortKey := by
  have hsorted := List.pairwise_mergeSort atMost_trans atMost_total files
  unfold inOrder
  cases hfiles : files.mergeSort atMost with
  | nil => exact List.Pairwise.nil
  | cons f rest => exact pairwise_dropRepeatedAfter (hfiles ▸ hsorted)

variable {files}

theorem mem_of_mem_inOrder {f : FoundFile} (h : f ∈ inOrder files) : f ∈ files :=
  List.mem_mergeSort.mp (mem_of_mem_dropRepeated h)

theorem exists_same_of_mem_inOrder {g : FoundFile} (h : g ∈ files) : ∃ k ∈ inOrder files, g.path.same k.path = true :=
  exists_same_of_mem (List.mem_mergeSort.mpr h)

/-- Of the files with one path the one with the least base is kept. -/
theorem base_le_of_mem_inOrder {f g : FoundFile} (hf : f ∈ inOrder files) (hg : g ∈ files)
    (hsame : g.path.same f.path = true) : f.base.sortKey ≤ g.base.sortKey := by
  have hsorted := List.pairwise_mergeSort atMost_trans atMost_total files
  have hmem : g ∈ files.mergeSort atMost := List.mem_mergeSort.mpr hg
  unfold inOrder at hf
  cases hfiles : files.mergeSort atMost with
  | nil =>
    rw [hfiles] at hmem
    cases hmem
  | cons first rest =>
    rw [hfiles] at hf hmem hsorted
    rcases atMost_iff.mp (atMost_of_mem_dropRepeatedAfter hsorted hf hmem hsame) with hlt | ⟨_, hbase⟩
    · rw [DiskPath.same_iff.mp hsame] at hlt
      exact absurd hlt (List.lt_irrefl _)
    · exact hbase

/-- What is kept of some files is the same as what is kept of others that are the same but for their spelling. -/
theorem exists_same_inOrder {others : List FoundFile} (h : ∀ f ∈ files, ∃ g ∈ others, f.Same g)
    (h' : ∀ g ∈ others, ∃ f ∈ files, g.Same f) {f : FoundFile} (hf : f ∈ inOrder files) :
    ∃ g ∈ inOrder others, f.Same g := by
  obtain ⟨g, hg, hsame⟩ := h f (mem_of_mem_inOrder hf)
  obtain ⟨k, hk, hgk⟩ := exists_same_of_mem_inOrder hg
  obtain ⟨f', hf', hkf'⟩ := h' k (mem_of_mem_inOrder hk)
  have hpath : f.path.same k.path = true :=
    DiskPath.same_iff.mpr ((DiskPath.same_iff.mp hsame.path).trans (DiskPath.same_iff.mp hgk))
  have hpath' : f'.path.same f.path = true :=
    DiskPath.same_iff.mpr ((DiskPath.same_iff.mp hpath).trans (DiskPath.same_iff.mp hkf'.path)).symm
  -- Each of the two bases is the least of its list, and both lists have the same bases for this path.
  have hle : f.base.sortKey ≤ k.base.sortKey :=
    DiskPath.same_iff.mp hkf'.base ▸ base_le_of_mem_inOrder hf hf' hpath'
  have hge : k.base.sortKey ≤ f.base.sortKey :=
    DiskPath.same_iff.mp hsame.base ▸ base_le_of_mem_inOrder hk hg hgk
  exact ⟨k, hk, hpath, DiskPath.same_iff.mpr (List.le_antisymm hle hge)⟩

/-- Files that are the same but for their spelling come in the same order. -/
theorem forall₂_same_inOrder {others : List FoundFile} (h : ∀ f ∈ files, ∃ g ∈ others, f.Same g)
    (h' : ∀ g ∈ others, ∃ f ∈ files, g.Same f) : List.Forall₂ Same (inOrder files) (inOrder others) := by
  have hkeys : ∀ {xs ys : List FoundFile}, (∀ f ∈ xs, ∃ g ∈ ys, f.Same g) →
      ∀ k ∈ xs.map sortKeys, k ∈ ys.map sortKeys := by
    intro xs ys hxs k hk
    obtain ⟨f, hf, rfl⟩ := List.mem_map.mp hk
    obtain ⟨g, hg, hsame⟩ := hxs f hf
    exact List.mem_map.mpr ⟨g, hg, (same_iff.mp hsame).symm⟩
  have hpairwise : ∀ xs : List FoundFile, ((inOrder xs).map sortKeys).Pairwise fun a b => a.1 < b.1 := fun xs =>
    List.pairwise_map.mpr (pairwise_inOrder xs)
  have hnodup : ∀ xs : List FoundFile, ((inOrder xs).map sortKeys).Nodup := by
    intro xs
    refine (hpairwise xs).imp ?_
    rintro a b hab rfl
    exact List.lt_irrefl _ hab
  have heq : (inOrder files).map sortKeys = (inOrder others).map sortKeys := by
    refine List.Perm.eq_of_pairwise ?_ (hpairwise files) (hpairwise others)
      ((List.perm_ext_iff_of_nodup (hnodup files) (hnodup others)).mpr fun k => ⟨?_, ?_⟩)
    · intro a b _ _ hab hba
      exact absurd (List.lt_trans hab hba) (List.lt_irrefl _)
    · exact hkeys (fun f hf => exists_same_inOrder h h' hf) k
    · exact hkeys (fun g hg => exists_same_inOrder h' h hg) k
  have hforall := List.forall₂_eq_eq_eq ▸ heq
  exact ((List.forall₂_map_left_iff.mp (List.forall₂_map_right_iff.mp hforall)).imp fun _ _ => same_iff.mpr)

end InOrder

end FoundFile

/-! ## What inputs stand for -/

namespace Disk

/-- An input stands for the file: it leads there, or it is a directory and the walk of it yields the file. The module
of the file is counted from the root if there is one, and otherwise from the directory that the input is or that
it lies in. -/
inductive Selects (d : Disk) (root : Option DiskPath) (input : DiskPath) : FoundFile → Prop
  | file (hpresent : d.isPresent input = true) (hfile : d.isDirectory input = false) :
    Selects d root input ⟨input, root.getD (input.parent?.getD ⟨[]⟩)⟩
  | walked {found : List (DiskPath × Entry)} {e : DiskPath × Entry} (hdir : d.isDirectory input = true)
    (hwalk : d.walkDirectory input = .ok found) (hmem : e ∈ found) (hsource : isSource e = true) :
    Selects d root input ⟨e.1, root.getD input⟩

/-- Two spellings of one input. Where it is a directory, the walk of the one yields what the walk of the other does. -/
structure SameInput (d : Disk) (p q : DiskPath) : Prop where
  path : p.same q = true
  walk : ∀ found, d.walkDirectory p = .ok found → ∃ found', d.walkDirectory q = .ok found' ∧
    ∀ x ∈ found, ∃ y ∈ found', x.1.same y.1 = true ∧ x.2 = y.2

theorem SameInput.refl (d : Disk) (p : DiskPath) : d.SameInput p p :=
  ⟨DiskPath.same_iff.mpr rfl, fun found h => ⟨found, h, fun x hx => ⟨x, hx, DiskPath.same_iff.mpr rfl, rfl⟩⟩⟩

theorem find_eq_ok {d : Disk} {p : DiskPath} {l : Location} {e : Entry} :
    d.find p = .ok (l, e) ↔ d.resolve true p = .ok l ∧ d.entry? l = some e := by
  unfold find
  cases d.resolve true p with
  | error cause => simp [bind, Except.bind]
  | ok l' =>
    simp only [bind, Except.bind, Except.ok.injEq]
    cases hentry : d.entry? l' with
    | none =>
      constructor
      · intro h
        cases h
      · rintro ⟨rfl, he⟩
        rw [hentry] at he
        cases he
    | some e' =>
      rw [Except.ok.injEq, Prod.mk.injEq]
      constructor
      · rintro ⟨rfl, rfl⟩
        exact ⟨rfl, hentry⟩
      · rintro ⟨rfl, he⟩
        rw [hentry, Option.some.injEq] at he
        exact ⟨rfl, he⟩

theorem find_eq_of_same {d : Disk} {p q : DiskPath} (hsame : p.same q = true) {x y : Location × Entry}
    (hp : d.find p = .ok x) (hq : d.find q = .ok y) : x = y := by
  obtain ⟨hresolve, hentry⟩ := find_eq_ok.mp (show d.find p = .ok (x.1, x.2) from hp)
  obtain ⟨hresolve', hentry'⟩ := find_eq_ok.mp (show d.find q = .ok (y.1, y.2) from hq)
  have hplace := resolve_eq_of_same hsame hresolve hresolve'
  rw [hplace, hentry', Option.some.injEq] at hentry
  exact Prod.ext hplace hentry.symm

theorem isPresent_iff {d : Disk} {p : DiskPath} : d.isPresent p = true ↔ ∃ x, d.find p = .ok x := by
  unfold isPresent
  cases d.find p <;> simp

theorem isPresent_of_isDirectory {d : Disk} {p : DiskPath} (h : d.isDirectory p = true) : d.isPresent p = true := by
  obtain ⟨l, hl⟩ := isDirectory_iff.mp h
  exact isPresent_iff.mpr ⟨_, hl⟩

theorem isDirectory_eq_of_same {d : Disk} {p q : DiskPath} (hsame : p.same q = true) (hp : d.isPresent p = true)
    (hq : d.isPresent q = true) : d.isDirectory p = d.isDirectory q := by
  obtain ⟨x, hx⟩ := isPresent_iff.mp hp
  obtain ⟨y, hy⟩ := isPresent_iff.mp hq
  obtain rfl := find_eq_of_same hsame hx hy
  unfold isDirectory
  rw [hx, hy]

section Selects

variable {d : Disk} {root : Option DiskPath} {p q : DiskPath}

theorem isPresent_of_filesOf {files : List FoundFile} (h : d.filesOf root p = .ok files) : d.isPresent p = true := by
  unfold filesOf at h
  split at h
  · cases h
  · next hpresent => simpa using hpresent

theorem mem_filesOf_iff {files : List FoundFile} (h : d.filesOf root p = .ok files) {f : FoundFile} :
    f ∈ files ↔ d.Selects root p f := by
  have hpresent := isPresent_of_filesOf h
  unfold filesOf at h
  rw [hpresent, Bool.not_true, if_neg Bool.false_ne_true] at h
  cases hdir : d.isDirectory p with
  | true =>
    rw [hdir, if_pos rfl] at h
    cases hwalk : d.walkDirectory p with
    | error e =>
      rw [hwalk] at h
      cases h
    | ok found =>
      rw [hwalk] at h
      cases h
      rw [List.mem_map]
      constructor
      · rintro ⟨e, he, rfl⟩
        obtain ⟨hmem, hsource⟩ := List.mem_filter.mp he
        exact .walked hdir hwalk hmem hsource
      · intro hselects
        cases hselects with
        | file _ hfile =>
          rw [hdir] at hfile
          cases hfile
        | walked _ hwalk' hmem hsource =>
          rw [hwalk] at hwalk'
          cases hwalk'
          exact ⟨_, List.mem_filter.mpr ⟨hmem, hsource⟩, rfl⟩
  | false =>
    rw [hdir, if_neg Bool.false_ne_true] at h
    cases h
    rw [List.mem_singleton]
    constructor
    · rintro rfl
      exact .file hpresent hdir
    · intro hselects
      cases hselects with
      | file _ _ => rfl
      | walked hdir' _ _ _ =>
        rw [hdir] at hdir'
        cases hdir'

theorem Selects.isPresent {f : FoundFile} (h : d.Selects root p f) : d.isPresent p = true := by
  cases h with
  | file hpresent _ => exact hpresent
  | walked hdir _ _ _ => exact isPresent_of_isDirectory hdir

/-- However an input is spelled, it stands for the same files. -/
theorem Selects.of_sameInput (hsame : d.SameInput p q) (hq : d.isPresent q = true) {f : FoundFile}
    (h : d.Selects root p f) : ∃ g, d.Selects root q g ∧ f.Same g := by
  have hkind := isDirectory_eq_of_same hsame.path h.isPresent hq
  cases h with
  | file _ hfile =>
    refine ⟨_, .file hq (hkind ▸ hfile), hsame.path, ?_⟩
    cases root with
    | some r => exact DiskPath.same_iff.mpr rfl
    | none =>
      rw [Option.getD_none, Option.getD_none, DiskPath.same_iff_components, DiskPath.components_getD_parent?,
        DiskPath.components_getD_parent?, DiskPath.same_iff_components.mp hsame.path]
  | walked hdir hwalk hmem hsource =>
    obtain ⟨found', hwalk', hall⟩ := hsame.walk _ hwalk
    obtain ⟨y, hy, hpath, hentry⟩ := hall _ hmem
    have hsource' : isSource y = true := by
      rw [← hsource, isSource, isSource, hentry, DiskPath.fileName?, DiskPath.fileName?,
        DiskPath.same_iff_components.mp hpath]
    refine ⟨_, .walked (hkind ▸ hdir) hwalk' hy hsource', hpath, ?_⟩
    cases root with
    | some r => exact DiskPath.same_iff.mpr rfl
    | none => exact hsame.path

/-- The files of all inputs are those that the inputs stand for, in order. -/
theorem filesOfAll_eq_inOrder {inputs : Inputs} {files : List FoundFile} (h : d.filesOfAll inputs = .ok files) :
    (∀ p ∈ inputs.paths, d.isPresent p = true) ∧ ∃ all, FoundFile.inOrder all = files ∧
      ∀ f, f ∈ all ↔ ∃ p ∈ inputs.paths, d.Selects inputs.root p f := by
  obtain ⟨found, hfound, rfl⟩ := filesOfAll_eq_ok.mp h
  have hok := mapM_eq_ok_iff.mp ⟨found, hfound⟩
  refine ⟨fun p hp => ?_, found.flatten, rfl, fun f => ?_⟩
  · obtain ⟨own, hown⟩ := hok p hp
    exact isPresent_of_filesOf hown
  · rw [mem_flatten_of_mapM hfound]
    constructor
    · rintro ⟨p, hp, own, hown, hf⟩
      exact ⟨p, hp, (mem_filesOf_iff hown).mp hf⟩
    · rintro ⟨p, hp, hselects⟩
      obtain ⟨own, hown⟩ := hok p hp
      exact ⟨p, hp, own, hown, (mem_filesOf_iff hown).mpr hselects⟩

/-- The base of a file, where it is not a root that is given, begins the path of the file. -/
theorem Selects.base_prefix (htree : d.IsTree) (hsound : d.IsSound) {f : FoundFile} (h : d.Selects none p f) :
    f.base.components <+: f.path.components := by
  cases h with
  | file _ _ =>
    rw [Option.getD_none, DiskPath.components_getD_parent?]
    exact List.dropLast_prefix _
  | walked hdir hwalk hmem _ =>
    obtain ⟨l, hl⟩ := isDirectory_iff.mp hdir
    obtain ⟨_, rfl⟩ := (walkDirectory_eq_ok (resolve_of_find hl)).mp hwalk
    obtain ⟨e, he, rfl⟩ := List.mem_map.mp hmem
    obtain ⟨_, hentry⟩ := hsound.mem_below.mp (List.mem_filter.mp he).1
    rw [Option.getD_none, DiskPath.joinNames_eq_descend,
      DiskPath.components_descend p (hsound.isProper_of_found htree hentry)]
    exact List.prefix_append _ _

end Selects

end Disk

/-! ## What is read -/

theorem exists_of_forall₂ {α β : Type} {R : α → β → Prop} {xs : List α} {ys : List β} (h : List.Forall₂ R xs ys) :
    ∀ y ∈ ys, ∃ x ∈ xs, R x y := by
  induction h with
  | nil => simp
  | cons hxy _ ih =>
    intro z hz
    rcases List.mem_cons.mp hz with rfl | hz
    · exact ⟨_, List.mem_cons_self, hxy⟩
    · obtain ⟨x, hx, hxz⟩ := ih z hz
      exact ⟨x, List.mem_cons_of_mem _ hx, hxz⟩

/-- The texts are the same, under the same module, and their paths have the same components. -/
structure SourceText.Same (s t : SourceText) : Prop where
  path : s.path.same t.path = true
  modulePath : s.modulePath = t.modulePath
  text : s.text = t.text

namespace Disk

variable {d : Disk}

theorem resolve_of_moduleOf? {root file : DiskPath} (hbelow : DiskPath.below? root file = none) {m : ModulePath}
    (h : d.moduleOf? root file = some m) : ∃ l l', d.resolve true root = .ok l ∧ d.resolve true file = .ok l' := by
  rw [moduleOf?, relative?, hbelow] at h
  unfold canonical at h
  cases hroot : d.resolve true root with
  | error cause =>
    rw [hroot] at h
    cases h
  | ok l =>
    cases hfile : d.resolve true file with
    | error cause =>
      rw [hroot, hfile] at h
      cases h
    | ok l' => exact ⟨l, l', rfl, rfl⟩

theorem moduleOf?_eq_of_same {root root' file file' : DiskPath} (hroot : root.same root' = true)
    (hfile : file.same file' = true) {m m' : ModulePath} (h : d.moduleOf? root file = some m)
    (h' : d.moduleOf? root' file' = some m') : m = m' := by
  have hbelow : DiskPath.below? root file = DiskPath.below? root' file' := by
    rw [DiskPath.below?, DiskPath.below?, DiskPath.same_iff_components.mp hroot, DiskPath.same_iff_components.mp hfile]
  cases hrest : DiskPath.below? root file with
  | some rest =>
    rw [moduleOf?_of_below hrest] at h
    rw [moduleOf?_of_below (hbelow ▸ hrest), h] at h'
    exact Option.some.inj h'
  | none =>
    obtain ⟨l, k, hl, hk⟩ := resolve_of_moduleOf? hrest h
    obtain ⟨l', k', hl', hk'⟩ := resolve_of_moduleOf? (hbelow ▸ hrest) h'
    rw [moduleOf?_of_not_below hl hk hrest] at h
    rw [moduleOf?_of_not_below hl' hk' (hbelow ▸ hrest), ← resolve_eq_of_same hroot hl hl',
      ← resolve_eq_of_same hfile hk hk', h] at h'
    exact Option.some.inj h'

theorem readText_eq_of_same {p q : DiskPath} (hsame : p.same q = true) {text text' : String}
    (hp : d.readText p = .ok text) (hq : d.readText q = .ok text') : text = text' := by
  obtain ⟨l, content, hfind, hdecode⟩ := readText_eq_ok.mp hp
  obtain ⟨l', content', hfind', hdecode'⟩ := readText_eq_ok.mp hq
  cases find_eq_of_same hsame hfind hfind'
  rw [hdecode] at hdecode'
  exact Option.some.inj hdecode'

/-- Files that are the same but for their spelling are read alike. -/
theorem readSource_same {f g : FoundFile} (hsame : f.Same g) {s t : SourceText} (hs : (d.readSource f).result = .ok s)
    (ht : (d.readSource g).result = .ok t) : s.Same t := by
  obtain ⟨m, text, hm, htext, rfl⟩ := readSource_eq_ok.mp hs
  obtain ⟨m', text', hm', htext', rfl⟩ := readSource_eq_ok.mp ht
  exact ⟨hsame.path, moduleOf?_eq_of_same hsame.base hsame.path hm hm', readText_eq_of_same hsame.path htext htext'⟩

theorem forall₂_same_of_read {files files' : List FoundFile} (hsame : List.Forall₂ FoundFile.Same files files')
    {sources sources' : List SourceText} (h : List.Forall₂ (fun f s => (d.readSource f).result = .ok s) files sources)
    (h' : List.Forall₂ (fun f s => (d.readSource f).result = .ok s) files' sources') :
    List.Forall₂ SourceText.Same sources sources' := by
  induction hsame generalizing sources sources' with
  | nil =>
    cases h
    cases h'
    exact .nil
  | cons hfg _ ih =>
    cases h with
    | cons hs hmore =>
      cases h' with
      | cons ht hmore' => exact .cons (readSource_same hfg hs ht) (ih hmore hmore')

theorem discover_eq_ok {inputs : Inputs} {sources : List SourceText} :
    (d.discover inputs).result = .ok sources ↔ ∃ files, d.filesOfAll inputs = .ok files ∧
      List.Forall₂ (fun f s => (d.readSource f).result = .ok s) files sources := by
  unfold discover
  cases d.filesOfAll inputs with
  | error e => simp [Outcome.fail]
  | ok files =>
    dsimp only
    rw [result_readSources, mapM_eq_ok_iff_forall₂]
    simp

/-- What was discovered below some inputs: the files that they stand for in the order of their paths, each path
once. A file has its module from the shortest of the bases by which its path is reached. -/
structure Discovered (d : Disk) (inputs : Inputs) (sources : List SourceText) : Prop where
  increasing : sources.Pairwise fun s t => s.path.before t.path = true
  selected : ∀ s ∈ sources, ∃ p ∈ inputs.paths, ∃ base, d.Selects inputs.root p ⟨s.path, base⟩
  complete : ∀ p ∈ inputs.paths, ∀ f, d.Selects inputs.root p f → ∃ s ∈ sources, f.path.same s.path = true
  outermost : inputs.root = none → ∀ s ∈ sources, ∃ p ∈ inputs.paths, ∃ base, d.Selects none p ⟨s.path, base⟩ ∧
    d.moduleOf? base s.path = some s.modulePath ∧
    ∀ q ∈ inputs.paths, ∀ f, d.Selects none q f → f.path.same s.path = true → base.components <+: f.base.components

/-- Of two beginnings of one path the one that comes first is the shorter. -/
theorem prefix_of_sortKey_le {p q : DiskPath} {components : List Component} (hp : p.components <+: components)
    (hq : q.components <+: components) (hle : p.sortKey ≤ q.sortKey) : p.components <+: q.components := by
  rcases List.prefix_or_prefix_of_prefix hp hq with h | ⟨more, hmore⟩
  · exact h
  · have hge : q.sortKey ≤ p.sortKey := by
      rw [DiskPath.sortKey, DiskPath.sortKey, ← hmore, List.map_append]
      exact List.le_append_left
    have hsame := DiskPath.same_iff_components.mp (DiskPath.same_iff.mpr (List.le_antisymm hle hge))
    exact hsame ▸ List.prefix_refl _

theorem discovered_of_discover (htree : d.IsTree) (hsound : d.IsSound) {inputs : Inputs} {sources : List SourceText}
    (h : (d.discover inputs).result = .ok sources) : d.Discovered inputs sources := by
  obtain ⟨files, hfiles, hread⟩ := discover_eq_ok.mp h
  obtain ⟨_, all, rfl, hall⟩ := filesOfAll_eq_inOrder hfiles
  have hpath : ∀ f s, (d.readSource f).result = .ok s → f.path = s.path := by
    intro f s hs
    obtain ⟨_, _, _, _, rfl⟩ := readSource_eq_ok.mp hs
    rfl
  have hpaths : (FoundFile.inOrder all).map FoundFile.path = sources.map SourceText.path :=
    map_eq_of_forall₂ hread hpath
  constructor
  · have hordered : ((FoundFile.inOrder all).map FoundFile.path).Pairwise fun p q => p.before q = true :=
      List.pairwise_map.mpr ((FoundFile.pairwise_inOrder all).imp fun hab => DiskPath.before_iff.mpr hab)
    rw [hpaths] at hordered
    exact List.pairwise_map.mp hordered
  · intro s hs
    obtain ⟨f, hf, hfs⟩ := exists_of_forall₂ hread s hs
    obtain ⟨p, hp, hselects⟩ := (hall f).mp (FoundFile.mem_of_mem_inOrder hf)
    exact ⟨p, hp, f.base, hpath f s hfs ▸ hselects⟩
  · intro p hp f hselects
    obtain ⟨k, hk, hsame⟩ := FoundFile.exists_same_of_mem_inOrder ((hall f).mpr ⟨p, hp, hselects⟩)
    obtain ⟨s, hs, hks⟩ := List.mem_map.mp (hpaths ▸ List.mem_map_of_mem hk)
    exact ⟨s, hs, hks ▸ hsame⟩
  · intro hroot s hs
    obtain ⟨f, hf, hfs⟩ := exists_of_forall₂ hread s hs
    obtain ⟨m, text, hm, _, rfl⟩ := readSource_eq_ok.mp hfs
    obtain ⟨p, hp, hselects⟩ := (hall f).mp (FoundFile.mem_of_mem_inOrder hf)
    rw [hroot] at hselects
    refine ⟨p, hp, f.base, hselects, hm, fun q hq g hg hsame => ?_⟩
    have hle := FoundFile.base_le_of_mem_inOrder hf ((hall g).mpr ⟨q, hq, hroot ▸ hg⟩) hsame
    -- Both bases begin the one path, since its components are those of the other spelling.
    have hother := hg.base_prefix htree hsound
    rw [DiskPath.same_iff_components.mp hsame] at hother
    exact prefix_of_sortKey_le (hselects.base_prefix htree hsound) hother hle

end Disk

/-- However the inputs are listed, in whatever order and how often, two discoveries that succeed have the same answer
but for the spelling of paths, and have found the files that the inputs stand for. The inputs may be spelled in
several ways too; those of two lists with the same members are each its own spelling (`SameInput.refl`). -/
theorem discovery_of_members {d : Disk} (htree : d.IsTree) (hsound : d.IsSound) {root : Option DiskPath}
    {xs ys : List DiskPath} (hxs : ∀ p ∈ xs, ∃ q ∈ ys, d.SameInput p q) (hys : ∀ q ∈ ys, ∃ p ∈ xs, d.SameInput q p)
    {sources sources' : List SourceText} (h : (d.discover ⟨xs, root⟩).result = .ok sources)
    (h' : (d.discover ⟨ys, root⟩).result = .ok sources') :
    List.Forall₂ SourceText.Same sources sources' ∧ d.Discovered ⟨xs, root⟩ sources ∧
      d.Discovered ⟨ys, root⟩ sources' := by
  refine ⟨?_, Disk.discovered_of_discover htree hsound h, Disk.discovered_of_discover htree hsound h'⟩
  obtain ⟨files, hfiles, hread⟩ := Disk.discover_eq_ok.mp h
  obtain ⟨files', hfiles', hread'⟩ := Disk.discover_eq_ok.mp h'
  obtain ⟨hpresent, all, rfl, hall⟩ := Disk.filesOfAll_eq_inOrder hfiles
  obtain ⟨hpresent', all', rfl, hall'⟩ := Disk.filesOfAll_eq_inOrder hfiles'
  have hsame : List.Forall₂ FoundFile.Same (FoundFile.inOrder all) (FoundFile.inOrder all') := by
    refine FoundFile.forall₂_same_inOrder (fun f hf => ?_) fun g hg => ?_
    · obtain ⟨p, hp, hselects⟩ := (hall f).mp hf
      obtain ⟨q, hq, hinput⟩ := hxs p hp
      obtain ⟨g, hg, hfg⟩ := hselects.of_sameInput hinput (hpresent' q hq)
      exact ⟨g, (hall' g).mpr ⟨q, hq, hg⟩, hfg⟩
    · obtain ⟨q, hq, hselects⟩ := (hall' g).mp hg
      obtain ⟨p, hp, hinput⟩ := hys q hq
      obtain ⟨f, hf, hgf⟩ := hselects.of_sameInput hinput (hpresent p hp)
      exact ⟨f, (hall f).mpr ⟨p, hp, hf⟩, hgf⟩
  exact Disk.forall₂_same_of_read hsame hread hread'

/-- A disk with a source file in a directory below the root of the sources. -/
def nestedSource : Disk where
  entries :=
    let w := Text.encode "w"
    let src := Text.encode "src"
    let shop := Text.encode "shop"
    [([w], .directory), ([w, src], .directory), ([w, src, shop], .directory),
      ([w, src, shop, Text.encode "orders.rs"], .file [])]
  workplace := [Text.encode "w"]

/-- Three ways to come by the one file. -/
def nestedInputs : List DiskPath := ["src/shop/orders.rs", "src/shop", "src"].map DiskPath.ofString

theorem discovery_of_members_nested :
    nestedSource.IsTree ∧ nestedSource.IsSound ∧ ∃ sources,
      (nestedSource.discover ⟨nestedInputs, none⟩).result = .ok sources ∧
      (nestedSource.discover ⟨DiskPath.ofString "src" :: nestedInputs, none⟩).result = .ok sources ∧
      sources.map SourceText.modulePath = [⟨["shop", "orders"]⟩] ∧
      nestedSource.Discovered ⟨nestedInputs, none⟩ sources ∧
      nestedSource.Discovered ⟨DiskPath.ofString "src" :: nestedInputs, none⟩ sources := by
  have htree : nestedSource.IsTree := Disk.isTree_of_entries (by decide) (by decide)
  have hsound : nestedSource.IsSound := Disk.IsSound.of_entries (by decide) (by decide)
  let file : FoundFile := ⟨DiskPath.ofString "src/shop/orders.rs", DiskPath.ofString "src"⟩
  have hfiles : nestedSource.filesOfAll ⟨nestedInputs, none⟩ = .ok [file] := Except.eq_ok_of_toOption (by cbv)
  have hfiles' : nestedSource.filesOfAll ⟨DiskPath.ofString "src" :: nestedInputs, none⟩ = .ok [file] :=
    Except.eq_ok_of_toOption (by cbv)
  have hread : (nestedSource.readSource file).result = .ok ⟨file.path, ⟨["shop", "orders"]⟩, ""⟩ :=
    Except.eq_ok_of_toOption (by decide +kernel)
  have hfound := Disk.discover_eq_ok.mpr ⟨_, hfiles, .cons hread .nil⟩
  have hfound' := Disk.discover_eq_ok.mpr ⟨_, hfiles', .cons hread .nil⟩
  have hmore : ∀ p ∈ DiskPath.ofString "src" :: nestedInputs, p ∈ nestedInputs := by
    intro p hp
    rcases List.mem_cons.mp hp with rfl | hp
    · simp [nestedInputs]
    · exact hp
  have hself : ∀ {xs ys : List DiskPath}, (∀ p ∈ xs, p ∈ ys) → ∀ p ∈ xs, ∃ q ∈ ys, nestedSource.SameInput p q :=
    fun hmem p hp => ⟨p, hmem p hp, Disk.SameInput.refl nestedSource p⟩
  obtain ⟨_, hdiscovered, hdiscovered'⟩ := discovery_of_members htree hsound
    (hself fun p hp => List.mem_cons_of_mem _ hp) (hself hmore) hfound hfound'
  exact ⟨htree, hsound, _, hfound, hfound', rfl, hdiscovered, hdiscovered'⟩

end TypedId
