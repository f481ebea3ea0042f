import TypedId.Proofs.WrittenUnits

/-!
Writing again. Where a text stands at its place and nothing is left where it was written first (`Settled`), it can
be written once more, and the tree is then the same (`replace_again`). A run that has written its units leaves
all of them so (`settled_writeUnits`), and they can be written once more as they were (`writeUnits_again`).
-/
namespace TypedId

open FileName

namespace Disk

/-! ## Equal trees -/

/-- The same stands at every place, and relative paths begin at the same one. -/
structure SameTree (d d' : Disk) : Prop where
  workplace : d'.workplace = d.workplace
  entries : ∀ l, d'.entry? l = d.entry? l

namespace SameTree

variable {d d' d'' : Disk}

theorem refl (d : Disk) : SameTree d d := ⟨rfl, fun _ => rfl⟩

theorem trans (h : SameTree d d') (h' : SameTree d' d'') : SameTree d d'' :=
  ⟨h'.workplace.trans h.workplace, fun l => (h'.entries l).trans (h.entries l)⟩

theorem isDirectoryAt (h : SameTree d d') (l : Location) : d'.isDirectoryAt l = d.isDirectoryAt l := by
  rw [Disk.isDirectoryAt, Disk.isDirectoryAt, h.entries]

theorem linkless (h : SameTree d d') (hlinks : d.Linkless) : d'.Linkless := by
  intro l target
  rw [h.entries]
  exact hlinks l target

theorem isTree (h : SameTree d d') (htree : d.IsTree) : d'.IsTree where
  parent l n hfound := by
    rw [h.entries] at hfound
    rw [h.isDirectoryAt]
    exact htree.parent l n hfound
  name l n hfound := by
    rw [h.entries] at hfound
    exact htree.name l n hfound
  workplace := by
    rw [h.workplace, h.isDirectoryAt]
    exact htree.workplace

end SameTree

/-! ## Directories that are there -/

theorem isDirectory_iff {d : Disk} {p : DiskPath} :
    d.isDirectory p = true ↔ ∃ l, d.find p = .ok (l, .directory) := by
  unfold isDirectory
  split
  · next l h => simp [h]
  · next hnot =>
    simp only [Bool.false_eq_true, false_iff, not_exists]
    exact fun l h => hnot l h

/-- A directory's path leads to a directory as long as no directory goes. -/
theorem find_directory_of_unchanged {d d' : Disk} (hlinks : d.Linkless) (hlinks' : d'.Linkless)
    (hwork : d'.workplace = d.workplace) (hdir : ∀ l, d.isDirectoryAt l = true → d'.isDirectoryAt l = true)
    {p : DiskPath} {l : Location} (h : d.find p = .ok (l, .directory)) : d'.find p = .ok (l, .directory) := by
  obtain ⟨_, _, _, hentry⟩ := (find_eq_ok_iff hlinks).mp h
  have hentry' := isDirectoryAt_iff.mp (hdir l (isDirectoryAt_iff.mpr hentry))
  exact find_of_unchanged hlinks hlinks' hwork hdir h hentry'

theorem isDirectory_of_directory {d d' : Disk} (hlinks : d.Linkless) (hlinks' : d'.Linkless)
    (hwork : d'.workplace = d.workplace) (hdir : ∀ l, d.isDirectoryAt l = true → d'.isDirectoryAt l = true)
    {p : DiskPath} (h : d.isDirectory p = true) : d'.isDirectory p = true := by
  obtain ⟨l, hl⟩ := isDirectory_iff.mp h
  exact isDirectory_iff.mpr ⟨l, find_directory_of_unchanged hlinks hlinks' hwork hdir hl⟩

/-- A path's steps are its names, and a point where a slash comes last. -/
theorem steps_eq (p : DiskPath) :
    steps p = p.named ++ if p.bytes.getLast? == some slash then [herePiece] else [] := rfl

/-- The point that a slash at the end stands for leads nowhere else. -/
theorem walkTo_steps_named (here : Location) (p : DiskPath) : walkTo here (steps p) = walkTo here p.named := by
  rw [steps_eq, walkTo_append]
  split <;> simp [walkTo]

theorem isDirectory_of_makeDirectory {d d' : Disk} (htree : d.IsTree) (hlinks : d.Linkless) {p : DiskPath}
    (h : d.makeDirectory p = .ok d') : d'.isDirectory p = true := by
  have hgrew := (makeDirectory_spec htree hlinks h).2
  obtain ⟨ds, n, hnamed, hhere, hup, htakes, hcan, hdirectory, _, hd'⟩ := makeDirectory_eq_ok hlinks h
  have hnew : d'.entry? (walkTo (start d.workplace p) ds ++ [n]) = some .directory := by
    rw [hd', entry?_set d (by simp), if_pos rfl]
  have hto : walkTo (start d.workplace p) p.named = walkTo (start d.workplace p) ds ++ [n] := by
    rw [hnamed, walkTo_append, walkTo, if_neg hhere, if_neg hup, walkTo]
  have hway : d'.CanWalk (start d.workplace p) p.named := by
    have haround := hgrew.isDirectoryAt hdirectory
    rw [hnamed, canWalk_append, CanWalk, if_neg hhere, if_neg hup, hnew]
    refine ⟨hcan.mono (fun l => hgrew.isDirectoryAt) ?_, haround, htakes.length, by simp, trivial⟩
    rw [isDirectoryAt_iff.mp haround]
    simp
  refine isDirectory_iff.mpr ⟨_, (find_eq_ok_iff (hgrew.linkless hlinks)).mpr ⟨htakes.error, ?_, ?_, hnew⟩⟩
  · rw [hgrew.workplace, steps_eq, canWalk_append, hto]
    refine ⟨hway, ?_⟩
    -- The point that a slash at the end stands for is a step inside the new directory.
    split
    · exact ⟨isDirectoryAt_iff.mpr hnew, by rw [if_pos rfl]; trivial⟩
    · trivial
  · rw [hgrew.workplace, walkTo_steps_named, hto]

theorem makeNested_ok {d d' : Disk} (htree : d.IsTree) (hlinks : d.Linkless) {p : DiskPath} {around : List DiskPath}
    (h : d.makeNested (p :: around) = (d', .ok ())) : d'.isDirectory p = true := by
  unfold makeNested at h
  split at h
  · next d₁ hmake =>
    cases h
    exact isDirectory_of_makeDirectory htree hlinks hmake
  · split at h
    · cases h
    · next d₁ hnested =>
      obtain ⟨htree₁, hgrew⟩ := makeNested_spec htree hlinks hnested
      split at h
      · next d₂ hmake =>
        cases h
        exact isDirectory_of_makeDirectory htree₁ (hgrew.linkless hlinks) hmake
      · split at h
        · next hdir =>
          cases h
          exact hdir
        · cases h
  · split at h
    · next hdir =>
      cases h
      exact hdir
    · cases h

theorem ancestors_eq_cons {p : DiskPath} (hne : p.bytes ≠ []) (limit : Nat) :
    ∃ around, ancestors p (limit + 1) = p :: around := by
  have hempty : p.bytes.isEmpty = false := by simpa using hne
  unfold ancestors
  rw [hempty, if_neg Bool.false_ne_true]
  split
  · exact ⟨_, rfl⟩
  · exact ⟨[], rfl⟩

theorem isDirectory_of_makeDirectories {d d' : Disk} (htree : d.IsTree) (hlinks : d.Linkless) {p : DiskPath}
    (hne : p.bytes ≠ []) (h : d.makeDirectories p = (d', .ok ())) : d'.isDirectory p = true := by
  obtain ⟨around, haround⟩ := ancestors_eq_cons hne p.bytes.length
  rw [makeDirectories, haround] at h
  exact makeNested_ok htree hlinks h

/-- What the parent of a path is found to be where the way to it can be walked. -/
theorem resolveParent_of_canWalk {d : Disk} (hlinks : d.Linkless) {links : Nat} {here : Location} {p : DiskPath}
    (herror : pathError? p = none) (hcan : d.CanWalk (start here p) p.named.dropLast)
    (hdir : d.isDirectoryAt (walkTo (start here p) p.named.dropLast) = true) :
    d.resolveParent links here p = .ok (walkTo (start here p) p.named.dropLast,
      match p.named.getLast? with
      | none => .points
      | some n => if n = herePiece || n = upPiece then .points else .name n (p.bytes.getLast? == some slash)) := by
  unfold resolveParent
  rw [herror]
  change (d.walk true links (start here p) p.named.dropLast >>= _) = _
  rw [(walk_eq_ok_iff hlinks).mpr ⟨hcan, rfl⟩]
  simp only [bind, Except.bind, hdir, Bool.not_true, Bool.false_eq_true, if_false]
  change (match p.named.getLast? with | none => _ | some piece => _) = _
  cases p.named.getLast? with
  | none => rfl
  | some n =>
    dsimp only
    split <;> rfl

/-- Where a path leads to a directory, no other is made. -/
theorem makeDirectory_of_isDirectory {d : Disk} (htree : d.IsTree) (hlinks : d.Linkless) {p : DiskPath}
    (h : d.isDirectory p = true) : d.makeDirectory p = .error .alreadyExists := by
  obtain ⟨l, hfind⟩ := isDirectory_iff.mp h
  obtain ⟨herror, hcan, _, _⟩ := (find_eq_ok_iff hlinks).mp hfind
  rw [steps_eq, canWalk_append] at hcan
  have hcan := hcan.1
  rcases List.eq_nil_or_concat p.named with hnil | ⟨ds, n, hnamed⟩
  · have hparent : d.resolveParent linkLimit d.workplace p = _ := resolveParent_of_canWalk hlinks herror
      (by rw [hnil]; trivial) (by rw [hnil]; exact htree.isDirectoryAt_start p)
    rw [makeDirectory, hparent, hnil]
    rfl
  · rw [List.concat_eq_append] at hnamed
    rw [hnamed, canWalk_append, CanWalk] at hcan
    obtain ⟨hway, hdir, hlast⟩ := hcan
    have hparent : d.resolveParent linkLimit d.workplace p = _ := resolveParent_of_canWalk hlinks herror
      (by rw [hnamed, List.dropLast_concat]; exact hway) (by rw [hnamed, List.dropLast_concat]; exact hdir)
    rw [makeDirectory, hparent, hnamed, List.getLast?_concat, List.dropLast_concat]
    simp only [bind, Except.bind]
    by_cases hpoints : n = herePiece || n = upPiece
    · rw [if_pos hpoints]
    · rw [if_neg hpoints]
      simp only [Bool.or_eq_true, decide_eq_true_eq, not_or] at hpoints
      rw [if_neg hpoints.1, if_neg hpoints.2] at hlast
      obtain ⟨hlength, hfound, _⟩ := hlast
      obtain ⟨e, he⟩ := Option.ne_none_iff_exists'.mp hfound
      simp only [Nat.not_lt.mpr hlength, if_false, he]

/-- Directories that are there already are left as they are. -/
theorem makeDirectories_of_isDirectory {d : Disk} (htree : d.IsTree) (hlinks : d.Linkless) {p : DiskPath}
    (h : d.isDirectory p = true) : d.makeDirectories p = (d, .ok ()) := by
  have hne : p.bytes ≠ [] := by
    obtain ⟨l, hfind⟩ := isDirectory_iff.mp h
    obtain ⟨herror, _⟩ := (find_eq_ok_iff hlinks).mp hfind
    intro hnil
    simp [pathError?, hnil] at herror
  obtain ⟨around, haround⟩ := ancestors_eq_cons hne p.bytes.length
  rw [makeDirectories, haround, makeNested, makeDirectory_of_isDirectory htree hlinks h]
  simp only [h, if_true]

/-! ## A text that stands already -/

namespace LeadsTo

variable {d : Disk} {p : DiskPath} {ds : List FileName} {n : FileName}

/-- What the parent of a path to a name is found to be. -/
theorem resolveParent_of_canWalk (hlinks : d.Linkless) {links : Nat} {here : Location} (hp : LeadsTo p ds n)
    (hproper : n.IsProper) (herror : pathError? p = none) (hcan : d.CanWalk (start here p) ds)
    (hdir : d.isDirectoryAt (walkTo (start here p) ds) = true) :
    d.resolveParent links here p = .ok (walkTo (start here p) ds, .name n false) := by
  have hds : p.named.dropLast = ds := by rw [hp.named, List.dropLast_concat]
  have hslashed : (p.bytes.getLast? == some slash) = false := by simpa using hp.no_slash
  have hpoints : ¬(decide (n = herePiece) || decide (n = upPiece)) = true := by
    simp [show n ≠ herePiece from hproper.ne_here, show n ≠ upPiece from hproper.ne_up]
  rw [← hds] at hcan hdir ⊢
  rw [Disk.resolveParent_of_canWalk hlinks herror hcan hdir, hp.named, List.getLast?_concat, hslashed]
  dsimp only
  rw [if_neg hpoints]

theorem write_of_free (hlinks : d.Linkless) (hp : LeadsTo p ds n) (hproper : n.IsProper) (htakes : Takes p n)
    (hcan : d.CanWalk (start d.workplace p) ds) (hdir : d.isDirectoryAt (walkTo (start d.workplace p) ds) = true)
    (hfree : d.entry? (walkTo (start d.workplace p) ds ++ [n]) = none) (content : List UInt8) :
    d.write p content = .ok (d.set (walkTo (start d.workplace p) ds ++ [n]) (.file content)) := by
  unfold write writeFrom
  rw [hp.resolveParent_of_canWalk hlinks hproper htakes.error hcan hdir]
  simp only [bind, Except.bind, Bool.false_eq_true, if_false, Nat.not_lt.mpr htakes.length, hfree]

end LeadsTo

/-- A text goes to its path under the name `n` by way of the name `m`, both in the directory that the steps `ds`
lead to. -/
structure Route (p : DiskPath) (ds : List FileName) (m n : FileName) : Prop where
  leadsTo : LeadsTo p ds n
  staged : LeadsTo (p.withExtension stagedExtension) ds m
  isAbsolute : (p.withExtension stagedExtension).isAbsolute = p.isAbsolute
  ne : m ≠ n
  proper : n.IsProper
  proper_staged : m.IsProper

/-- The text stands under `n` in the directory that the steps `ds` lead to, and nothing under `m`, by way of
which it is written; the system takes both names, and the directories around the text are there. -/
structure Settled (d : Disk) (p : DiskPath) (ds : List FileName) (m n : FileName) (content : List UInt8) :
    Prop where
  takes : Takes p n
  takes_staged : Takes (p.withExtension stagedExtension) m
  around : ∀ q, directoryOf? p = some q → d.isDirectory q = true
  canWalk : d.CanWalk (start d.workplace p) ds
  at_place : d.entry? (walkTo (start d.workplace p) ds ++ [n]) = some (.file content)
  at_staging : d.entry? (walkTo (start d.workplace p) ds ++ [m]) = none

section Again

variable {d d' : Disk} {p : DiskPath} {ds : List FileName} {m n : FileName} {content : List UInt8}

theorem Route.rename_of_file (hroute : Route p ds m n) (hlinks : d.Linkless) (htakes : Takes p n)
    (htakesm : Takes (p.withExtension stagedExtension) m) (hcan : d.CanWalk (start d.workplace p) ds)
    (hdir : d.isDirectoryAt (walkTo (start d.workplace p) ds) = true) {e : Entry}
    (he : d.entry? (walkTo (start d.workplace p) ds ++ [m]) = some e)
    (hfree : d.isDirectoryAt (walkTo (start d.workplace p) ds ++ [n]) = false) :
    d.rename (p.withExtension stagedExtension) p = .ok ((d.erase (walkTo (start d.workplace p) ds ++ [m])).set
      (walkTo (start d.workplace p) ds ++ [n]) e) := by
  have hstart : start d.workplace (p.withExtension stagedExtension) = start d.workplace p := by
    rw [start, start, hroute.isAbsolute]
  have hsource : d.resolveParent linkLimit d.workplace (p.withExtension stagedExtension) = _ :=
    hroute.staged.resolveParent_of_canWalk hlinks hroute.proper_staged htakesm.error (hstart ▸ hcan) (hstart ▸ hdir)
  have htarget : d.resolveParent linkLimit d.workplace p = _ :=
    hroute.leadsTo.resolveParent_of_canWalk hlinks hroute.proper htakes.error hcan hdir
  have hplaces : ¬walkTo (start d.workplace p) ds ++ [m] = walkTo (start d.workplace p) ds ++ [n] := by
    simpa using hroute.ne
  rw [hstart] at hsource
  unfold rename
  rw [hsource, htarget]
  simp only [bind, Except.bind, Nat.not_lt.mpr htakesm.length, Nat.not_lt.mpr htakes.length, decide_false,
    Bool.or_self, Bool.false_eq_true, if_false, he, hplaces, hfree]

theorem settled_of_replace (htree : d.IsTree) (hlinks : d.Linkless) (hroute : Route p ds m n)
    (h : d.replace p content = (d', .ok ())) : d'.Settled p ds m n content := by
  obtain ⟨htakes, htakesm, hstored⟩ := replace_spec htree hlinks hroute.leadsTo hroute.staged hroute.isAbsolute
    hroute.ne hroute.proper.ne_here hroute.proper.ne_up h
  have hwork := hstored.workplace
  refine ⟨htakes, htakesm, ?_, ?_, ?_, ?_⟩
  · intro q hq
    rcases replace_eq_ok h with ⟨hnone, _⟩ | ⟨q', d₁, hq', hmake, hstage⟩
    · rw [hq] at hnone
      cases hnone
    · rw [hq] at hq'
      cases hq'
      obtain ⟨htree₁, hgrew⟩ := makeDirectories_spec htree hlinks hmake
      have hlinks₁ := hgrew.linkless hlinks
      obtain ⟨_, _, hstored₁⟩ :=
        stage_spec htree₁ hlinks₁ hroute.leadsTo hroute.staged hroute.isAbsolute hroute.ne hstage
      exact isDirectory_of_directory hlinks₁ hstored₁.linkless hstored₁.workplace hstored₁.directory
        (isDirectory_of_makeDirectories htree hlinks (of_directoryOf? hq).1 hmake)
  · rw [hwork]
    exact (canWalk_append.mp hstored.canWalk).1
  · rw [hwork]
    exact hstored.at_place
  · rw [hwork]
    exact hstored.at_staging

namespace Settled

/-- A text stays settled as long as no directory goes, its own place is the same and the one that it goes by is
free. -/
theorem of_unchanged (h : d.Settled p ds m n content) (htree : d.IsTree) (hlinks : d.Linkless)
    (hlinks' : d'.Linkless) (hwork : d'.workplace = d.workplace)
    (hdir : ∀ l, d.isDirectoryAt l = true → d'.isDirectoryAt l = true)
    (hplace : d'.entry? (walkTo (start d.workplace p) ds ++ [n]) = some (.file content))
    (hstaging : d'.entry? (walkTo (start d.workplace p) ds ++ [m]) = none) : d'.Settled p ds m n content where
  takes := h.takes
  takes_staged := h.takes_staged
  around q hq := isDirectory_of_directory hlinks hlinks' hwork hdir (h.around q hq)
  canWalk := by
    have hparent := hdir _ (htree.parent _ n (by rw [h.at_place]; simp))
    rw [hwork]
    refine h.canWalk.mono hdir ?_
    rw [isDirectoryAt_iff.mp hparent]
    simp
  at_place := hwork.symm ▸ hplace
  at_staging := hwork.symm ▸ hstaging

theorem of_sameTree (h : d.Settled p ds m n content) (htree : d.IsTree) (hlinks : d.Linkless)
    (hsame : SameTree d d') : d'.Settled p ds m n content := by
  refine h.of_unchanged htree hlinks (hsame.linkless hlinks) hsame.workplace ?_ ?_ ?_
  · exact fun l hl => (hsame.isDirectoryAt l).trans hl
  · exact (hsame.entries _).trans h.at_place
  · exact (hsame.entries _).trans h.at_staging

theorem stage_again (h : d.Settled p ds m n content) (htree : d.IsTree) (hlinks : d.Linkless)
    (hroute : Route p ds m n) : ∃ d', d.stage p content = (d', .ok ()) ∧ SameTree d d' := by
  have hstart : start d.workplace (p.withExtension stagedExtension) = start d.workplace p := by
    rw [start, start, hroute.isAbsolute]
  have hdir := htree.parent _ n (by rw [h.at_place]; simp)
  have hfree : d.isDirectoryAt (walkTo (start d.workplace p) ds ++ [m]) = false := by
    rw [isDirectoryAt, h.at_staging]
    rfl
  have hwrite := hroute.staged.write_of_free hlinks hroute.proper_staged h.takes_staged (hstart ▸ h.canWalk)
    (hstart ▸ hdir) (hstart ▸ h.at_staging) content
  rw [hstart] at hwrite
  have hentries := entry?_set d (l := walkTo (start d.workplace p) ds ++ [m]) (by simp) (.file content)
  have hkept : ∀ l, d.isDirectoryAt l = true →
      isDirectoryAt (d.set (walkTo (start d.workplace p) ds ++ [m]) (.file content)) l = true := by
    intro l hl
    have hne : l ≠ walkTo (start d.workplace p) ds ++ [m] := by
      intro heq
      rw [heq, hfree] at hl
      cases hl
    rwa [isDirectoryAt_set_of_ne d (by simp) hne]
  have hplace : isDirectoryAt (d.set (walkTo (start d.workplace p) ds ++ [m]) (.file content))
      (walkTo (start d.workplace p) ds ++ [n]) = false := by
    rw [isDirectoryAt_set_of_ne d (by simp) (by simpa using hroute.ne.symm), isDirectoryAt, h.at_place]
    rfl
  have hrename := hroute.rename_of_file (e := .file content)
    (hlinks.set (l := walkTo (start d.workplace p) ds ++ [m]) (by simp) fun target => by simp) h.takes h.takes_staged
    (h.canWalk.mono hkept (by rw [isDirectoryAt_iff.mp (hkept _ hdir)]; simp)) (hkept _ hdir)
    (by rw [hentries]; exact if_pos rfl) hplace
  have hmoved := moved htree n hfree content
  refine ⟨_, ?_, hmoved.workplace, ?_⟩
  · unfold stage
    simp only [hwrite, hrename]
    rfl
  · intro l
    rw [hmoved.entries]
    split
    · next heq => rw [heq, h.at_place]
    · split
      · next heq => rw [heq, h.at_staging]
      · rfl

/-- A text that stands at its place can be put there once more, and the tree is then the same. -/
theorem replace_again (h : d.Settled p ds m n content) (htree : d.IsTree) (hlinks : d.Linkless)
    (hroute : Route p ds m n) : ∃ d', d.replace p content = (d', .ok ()) ∧ SameTree d d' := by
  obtain ⟨d', hstage, hsame⟩ := h.stage_again htree hlinks hroute
  refine ⟨d', ?_, hsame⟩
  unfold replace
  cases hq : directoryOf? p with
  | none => exact hstage
  | some q =>
    dsimp only
    rw [makeDirectories_of_isDirectory htree hlinks (h.around q hq)]
    exact hstage

end Settled

end Again

end Disk

/-! ## Units that stand already -/

theorem GeneratedUnit.IsPlace.route {key : String} {directories : List FileName} {own : FileName}
    (h : IsPlace key directories own) (base : DiskPath) :
    Disk.Route (pathIn key base) (base.named ++ directories) (own ++ stagingEnding) (own ++ unitEnding) :=
  ⟨h.leadsTo base, h.leadsTo_staged base, h.isAbsolute_staged base, staging_ne_unit own own,
    isProper_unit h.own_plain, isProper_staging h.own_plain⟩

namespace Disk

open GeneratedUnit

/-- The unit stands at its place below the directory. -/
def SettledUnit (d : Disk) (base : DiskPath) (u : GeneratedUnit) : Prop :=
  ∃ directories own, IsPlace u.key directories own ∧
    d.Settled (pathIn u.key base) (base.named ++ directories) (own ++ stagingEnding) (own ++ unitEnding)
      (Text.encode u.content)

/-- Every unit that a run has written stands at its place when the run ends. -/
theorem settled_writeUnits {d : Disk} (htree : d.IsTree) (hlinks : d.Linkless) {base : DiskPath}
    {units : List GeneratedUnit} (hplaces : ∀ u ∈ units, ∃ directories own, IsPlace u.key directories own)
    (hkeys : (units.map GeneratedUnit.key).Nodup) {paths : List DiskPath}
    (h : (d.writeUnits base units).outcome.result = .ok paths) :
    ∀ u ∈ units, (d.writeUnits base units).disk.SettledUnit base u := by
  induction units generalizing d paths with
  | nil => simp
  | cons u rest ih =>
    obtain ⟨directories, own, hplace⟩ := hplaces u List.mem_cons_self
    obtain ⟨hkey, hkeys⟩ := List.nodup_cons.mp hkeys
    have hlater := fun w hw => hplaces w (List.mem_cons_of_mem u hw)
    have hapart : ∀ w ∈ rest, u.key ≠ w.key := fun w hw heq => hkey (heq ▸ List.mem_map_of_mem hw)
    obtain ⟨d₁, more, hreplace, hmore, rfl, hdisk⟩ := writeUnits_cons_eq_ok h
    obtain ⟨hfirst, hcan⟩ := Written.of_replace htree hlinks hplace hreplace
    obtain ⟨_, hrest⟩ := writeUnits_spec hfirst.tree hfirst.linkless hlater hkeys hmore
    rw [hdisk]
    intro w hw
    rcases List.mem_cons.mp hw with rfl | hw
    · have hsettled := settled_of_replace htree hlinks (hplace.route base) hreplace
      have hcontent := Written.content_kept hplaces hapart hfirst hrest
      have hstaged := Written.staged_kept hplaces hapart hfirst hcan hrest
      obtain ⟨_, _, _, hentry⟩ := (find_eq_ok_iff hrest.linkless).mp hcontent
      rw [← placeOf_congr hfirst.workplace, hplace.placeOf_eq, ← hplace.walkTo_directories] at hentry
      rw [← placeOf_congr hfirst.workplace, hplace.placeOf_staged, ← hplace.walkTo_directories] at hstaged
      exact ⟨directories, own, hplace, hsettled.of_unchanged hfirst.tree hfirst.linkless hrest.linkless
        hrest.workplace hrest.directory hentry hstaged⟩
    · exact ih hfirst.tree hfirst.linkless hlater hkeys hmore w hw

theorem SettledUnit.of_sameTree {d d' : Disk} {base : DiskPath} {u : GeneratedUnit} (h : d.SettledUnit base u)
    (htree : d.IsTree) (hlinks : d.Linkless) (hsame : SameTree d d') : d'.SettledUnit base u := by
  obtain ⟨directories, own, hplace, hsettled⟩ := h
  exact ⟨directories, own, hplace, hsettled.of_sameTree htree hlinks hsame⟩

/-- Units that stand at their places can be written once more, and the tree is then the same. -/
theorem writeUnits_again {d : Disk} (htree : d.IsTree) (hlinks : d.Linkless) {base : DiskPath}
    {units : List GeneratedUnit} (h : ∀ u ∈ units, d.SettledUnit base u) :
    (d.writeUnits base units).outcome.result = .ok (planUnits base units) ∧
      SameTree d (d.writeUnits base units).disk := by
  induction units generalizing d with
  | nil => exact ⟨rfl, SameTree.refl d⟩
  | cons u rest ih =>
    obtain ⟨directories, own, hplace, hsettled⟩ := h u List.mem_cons_self
    obtain ⟨d₁, hreplace, hsame⟩ := hsettled.replace_again htree hlinks (hplace.route base)
    obtain ⟨hanswer, hrest⟩ := ih (hsame.isTree htree) (hsame.linkless hlinks)
      fun w hw => (h w (List.mem_cons_of_mem u hw)).of_sameTree htree hlinks hsame
    unfold writeUnits
    dsimp only
    rw [hreplace]
    refine ⟨?_, hsame.trans hrest⟩
    rw [Outcome.result_bind_of_ok (Outcome.result_tell _), Outcome.result_bind_of_ok hanswer]
    rfl

end Disk

end TypedId
