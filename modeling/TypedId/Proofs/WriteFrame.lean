import Mathlib.Control.Monad.Basic
import TypedId.Proofs.LinkedWalks
import TypedId.Proofs.ModuleNames

/-!
What putting a text at its path changes on a disk without links, whatever the path looks like. The path then ends in
a name (`leadsTo_of_rename`), and the text is written under that name with another extension (`leadsTo_staged`),
which may be the same name. In the end the text stands at its path; besides, nothing is new but directories
on the way, and nothing is gone but what stood where the text was written first (`Placed`). So every other file is
kept exactly if none stood there (`replace_keeps_files_iff`), and one that did is lost (`staging_file_lost`).
-/
namespace TypedId

open FileName

/-! ## Paths that end in a name -/

namespace DiskPath

/-- What ends in an empty piece after others ends in a slash. -/
theorem getLast?_join_empty {ps : List FileName} (h : ps ≠ []) :
    (Text.join slash (ps ++ [[]])).getLast? = some slash := by
  induction ps with
  | nil => exact absurd rfl h
  | cons first rest ih =>
    rw [List.cons_append, Text.join_cons slash first (by simp)]
    cases rest with
    | nil => simp [Text.join]
    | cons next others =>
      have hrest := ih (List.cons_ne_nil next others)
      rw [List.getLast?_append, List.getLast?_cons, hrest]
      rfl

/-- The pieces of a path that no slash comes last in end in its last name. -/
theorem exists_pieces_concat {p : DiskPath} {ds : List FileName} {n : FileName} (h : Disk.LeadsTo p ds n) :
    ∃ ps, p.pieces = ps ++ [n] ∧ ds = ps.filter fun piece => !piece.isEmpty := by
  obtain ⟨ps, last, hpieces⟩ :=
    (List.eq_nil_or_concat p.pieces).resolve_left (Text.split_ne_nil slash p.bytes)
  rw [List.concat_eq_append] at hpieces
  have hnamed := h.named
  by_cases hlast : last = []
  · -- The path would end in a slash, or have no piece at all.
    exfalso
    rw [hlast] at hpieces
    by_cases hps : ps = []
    · simp [named, hpieces, hps] at hnamed
    · apply h.no_slash
      rw [bytes_eq_join, hpieces, getLast?_join_empty hps]
  · rw [named_of_pieces hpieces hlast] at hnamed
    obtain ⟨hds, hn⟩ := List.append_inj' hnamed rfl
    cases hn
    exact ⟨ps, hpieces, hds.symm⟩

end DiskPath

namespace Disk

/-! ## The two names of a text -/

/-- The name under which a text is written before it is moved to the name `n`. -/
def stagedName (n : FileName) : FileName := stem n ++ dot :: stagedExtension

theorem isProper_stagedName {n : FileName} (h : n.IsProper) : (stagedName n).IsProper := by
  have hlength : 4 ≤ (stagedName n).length := by
    have : stagedExtension.length = 3 := by decide +kernel
    simp only [stagedName, List.length_append, List.length_cons]
    omega
  have hne : ∀ m : FileName, m.length < 4 → stagedName n ≠ m := by
    rintro m hm rfl
    omega
  refine ⟨hne _ (by decide), ?_, hne _ (by decide), hne _ (by decide)⟩
  intro hmem
  rcases List.mem_append.mp hmem with hmem | hmem
  · exact no_slash_stem h.no_slash hmem
  · exact absurd hmem (by decide +kernel)

section Path

variable {p : DiskPath} {ds : List FileName} {n : FileName}

/-- The pieces of the path by which a text is written first are those of its own path but for the last name. -/
theorem exists_pieces_staged (hp : LeadsTo p ds n) (hproper : n.IsProper) :
    ∃ ps, p.pieces = ps ++ [n] ∧ (stagedPath p).pieces = ps ++ [stagedName n] ∧
      ds = ps.filter fun piece => !piece.isEmpty := by
  obtain ⟨ps, hpieces, hds⟩ := DiskPath.exists_pieces_concat hp
  exact ⟨ps, hpieces, DiskPath.pieces_withExtension hproper hpieces (isProper_stagedName hproper).no_slash, hds⟩

/-- A text is written in the directory where its path leads, under the other name. -/
theorem leadsTo_staged (hp : LeadsTo p ds n) (hproper : n.IsProper) :
    LeadsTo (stagedPath p) ds (stagedName n) ∧ (stagedPath p).isAbsolute = p.isAbsolute := by
  obtain ⟨ps, hpieces, hstaged, rfl⟩ := exists_pieces_staged hp hproper
  have hne := (isProper_stagedName hproper).ne_nil
  exact ⟨⟨DiskPath.named_of_pieces hstaged hne, DiskPath.getLast?_bytes hstaged hne⟩,
    DiskPath.isAbsolute_of_pieces hstaged hpieces⟩

theorem stagedPath_eq_iff (hp : LeadsTo p ds n) (hproper : n.IsProper) : stagedPath p = p ↔ stagedName n = n := by
  obtain ⟨ps, hpieces, hstaged, _⟩ := exists_pieces_staged hp hproper
  constructor
  · intro heq
    rw [heq, hpieces] at hstaged
    simpa using hstaged.symm
  · intro heq
    rw [heq, ← hpieces] at hstaged
    have hbytes : (stagedPath p).bytes = p.bytes := by
      rw [DiskPath.bytes_eq_join, hstaged, ← DiskPath.bytes_eq_join]
    exact congrArg DiskPath.mk hbytes

theorem LeadsTo.placeOf_eq (hp : LeadsTo p ds n) (hproper : n.IsProper) (d : Disk) :
    d.placeOf p = walkTo (start d.workplace p) ds ++ [n] := by
  have hhere : n ≠ herePiece := hproper.ne_here
  have hup : n ≠ upPiece := hproper.ne_up
  rw [placeOf, hp.named, walkTo_append, walkTo, if_neg hhere, if_neg hup, walkTo]

end Path

/-! ## Moving -/

/-- A text is moved to a name that no slash comes after. -/
theorem resolveParent_of_rename {d d' : Disk} {source target : DiskPath} (h : d.rename source target = .ok d') :
    ∃ directory n, d.resolveParent linkLimit d.workplace target = .ok (directory, .name n false) := by
  unfold rename at h
  cases hold : d.resolveParent linkLimit d.workplace source with
  | error cause =>
    rw [hold] at h
    cases h
  | ok found =>
    obtain ⟨oldDirectory, oldLast⟩ := found
    rw [hold] at h
    simp only [bind, Except.bind] at h
    cases hnew : d.resolveParent linkLimit d.workplace target with
    | error cause =>
      rw [hnew] at h
      cases h
    | ok found =>
      obtain ⟨newDirectory, newLast⟩ := found
      rw [hnew] at h
      cases oldLast with
      | points => cases h
      | name m oldSlashed =>
        cases newLast with
        | points => cases h
        | name n newSlashed =>
          dsimp only at h
          split at h
          · cases h
          · split at h
            · cases h
            · split at h
              · cases h
              · next hslashed =>
                simp only [Bool.or_eq_true, not_or, Bool.not_eq_true] at hslashed
                exact ⟨newDirectory, n, by rw [hslashed.2]⟩

section Frame

variable {d d' : Disk} {p : DiskPath} {content : List UInt8}

/-- A text that has been put at a path is there under a name. -/
theorem leadsTo_of_rename {source : DiskPath} (h : d.rename source p = .ok d') :
    ∃ ds n, LeadsTo p ds n ∧ n.IsProper := by
  obtain ⟨_, n, hparent⟩ := resolveParent_of_rename h
  obtain ⟨_, _, _, hlast, hhere, hup, hslashed⟩ := resolveParent_eq_name.mp hparent
  obtain ⟨ds, hnamed⟩ := List.getLast?_eq_some_iff.mp hlast
  have hmem : n ∈ p.named := hnamed ▸ List.mem_append_right ds (List.mem_singleton_self n)
  exact ⟨ds, n, ⟨hnamed, by simpa using hslashed.symm⟩,
    ⟨DiskPath.ne_nil_of_mem_named hmem, DiskPath.no_slash_of_mem_named hmem, hhere, hup⟩⟩

/-! ## What is new, and what is gone -/

/-- The text stands at its path. Whatever stood somewhere else is kept, but for what stood where the text was written
first, and nothing else is new but directories on the way. -/
structure Placed (d d' : Disk) (p : DiskPath) (content : List UInt8) : Prop where
  found : d'.find p = .ok (d.placeOf p, .file content)
  kept : ∀ l e, d.entry? l = some e → l ≠ d.placeOf p → l ≠ d.placeOf (stagedPath p) → d'.entry? l = some e
  staging : stagedPath p ≠ p →
    d.placeOf (stagedPath p) ≠ d.placeOf p ∧ d'.entry? (d.placeOf (stagedPath p)) = none
  fresh : ∀ l, d.entry? l = none → l ≠ d.placeOf p → d'.entry? l = none ∨ d'.entry? l = some .directory ∧
    ∃ ns, ns <+: p.named.dropLast ∧ l = walkTo (start d.workplace p) ns

/-- The text is written under another name and moved from there. -/
theorem Stored.placed {ds : List FileName} {n : FileName} (hp : LeadsTo p ds n) (hproper : n.IsProper)
    (herror : pathError? p = none)
    (h : Stored d d' (start d.workplace p) ds (stagedName n) n content) : Placed d d' p content := by
  obtain ⟨hstaged, hkind⟩ := leadsTo_staged hp hproper
  have hplace := hp.placeOf_eq hproper d
  have hstart : start d.workplace (stagedPath p) = start d.workplace p := by rw [start, start, hkind]
  have hstaging := hstaged.placeOf_eq (isProper_stagedName hproper) d
  rw [hstart] at hstaging
  have hlast : p.named.dropLast = ds := by rw [hp.named, List.dropLast_concat]
  refine ⟨?_, ?_, ?_, ?_⟩
  · refine (find_eq_ok_iff h.linkless).mpr ⟨herror, ?_, ?_, hplace ▸ h.at_place⟩
    · rw [h.workplace, hp.steps]
      exact h.canWalk
    · rw [h.workplace, hp.steps, ← hp.named, placeOf]
  · rw [hplace, hstaging]
    exact h.kept
  · intro hne
    rw [hplace, hstaging]
    rw [Ne, stagedPath_eq_iff hp hproper] at hne
    exact ⟨by simpa using hne, h.at_staging⟩
  · rw [hplace, hlast]
    exact h.fresh

/-- The way to a file can be walked once it stands there. -/
theorem canWalk_set_file {here : Location} {ds : List FileName} {n : FileName} (hproper : n.IsProper)
    (hlength : n.length ≤ nameLimit) (hcan : d.CanWalk here ds) (hdir : d.isDirectoryAt (walkTo here ds) = true)
    (hfree : d.isDirectoryAt (walkTo here ds ++ [n]) = false) (content : List UInt8) :
    (d.set (walkTo here ds ++ [n]) (.file content)).CanWalk here (ds ++ [n]) := by
  have hhere : n ≠ herePiece := hproper.ne_here
  have hup : n ≠ upPiece := hproper.ne_up
  have hkept : ∀ l, d.isDirectoryAt l = true →
      isDirectoryAt (d.set (walkTo here ds ++ [n]) (.file content)) l = true := by
    intro l hl
    have hne : l ≠ walkTo here ds ++ [n] := by
      rintro rfl
      rw [hfree] at hl
      cases hl
    rwa [isDirectoryAt_set_of_ne d (by simp) hne]
  refine canWalk_append.mpr ⟨hcan.mono hkept ?_, ?_⟩
  · rw [isDirectoryAt_iff.mp (hkept _ hdir)]
    simp
  · rw [CanWalk, if_neg hhere, if_neg hup]
    exact ⟨hkept _ hdir, hlength, by rw [entry?_set d (by simp), if_pos rfl]; simp, trivial⟩

/-- The text is written where it belongs, once the directories on the way have been made. -/
theorem Placed.of_write {d₁ : Disk} (hlinks : d₁.Linkless)
    (hgrew : Grew (fun l => ∃ ns, ns <+: p.named ∧ l = walkTo (start d.workplace p) ns) d d₁) {ds : List FileName}
    {n : FileName} (hp : LeadsTo p ds n) (hproper : n.IsProper) (hself : stagedPath p = p)
    (h : d₁.write p content = .ok d') : Placed d d' p content := by
  have hplace := hp.placeOf_eq hproper d
  obtain ⟨htakes, hcan, hdir, hfree, rfl⟩ := write_spec hlinks hp h
  rw [hgrew.workplace] at hcan hdir hfree ⊢
  have hway := canWalk_set_file hproper htakes.length hcan hdir hfree content
  rw [← hplace] at hway ⊢
  have hne : d.placeOf p ≠ [] := by simp [hplace]
  have hentries := entry?_set d₁ hne (.file content)
  refine ⟨?_, ?_, fun hnot => absurd hself hnot, ?_⟩
  · refine (find_eq_ok_iff (hlinks.set hne fun target => by simp)).mpr ⟨htakes.error, ?_, ?_, ?_⟩
    · rw [hp.steps]
      exact hgrew.workplace ▸ hway
    · rw [hp.steps, ← hp.named, placeOf, ← hgrew.workplace]
      rfl
    · rw [hentries, if_pos rfl]
  · intro l e he hl _
    rw [hentries, if_neg hl]
    exact hgrew.kept l e he
  · intro l hl hl'
    rw [hentries, if_neg hl']
    refine (hgrew.fresh l hl).imp_right ?_
    rintro ⟨hdirectory, ns, hns, rfl⟩
    refine ⟨hdirectory, ns, ?_, rfl⟩
    rw [hp.named] at hns
    rw [hp.named, List.dropLast_concat]
    refine (List.prefix_concat_iff.mp hns).resolve_left ?_
    rintro rfl
    exact hl' (by rw [placeOf, hp.named])

/-- What a text that has been put at its path changes, whatever the path looks like. -/
theorem placed_of_replace (htree : d.IsTree) (hlinks : d.Linkless) (h : d.replace p content = (d', .ok ())) :
    Placed d d' p content := by
  have hmade : ∃ d₁, d₁.Linkless ∧ d₁.stage p content = (d', .ok ()) ∧
      Grew (fun l => ∃ ns, ns <+: p.named ∧ l = walkTo (start d.workplace p) ns) d d₁ := by
    rcases replace_eq_ok h with ⟨_, hstage⟩ | ⟨q, d₁, hq, hmake, hstage⟩
    · exact ⟨d, hlinks, hstage, Grew.refl _ d⟩
    · obtain ⟨_, hfirst, hkind⟩ := of_directoryOf? hq
      have hgrew := (makeDirectories_spec htree hlinks hmake).2
      refine ⟨d₁, hgrew.linkless hlinks, hstage, hgrew.mono ?_⟩
      rintro l ⟨ns, hns, rfl⟩
      exact ⟨ns, hns.trans hfirst, by rw [start, start, hkind]⟩
  obtain ⟨d₁, hlinks₁, hstage, hgrew⟩ := hmade
  obtain ⟨d₂, hwrite, hrename⟩ := exists_written_of_stage hstage
  obtain ⟨ds, n, hp, hproper⟩ := leadsTo_of_rename hrename
  by_cases hself : stagedPath p = p
  · -- The move then leads from the place of the text to itself.
    have hsame : p.withExtension stagedExtension = p := hself
    rw [hsame] at hwrite hrename
    rw [rename_self_of_write hwrite] at hrename
    cases hrename
    exact Placed.of_write hlinks₁ hgrew hp hproper hself hwrite
  · obtain ⟨hstaged, hkind⟩ := leadsTo_staged hp hproper
    obtain ⟨htakes, _, hstored⟩ := replace_spec htree hlinks hp hstaged hkind
      (mt (stagedPath_eq_iff hp hproper).mpr hself) hproper.ne_here hproper.ne_up h
    exact hstored.placed hp hproper htakes.error

/-- **A text that has been put at its path changes nothing else but what stood where it was written first.** Every
other file is kept exactly if none stood there, or the text is written where it belongs. -/
theorem replace_keeps_files_iff (htree : d.IsTree) (hlinks : d.Linkless) (h : d.replace p content = (d', .ok ())) :
    Placed d d' p content ∧
      ((∀ l text, l ≠ d.placeOf p → d.entry? l = some (.file text) → d'.entry? l = some (.file text)) ↔
        stagedPath p = p ∨ d.isFileAt (d.placeOf (stagedPath p)) = false) := by
  have hplaced := placed_of_replace htree hlinks h
  refine ⟨hplaced, ?_, ?_⟩
  · intro hkept
    refine (Classical.em (stagedPath p = p)).imp_right fun hne => ?_
    obtain ⟨hapart, hgone⟩ := hplaced.staging hne
    rw [← Bool.not_eq_true, isFileAt_iff]
    rintro ⟨text, htext⟩
    rw [hkept _ text hapart htext] at hgone
    cases hgone
  · intro hfree l text hl htext
    refine hplaced.kept l _ htext hl fun heq => ?_
    rcases hfree with hself | hfree
    · rw [hself] at heq
      exact hl heq
    · rw [← Bool.not_eq_true, isFileAt_iff] at hfree
      exact hfree ⟨text, heq ▸ htext⟩

end Frame

/-- A disk with one file. -/
def oneFile : Disk where
  entries := [([Text.encode "w"], .directory),
    ([Text.encode "w", Text.encode "a.tmp"], .file (Text.encode "notes"))]
  workplace := [Text.encode "w"]

theorem isTree_oneFile : oneFile.IsTree := isTree_of_entries (by decide +kernel) (by decide +kernel)

theorem linkless_oneFile : oneFile.Linkless := linkless_of_entries (by simp [oneFile])

/-- The file is kept where a text is put beside it, by way of a directory that is made for it. -/
theorem replace_keeps_files_iff_oneFile :
    ∃ d', oneFile.replace (.ofString "n/../b.rs") (Text.encode "x") = (d', .ok ()) ∧
      d'.entry? [Text.encode "w", Text.encode "a.tmp"] = some (.file (Text.encode "notes")) ∧
      d'.find (.ofString "n/../b.rs") =
        .ok ([Text.encode "w", Text.encode "b.rs"], .file (Text.encode "x")) := by
  have hput : oneFile.replace (.ofString "n/../b.rs") (Text.encode "x") =
      ((oneFile.replace (.ofString "n/../b.rs") (Text.encode "x")).1, .ok ()) := by decide +kernel
  obtain ⟨hplaced, hkept⟩ := replace_keeps_files_iff isTree_oneFile linkless_oneFile hput
  have hfree : oneFile.isFileAt (oneFile.placeOf (stagedPath (.ofString "n/../b.rs"))) = false := by decide +kernel
  refine ⟨_, hput, hkept.mpr (Or.inr hfree) _ _ (by decide +kernel) (by decide +kernel), ?_⟩
  have hplace : oneFile.placeOf (.ofString "n/../b.rs") = [Text.encode "w", Text.encode "b.rs"] := by decide +kernel
  rw [← hplace]
  exact hplaced.found

/-- The file is gone where a text has been put that goes by its name. -/
theorem staging_file_lost :
    ∃ d', oneFile.replace (.ofString "a.rs") (Text.encode "x") = (d', .ok ()) ∧
      oneFile.entry? [Text.encode "w", Text.encode "a.tmp"] = some (.file (Text.encode "notes")) ∧
      [Text.encode "w", Text.encode "a.tmp"] ≠ oneFile.placeOf (.ofString "a.rs") ∧
      d'.entry? [Text.encode "w", Text.encode "a.tmp"] = none := by
  refine ⟨(oneFile.replace (.ofString "a.rs") (Text.encode "x")).1, ?_⟩
  decide +kernel

end Disk

end TypedId
