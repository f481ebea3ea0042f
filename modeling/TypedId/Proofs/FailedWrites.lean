import Mathlib.Control.Monad.Basic
import TypedId.Proofs.LinkedWalks

/-!
What a text that could not be put at its path leaves behind, on a disk that may have links. The directories around
the path are made first, and they change nothing else (`noTrace_withDirectories`). If the text then cannot be
written beside its place, nothing more happens. If it has been written there and cannot be moved, it stays where it
was written: this is the one trace that a failure leaves (`failed_replace_iff`), and it leaves one
unless the same text stood there before (`text_left_behind`).
-/
namespace TypedId

open FileName

namespace Disk

/-! ## Nothing but directories -/

/-- One of the directories around a path is here. -/
def IsAround (d : Disk) (p : DiskPath) (l : Location) : Prop :=
  ∃ directory, directoryOf? p = some directory ∧
    ∃ q ∈ ancestors directory (directory.bytes.length + 1), d.find q = .ok (l, .directory)

/-- Whatever stands on the first disk stands on the second, with nothing else but directories around the path. -/
def NoTrace (p : DiskPath) (d d' : Disk) : Prop := Grew (d'.IsAround p) d d'

/-- The disk once the directories around a path have been made, as far as they can be. -/
def withDirectories (d : Disk) (p : DiskPath) : Disk :=
  match directoryOf? p with
  | none => d
  | some directory => (d.makeDirectories directory).1

section Directories

variable {d d' : Disk} {p : DiskPath}

/-- Nested directories are found under their paths once they have been made. -/
theorem grew_of_makeNested {ps : List DiskPath} {r : Except DiskError Unit} (h : d.makeNested ps = (d', r)) :
    Grew (fun l => ∃ q ∈ ps, d'.find q = .ok (l, .directory)) d d' := by
  refine makeNested_induction (P := fun x => Grew (fun l => ∃ q ∈ ps, x.find q = .ok (l, .directory)) d x) ?_
    (Grew.refl _ d) h
  intro q hq x x' hx hmake
  obtain ⟨l, hnone, rfl, hfind⟩ := find_of_makeDirectory hmake
  have hmade := grew_set_directory hnone
  refine (hx.mono ?_).trans (hmade.mono ?_)
  · rintro l' ⟨q', hq', hl'⟩
    exact ⟨q', hq', hmade.outlasts.find_directory hl'⟩
  · rintro _ rfl
    exact ⟨q, hq, hfind⟩

theorem IsAround.of_outlasts (h : Outlasts d d') {l : Location} (hl : d.IsAround p l) : d'.IsAround p l := by
  obtain ⟨directory, hdirectory, q, hq, hfind⟩ := hl
  exact ⟨directory, hdirectory, q, hq, h.find_directory hfind⟩

theorem noTrace_withDirectories (d : Disk) (p : DiskPath) : NoTrace p d (d.withDirectories p) := by
  unfold withDirectories
  split
  · exact Grew.refl _ d
  · next directory hdirectory =>
    exact (grew_of_makeNested rfl).mono fun l hl => ⟨directory, hdirectory, hl⟩

end Directories

/-! ## Where a failure happened -/

/-- The error names the path itself, where that is not the one by which the text is written first. -/
def FailedAtTarget (p : DiskPath) (e : Failure) : Prop := stagedPath p ≠ p ∧ ∃ cause, e = .unwritable p cause

/-- A path has one component more than that of the directory around it. -/
theorem ne_of_directoryOf? {p q : DiskPath} (h : directoryOf? p = some q) : q ≠ p := by
  rintro rfl
  obtain ⟨hparent, hbytes⟩ := Option.filter_eq_some_iff.mp h
  have hne := DiskPath.components_ne_nil (p := q) (by simpa using hbytes)
  have hlength := congrArg List.length (DiskPath.components_parent? hparent)
  rw [List.length_dropLast] at hlength
  have := List.length_pos_iff.mpr hne
  omega

section Failure

variable {d d' : Disk} {p : DiskPath} {content : List UInt8} {e : Failure}

/-- A text that is not moved to its place was not written, or is where it was written. -/
theorem stage_eq_error (h : d.stage p content = (d', .error e)) :
    ¬FailedAtTarget p e ∧ d' = d ∨ FailedAtTarget p e ∧ d.write (stagedPath p) content = .ok d' := by
  unfold stage at h
  cases hwrite : d.write (p.withExtension stagedExtension) content with
  | error cause =>
    simp only [hwrite] at h
    cases h
    refine Or.inl ⟨?_, rfl⟩
    rintro ⟨hne, _, he⟩
    rw [Failure.unwritable.injEq] at he
    exact hne he.1
  | ok d₁ =>
    simp only [hwrite] at h
    cases hrename : d₁.rename (p.withExtension stagedExtension) p with
    | ok d₂ =>
      rw [hrename] at h
      cases h
    | error cause =>
      rw [hrename] at h
      cases h
      refine Or.inr ⟨⟨?_, cause, rfl⟩, hwrite⟩
      -- A move of the text to where it is would not have failed.
      intro heq
      have heq : p.withExtension stagedExtension = p := heq
      rw [heq] at hwrite hrename
      rw [rename_self_of_write hwrite] at hrename
      cases hrename

theorem replace_eq_error (h : d.replace p content = (d', .error e)) :
    ¬FailedAtTarget p e ∧ d' = d.withDirectories p ∨
      FailedAtTarget p e ∧ (d.withDirectories p).write (stagedPath p) content = .ok d' := by
  unfold replace at h
  cases hdirectory : directoryOf? p with
  | none =>
    rw [hdirectory] at h
    rw [show d.withDirectories p = d by rw [withDirectories, hdirectory]]
    exact stage_eq_error h
  | some q =>
    rw [hdirectory] at h
    rw [show d.withDirectories p = (d.makeDirectories q).1 by rw [withDirectories, hdirectory]]
    cases hmake : d.makeDirectories q with
    | mk d₁ r =>
      simp only [hmake] at h
      cases r with
      | ok u => exact stage_eq_error h
      | error cause =>
        cases h
        refine Or.inl ⟨?_, rfl⟩
        rintro ⟨_, _, he⟩
        cases he
        exact ne_of_directoryOf? hdirectory rfl

theorem WritesAt.unique {l l' : Location} (h : d.WritesAt p l) (h' : d.WritesAt p l') : l = l' := by
  have hsame := (h []).symm.trans (h' [])
  have hentries := congrArg Disk.entries (Except.ok.inj hsame)
  have hlast := (List.append_inj' hentries rfl).2
  cases hlast
  rfl

/-- What was free to take a file before the directories were made is so afterwards. -/
theorem HasRoom.of_grew {places : Location → Prop} (h : Grew places d d') {l : Location} (hl : d'.HasRoom l) :
    d.HasRoom l := by
  cases he : d.entry? l with
  | none => exact Or.inl he
  | some found =>
    have hkept := h.kept l found he
    rcases hl with hnone | ⟨old, hold⟩
    · rw [hkept] at hnone
      cases hnone
    · rw [hkept] at hold
      cases hold
      exact Or.inr ⟨old, he⟩

/-- A text that is written leaves no trace exactly if it was there already. -/
theorem noTrace_set_iff {d₁ : Disk} {l : Location} (h : NoTrace p d d₁) (hl : d₁.HasRoom l) :
    NoTrace p d (d₁.set l (.file content)) ↔ d.entry? l = some (.file content) := by
  have hentries := entry?_set d₁ hl.ne_nil (.file content)
  constructor
  · intro htrace
    rcases hl.of_grew h with hnone | ⟨old, hold⟩
    · rcases htrace.fresh l hnone with hfresh | ⟨hfresh, _⟩
      · rw [hentries, if_pos rfl] at hfresh
        cases hfresh
      · rw [hentries, if_pos rfl] at hfresh
        cases hfresh
    · have hkept := htrace.kept l _ hold
      rw [hentries, if_pos rfl] at hkept
      cases hkept
      exact hold
  · intro hthere
    refine ⟨h.workplace, ?_, ?_⟩
    · intro l' e he
      rw [hentries]
      split
      · next heq => rw [← he, heq, hthere]
      · exact h.kept l' e he
    · intro l' hl'
      have hne : l' ≠ l := by
        rintro rfl
        rw [hthere] at hl'
        cases hl'
      rw [hentries, if_neg hne]
      exact (h.fresh l' hl').imp_right fun hdir => ⟨hdir.1, hdir.2.of_outlasts (hl.outlasts content)⟩

/-- What is left of a text that could not be put at its path: the directories around it that were missing, and the
text itself where it was written first, if it was not moved from there. So nothing else is left
exactly if it was not written, or stood there before. -/
theorem failed_replace_iff (h : d.replace p content = (d', .error e)) :
    (NoTrace p d d' ↔ (FailedAtTarget p e → ∀ l, (d.withDirectories p).WritesAt (stagedPath p) l →
      d.entry? l = some (.file content))) ∧
    NoTrace p d (d.withDirectories p) ∧
    (¬FailedAtTarget p e → d' = d.withDirectories p) ∧
    (FailedAtTarget p e → ∃ l, (d.withDirectories p).WritesAt (stagedPath p) l ∧ d.HasRoom l ∧
      d' = (d.withDirectories p).set l (.file content)) := by
  have haround := noTrace_withDirectories d p
  rcases replace_eq_error h with ⟨hbefore, rfl⟩ | ⟨htarget, hwrite⟩
  · exact ⟨⟨fun _ hat => absurd hat hbefore, fun _ => haround⟩, haround, fun _ => rfl, fun hat => absurd hat hbefore⟩
  · obtain ⟨l, hroom, hwrites⟩ := writesAt_of_write hwrite
    obtain rfl : (d.withDirectories p).set l (.file content) = d' := Except.ok.inj ((hwrites content).symm.trans hwrite)
    refine ⟨?_, haround, fun hnot => absurd htarget hnot, fun _ => ⟨l, hwrites, hroom.of_grew haround, rfl⟩⟩
    rw [noTrace_set_iff haround hroom]
    constructor
    · intro hthere _ l' hl'
      rw [hl'.unique hwrites]
      exact hthere
    · intro hall
      exact hall htarget l hwrites

end Failure

/-- Where the path ends in two points the directory around it is made, and nothing is written. -/
theorem failed_replace_iff_points :
    ∃ d' e, (bare (Text.encode "w")).replace (.ofString "n/..") (Text.encode "x") = (d', .error e) ∧
      d'.entry? [Text.encode "w", Text.encode "n"] = some .directory ∧
      NoTrace (.ofString "n/..") (bare (Text.encode "w")) d' := by
  have hfails : (bare (Text.encode "w")).replace (.ofString "n/..") (Text.encode "x") =
      ((bare (Text.encode "w")).withDirectories (.ofString "n/.."),
        .error (.unwritable (.ofString "n/..") .isDirectory)) := by decide +kernel
  refine ⟨_, _, hfails, by decide +kernel, (failed_replace_iff hfails).1.mpr ?_⟩
  rintro ⟨hne, _⟩
  exact absurd (by decide +kernel) hne

/-- A disk with a directory where a text is to be put. -/
def occupied : Disk where
  entries := [([Text.encode "w"], .directory), ([Text.encode "w", Text.encode "a.rs"], .directory)]
  workplace := [Text.encode "w"]

/-- The text cannot be moved over a directory, and stays where it was written, though nothing was there. -/
theorem text_left_behind :
    ∃ d' e, occupied.replace (.ofString "a.rs") (Text.encode "x") = (d', .error e) ∧
      occupied.entry? [Text.encode "w", Text.encode "a.tmp"] = none ∧
      d'.entry? [Text.encode "w", Text.encode "a.tmp"] = some (.file (Text.encode "x")) ∧
      ¬NoTrace (.ofString "a.rs") occupied d' := by
  have hfails : occupied.replace (.ofString "a.rs") (Text.encode "x") =
      (occupied.set [Text.encode "w", Text.encode "a.tmp"] (.file (Text.encode "x")),
        .error (.unwritable (.ofString "a.rs") .isDirectory)) := by decide +kernel
  have hnone : occupied.entry? [Text.encode "w", Text.encode "a.tmp"] = none := by decide +kernel
  have hleft : entry? (occupied.set [Text.encode "w", Text.encode "a.tmp"] (.file (Text.encode "x")))
      [Text.encode "w", Text.encode "a.tmp"] = some (.file (Text.encode "x")) := by decide +kernel
  refine ⟨_, _, hfails, hnone, hleft, fun htrace => ?_⟩
  rcases htrace.fresh _ hnone with hfresh | ⟨hfresh, _⟩ <;>
  · rw [hleft] at hfresh
    cases hfresh

end Disk

end TypedId
