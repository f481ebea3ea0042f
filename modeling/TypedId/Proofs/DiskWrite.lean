import TypedId.Files.Write
import TypedId.Proofs.DiskWalk

/-!
What putting a text at a path does to a disk without links. Making the directories around it adds directories
along the path and changes nothing else (`Grew`). Writing the text and moving it to its place changes
two places: the text is at its own, and nothing is at the one where it was written first
(`Stored`).
-/
namespace TypedId

namespace Disk

open FileName

/-! ## New directories -/

/-- Whatever stands on the first disk stands on the second, and what is new there is a directory at one of
the places. -/
structure Grew (places : Location → Prop) (d d' : Disk) : Prop where
  workplace : d'.workplace = d.workplace
  kept : ∀ l e, d.entry? l = some e → d'.entry? l = some e
  fresh : ∀ l, d.entry? l = none → d'.entry? l = none ∨ d'.entry? l = some .directory ∧ places l

namespace Grew

variable {places places' : Location → Prop} {d d' d'' : Disk}

theorem refl (places : Location → Prop) (d : Disk) : Grew places d d :=
  ⟨rfl, fun _ _ h => h, fun _ h => Or.inl h⟩

theorem trans (h : Grew places d d') (h' : Grew places d' d'') : Grew places d d'' where
  workplace := h'.workplace.trans h.workplace
  kept l e he := h'.kept l e (h.kept l e he)
  fresh l hl := by
    rcases h.fresh l hl with hnone | ⟨hdir, hplace⟩
    · exact h'.fresh l hnone
    · exact Or.inr ⟨h'.kept l _ hdir, hplace⟩

theorem mono (h : Grew places d d') (hplaces : ∀ l, places l → places' l) : Grew places' d d' where
  workplace := h.workplace
  kept := h.kept
  fresh l hl := (h.fresh l hl).imp_right fun hdir => ⟨hdir.1, hplaces l hdir.2⟩

theorem linkless (h : Grew places d d') (hlinks : d.Linkless) : d'.Linkless := by
  intro l target hentry
  cases he : d.entry? l with
  | some e =>
    rw [h.kept l e he] at hentry
    cases hentry
    exact hlinks l target he
  | none =>
    rcases h.fresh l he with hnone | ⟨hdir, _⟩
    · rw [hnone] at hentry
      cases hentry
    · rw [hdir] at hentry
      cases hentry

theorem isDirectoryAt (h : Grew places d d') {l : Location} (hl : d.isDirectoryAt l = true) :
    d'.isDirectoryAt l = true :=
  isDirectoryAt_iff.mpr (h.kept l _ (isDirectoryAt_iff.mp hl))

end Grew

/-- A directory that is made where nothing stands is all that is new. -/
theorem grew_set_directory {d : Disk} {l : Location} (h : d.entry? l = none) :
    Grew (fun l' => l' = l) d (d.set l .directory) := by
  have hne : l ≠ [] := by
    rintro rfl
    cases h
  refine ⟨rfl, ?_, ?_⟩
  · intro l' e he
    rw [entry?_set d hne, if_neg (fun heq => by rw [heq, h] at he; cases he)]
    exact he
  · intro l' hl'
    rw [entry?_set d hne]
    split
    · next heq => exact Or.inr ⟨rfl, heq⟩
    · exact Or.inl hl'

/-- A directory with a proper name beside others keeps the disk a tree. -/
theorem IsTree.set {d : Disk} (h : d.IsTree) {l : Location} {n : FileName} (hn : slash ∉ n)
    (hl : d.isDirectoryAt l = true) {e : Entry}
    (hdir : d.isDirectoryAt (l ++ [n]) = true → e = .directory) : (d.set (l ++ [n]) e).IsTree := by
  have hne : l ++ [n] ≠ [] := by simp
  have hkeep : ∀ l', d.isDirectoryAt l' = true → (d.set (l ++ [n]) e).isDirectoryAt l' = true := by
    intro l' hl'
    rw [isDirectoryAt_iff, entry?_set d hne]
    split
    · next heq =>
      subst heq
      rw [hdir hl']
    · exact isDirectoryAt_iff.mp hl'
  constructor
  · intro l' n' hentry
    rw [entry?_set d hne] at hentry
    split at hentry
    · next heq =>
      obtain ⟨rfl, _⟩ := List.append_inj' heq rfl
      exact hkeep _ hl
    · exact hkeep _ (h.parent l' n' hentry)
  · intro l' n' hentry
    rw [entry?_set d hne] at hentry
    split at hentry
    · next heq =>
      obtain ⟨_, hn'⟩ := List.append_inj' heq rfl
      cases hn'
      exact hn
    · exact h.name l' n' hentry
  · exact hkeep _ h.workplace

/-- Nothing stands below a place that is no directory. -/
theorem IsTree.entry?_below {d : Disk} (h : d.IsTree) {l : Location} (hl : d.isDirectoryAt l = false)
    {more : List FileName} (hmore : more ≠ []) : d.entry? (l ++ more) = none := by
  induction more generalizing l with
  | nil => exact absurd rfl hmore
  | cons n rest ih =>
    have hn : d.entry? (l ++ [n]) = none := by
      apply Classical.byContradiction
      intro hsome
      rw [h.parent l n hsome] at hl
      cases hl
    cases rest with
    | nil => exact hn
    | cons n' others =>
      rw [List.append_cons]
      refine ih ?_ (List.cons_ne_nil n' others)
      rw [← Bool.not_eq_true, isDirectoryAt_iff, hn]
      simp

theorem Linkless.set {d : Disk} (h : d.Linkless) {l : Location} (hl : l ≠ []) {e : Entry}
    (he : ∀ target, e ≠ .link target) : (d.set l e).Linkless := by
  intro l' target hentry
  rw [entry?_set d hl] at hentry
  split at hentry
  · exact he target (Option.some.inj hentry)
  · exact h l' target hentry

/-- The system takes the path and its last name. -/
structure Takes (p : DiskPath) (n : FileName) : Prop where
  error : pathError? p = none
  length : n.length ≤ nameLimit

/-- A directory is made under the last name of its path, in a directory that is there. -/
theorem makeDirectory_eq_ok {d d' : Disk} (hlinks : d.Linkless) {p : DiskPath} (h : d.makeDirectory p = .ok d') :
    ∃ ds n, p.named = ds ++ [n] ∧ n ≠ herePiece ∧ n ≠ upPiece ∧ Takes p n ∧ d.CanWalk (start d.workplace p) ds ∧
      d.isDirectoryAt (walkTo (start d.workplace p) ds) = true ∧
      d.entry? (walkTo (start d.workplace p) ds ++ [n]) = none ∧
      d' = d.set (walkTo (start d.workplace p) ds ++ [n]) .directory := by
  unfold makeDirectory at h
  cases hparent : d.resolveParent linkLimit d.workplace p with
  | error cause =>
    rw [hparent] at h
    cases h
  | ok found =>
    obtain ⟨directory, last⟩ := found
    rw [hparent] at h
    obtain ⟨herror, hcan, hto, hdirectory, hlast⟩ := resolveParent_eq_ok hlinks hparent
    cases last with
    | points => cases h
    | name n slashed =>
      obtain ⟨hn, hhere, hup, _⟩ := hlast n slashed rfl
      obtain ⟨ds, hds⟩ := List.getLast?_eq_some_iff.mp hn
      rw [hds, List.dropLast_concat] at hcan hto
      subst hto
      simp only [bind, Except.bind] at h
      split at h
      · cases h
      · next hlength =>
        split at h
        · cases h
        · next hnone =>
          cases h
          exact ⟨ds, n, hds, hhere, hup, ⟨herror, Nat.le_of_not_lt hlength⟩, hcan, hdirectory, hnone, rfl⟩

theorem makeDirectory_spec {d d' : Disk} (htree : d.IsTree) (hlinks : d.Linkless) {p : DiskPath}
    (h : d.makeDirectory p = .ok d') :
    d'.IsTree ∧ Grew (fun l => l = walkTo (start d.workplace p) p.named) d d' := by
  obtain ⟨ds, n, hnamed, hhere, hup, _, _, hdirectory, hnone, rfl⟩ := makeDirectory_eq_ok hlinks h
  have hplace : walkTo (start d.workplace p) p.named = walkTo (start d.workplace p) ds ++ [n] := by
    rw [hnamed, walkTo_append, walkTo, if_neg hhere, if_neg hup, walkTo]
  have hn : slash ∉ n := DiskPath.no_slash_of_mem_named (p := p) (by rw [hnamed]; simp)
  exact ⟨htree.set hn hdirectory fun _ => rfl, (grew_set_directory hnone).mono fun l hl => hl.trans hplace.symm⟩

/-- What every directory that is made keeps, nested ones keep together, whatever comes of them. -/
theorem makeNested_induction {P : Disk → Prop} {ps : List DiskPath}
    (hmake : ∀ p ∈ ps, ∀ d d', P d → d.makeDirectory p = .ok d' → P d') {d d' : Disk} {r : Except DiskError Unit}
    (hd : P d) (h : d.makeNested ps = (d', r)) : P d' := by
  induction ps generalizing d' r with
  | nil =>
    cases h
    exact hd
  | cons p around ih =>
    have hfirst := hmake p List.mem_cons_self
    unfold makeNested at h
    split at h
    · next hok =>
      cases h
      exact hfirst _ _ hd hok
    · split at h
      · next d₁ cause hnested =>
        cases h
        exact ih (fun q hq => hmake q (List.mem_cons_of_mem p hq)) hnested
      · next d₁ hnested =>
        have hd₁ := ih (fun q hq => hmake q (List.mem_cons_of_mem p hq)) hnested
        split at h
        · next hok =>
          cases h
          exact hfirst _ _ hd₁ hok
        · cases h
          exact hd₁
    · cases h
      exact hd

theorem makeNested_spec {d d' : Disk} {r : Except DiskError Unit} (htree : d.IsTree) (hlinks : d.Linkless)
    {ps : List DiskPath} (h : d.makeNested ps = (d', r)) :
    d'.IsTree ∧ Grew (fun l => ∃ p ∈ ps, l = walkTo (start d.workplace p) p.named) d d' := by
  refine makeNested_induction
    (P := fun x => x.IsTree ∧ Grew (fun l => ∃ p ∈ ps, l = walkTo (start d.workplace p) p.named) d x)
    ?_ ⟨htree, Grew.refl _ d⟩ h
  intro p hp x x' hx hmake
  obtain ⟨htree', hgrew⟩ := makeDirectory_spec hx.1 (hx.2.linkless hlinks) hmake
  rw [hx.2.workplace] at hgrew
  exact ⟨htree', hx.2.trans (hgrew.mono fun l hl => ⟨p, hp, hl⟩)⟩

/-- The directories around a path lead along its first names, from the same start. -/
theorem of_mem_ancestors {p q : DiskPath} {limit : Nat} (h : q ∈ ancestors p limit) :
    q.named <+: p.named ∧ q.isAbsolute = p.isAbsolute := by
  induction limit generalizing p with
  | zero => cases h
  | succ limit ih =>
    unfold ancestors at h
    split at h
    · cases h
    · split at h
      · next up hup =>
        rcases List.mem_cons.mp h with rfl | h
        · exact ⟨List.prefix_refl _, rfl⟩
        · obtain ⟨hfirst, hkind⟩ := ih h
          obtain ⟨hup', hempty | hkind'⟩ := DiskPath.of_parent? hup
          · cases limit with
            | zero => cases h
            | succ limit => simp [ancestors, hempty] at h
          · exact ⟨hfirst.trans hup', hkind.trans hkind'⟩
      · rw [List.mem_singleton.mp h]
        exact ⟨List.prefix_refl _, rfl⟩

theorem makeDirectories_spec {d d' : Disk} {r : Except DiskError Unit} (htree : d.IsTree)
    (hlinks : d.Linkless) {p : DiskPath} (h : d.makeDirectories p = (d', r)) :
    d'.IsTree ∧ Grew (fun l => ∃ ns, ns <+: p.named ∧ l = walkTo (start d.workplace p) ns) d d' := by
  obtain ⟨htree', hgrew⟩ := makeNested_spec htree hlinks h
  refine ⟨htree', hgrew.mono ?_⟩
  intro l hsome
  obtain ⟨q, hq, rfl⟩ := hsome
  obtain ⟨hfirst, hkind⟩ := of_mem_ancestors hq
  exact ⟨q.named, hfirst, by rw [start, start, hkind]⟩

/-! ## Writing and moving -/

/-- A path leads to a name in a directory: its pieces are those on the way and the name, and no slash comes
after the name. -/
structure LeadsTo (p : DiskPath) (ds : List FileName) (n : FileName) : Prop where
  named : p.named = ds ++ [n]
  no_slash : p.bytes.getLast? ≠ some slash

theorem LeadsTo.steps {p : DiskPath} {ds : List FileName} {n : FileName} (h : LeadsTo p ds n) :
    Disk.steps p = ds ++ [n] := by
  have hlast : (p.bytes.getLast? == some slash) = false := by simpa using h.no_slash
  rw [Disk.steps, hlast, if_neg (by simp), List.append_nil]
  exact h.named

/-- What the parent of a path is found to be. -/
theorem LeadsTo.resolveParent_eq_ok {d : Disk} (hlinks : d.Linkless) {links : Nat}
    {here directory : Location} {p : DiskPath} {ds : List FileName} {n : FileName} (hp : LeadsTo p ds n)
    {last : LastPiece} (h : d.resolveParent links here p = .ok (directory, last)) :
    pathError? p = none ∧ d.CanWalk (start here p) ds ∧ walkTo (start here p) ds = directory ∧
      d.isDirectoryAt directory = true ∧ (last = .points ∨ last = .name n false ∧ n ≠ herePiece ∧ n ≠ upPiece) := by
  obtain ⟨herror, hcan, hto, hdir, hlast⟩ := Disk.resolveParent_eq_ok hlinks h
  rw [hp.named, List.dropLast_concat] at hcan hto
  refine ⟨herror, hcan, hto, hdir, ?_⟩
  cases last with
  | points => exact Or.inl rfl
  | name n' slashed =>
    obtain ⟨hn, hhere, hup, hslashed⟩ := hlast n' slashed rfl
    rw [hp.named, List.getLast?_concat] at hn
    cases hn
    have hnone : slashed = false := by
      rw [hslashed]
      simpa using hp.no_slash
    exact Or.inr ⟨by rw [hnone], hhere, hup⟩

theorem write_spec {d d' : Disk} (hlinks : d.Linkless) {p : DiskPath} {ds : List FileName} {n : FileName}
    (hp : LeadsTo p ds n) {content : List UInt8} (h : d.write p content = .ok d') :
    Takes p n ∧ d.CanWalk (start d.workplace p) ds ∧
      d.isDirectoryAt (walkTo (start d.workplace p) ds) = true ∧
      d.isDirectoryAt (walkTo (start d.workplace p) ds ++ [n]) = false ∧
      d' = d.set (walkTo (start d.workplace p) ds ++ [n]) (.file content) := by
  unfold write writeFrom at h
  cases hparent : d.resolveParent linkLimit d.workplace p with
  | error cause =>
    rw [hparent] at h
    cases h
  | ok found =>
    obtain ⟨directory, last⟩ := found
    rw [hparent] at h
    obtain ⟨herror, hcan, hto, hdir, rfl | ⟨rfl, _, _⟩⟩ := hp.resolveParent_eq_ok hlinks hparent
    · cases h
    · rw [hto]
      simp only [bind, Except.bind, Bool.false_eq_true, if_false] at h
      split at h
      · cases h
      · next hlength =>
        split at h
        · cases h
        · next target hlink => exact absurd hlink (hlinks _ target)
        · next hnot _ =>
          cases h
          refine ⟨⟨herror, Nat.le_of_not_lt hlength⟩, hcan, hdir, ?_, rfl⟩
          rw [← Bool.not_eq_true, isDirectoryAt_iff]
          exact hnot

theorem rename_spec {d d' : Disk} (hlinks : d.Linkless) {source target : DiskPath} {ds : List FileName}
    {m n : FileName} (hsource : LeadsTo source ds m) (htarget : LeadsTo target ds n)
    (hkind : source.isAbsolute = target.isAbsolute) (hne : m ≠ n)
    (h : d.rename source target = .ok d') {e : Entry}
    (he : d.entry? (walkTo (start d.workplace target) ds ++ [m]) = some e) :
    Takes target n ∧ n ≠ herePiece ∧ n ≠ upPiece ∧
      d.isDirectoryAt (walkTo (start d.workplace target) ds ++ [n]) = false ∧
      d' = (d.erase (walkTo (start d.workplace target) ds ++ [m])).set
        (walkTo (start d.workplace target) ds ++ [n]) e := by
  have hstart : start d.workplace source = start d.workplace target := by rw [start, start, hkind]
  unfold rename at h
  cases hold : d.resolveParent linkLimit d.workplace source with
  | error cause =>
    rw [hold] at h
    cases h
  | ok found =>
    obtain ⟨oldDirectory, oldLast⟩ := found
    rw [hold] at h
    simp only [bind, Except.bind] at h
    cases hnew : d.resolveParent linkLimit d.workplace target with
    | error cause =>
      rw [hnew] at h
      cases h
    | ok found =>
      obtain ⟨newDirectory, newLast⟩ := found
      rw [hnew] at h
      obtain ⟨_, _, hto, _, hlast⟩ := hsource.resolveParent_eq_ok hlinks hold
      obtain ⟨herror, _, hto', _, hlast'⟩ := htarget.resolveParent_eq_ok hlinks hnew
      rw [hstart] at hto
      rw [hto] at hto'
      subst hto'
      rw [hto] at he ⊢
      rcases hlast with rfl | ⟨rfl, _, _⟩
      · cases h
      · rcases hlast' with rfl | ⟨rfl, hhere, hup⟩
        · cases h
        · dsimp only at h
          split at h
          · cases h
          · next hlength =>
            simp only [he, Bool.or_self, Bool.false_eq_true, if_false] at h
            have hplaces : ¬oldDirectory ++ [m] = oldDirectory ++ [n] := by simpa using hne
            -- The two names differ, so this is not a move to where the file is already.
            rw [if_neg hplaces] at h
            split at h
            · cases h
            · next hdir =>
              cases h
              simp only [Bool.or_eq_true, decide_eq_true_eq, not_or, Nat.not_lt] at hlength
              exact ⟨⟨herror, hlength.2⟩, hhere, hup, by simpa using hdir, rfl⟩

/-! ## A text at its place -/

/-- The text has been put under the name `n` in the directory that the steps `ds` lead to, by way of the name
`m`. Nothing else has changed but for new directories on the way. -/
structure Stored (d d' : Disk) (here : Location) (ds : List FileName) (m n : FileName)
    (content : List UInt8) : Prop where
  tree : d'.IsTree
  linkless : d'.Linkless
  workplace : d'.workplace = d.workplace
  canWalk : d'.CanWalk here (ds ++ [n])
  at_place : d'.entry? (walkTo here ds ++ [n]) = some (.file content)
  at_staging : d'.entry? (walkTo here ds ++ [m]) = none
  directory : ∀ l, d.isDirectoryAt l = true → d'.isDirectoryAt l = true
  kept : ∀ l e, d.entry? l = some e → l ≠ walkTo here ds ++ [n] → l ≠ walkTo here ds ++ [m] →
    d'.entry? l = some e
  fresh : ∀ l, d.entry? l = none → l ≠ walkTo here ds ++ [n] →
    d'.entry? l = none ∨ d'.entry? l = some .directory ∧ ∃ ns, ns <+: ds ∧ l = walkTo here ns

/-- The disk after a text was written under the name `m` and moved to the name `n` in the same directory: it is
at the second, and nothing is at the first. -/
structure Moved (d d' : Disk) (l : Location) (m n : FileName) (content : List UInt8) : Prop where
  workplace : d'.workplace = d.workplace
  entries : ∀ l', d'.entry? l' =
    if l' = l ++ [n] then some (.file content) else if l' = l ++ [m] then none else d.entry? l'

theorem moved {d : Disk} (htree : d.IsTree) {l : Location} {m : FileName} (n : FileName)
    (hfree : d.isDirectoryAt (l ++ [m]) = false) (content : List UInt8) :
    Moved d (((d.set (l ++ [m]) (.file content)).erase (l ++ [m])).set (l ++ [n]) (.file content)) l m n
      content := by
  refine ⟨rfl, fun l' => ?_⟩
  rw [entry?_set _ (by simp), entry?_erase _ (by simp), entry?_set _ (by simp)]
  by_cases hplace : l' = l ++ [n]
  · rw [if_pos hplace, if_pos hplace]
  · rw [if_neg hplace, if_neg hplace]
    by_cases hstaging : l' = l ++ [m]
    · rw [if_pos (hstaging ▸ List.prefix_refl _), if_pos hstaging]
    · rw [if_neg hstaging, if_neg hstaging]
      split
      · next hbelow =>
        -- What stood below the place of writing is erased with it, but no directory was there.
        obtain ⟨more, rfl⟩ := hbelow
        refine (htree.entry?_below hfree ?_).symm
        intro heq
        subst heq
        exact hstaging (List.append_nil _)
      · rfl

namespace Moved

variable {d d' : Disk} {l : Location} {m n : FileName} {content : List UInt8}

theorem at_place (h : Moved d d' l m n content) : d'.entry? (l ++ [n]) = some (.file content) := by
  rw [h.entries, if_pos rfl]

theorem at_staging (h : Moved d d' l m n content) (hne : m ≠ n) : d'.entry? (l ++ [m]) = none := by
  have hplaces : l ++ [m] ≠ l ++ [n] := by simpa using hne
  rw [h.entries, if_neg hplaces, if_pos rfl]

/-- Whatever is there was there before, or is the text itself. -/
theorem eq_place_or_found (h : Moved d d' l m n content) {l' : Location} (hl' : d'.entry? l' ≠ none) :
    l' = l ++ [n] ∨ d.entry? l' ≠ none := by
  rw [h.entries] at hl'
  split at hl'
  · next heq => exact Or.inl heq
  · split at hl'
    · exact absurd rfl hl'
    · exact Or.inr hl'

theorem isDirectoryAt (h : Moved d d' l m n content) (hm : d.isDirectoryAt (l ++ [m]) = false)
    (hn : d.isDirectoryAt (l ++ [n]) = false) {l' : Location} (hl' : d.isDirectoryAt l' = true) :
    d'.isDirectoryAt l' = true := by
  have hplace : l' ≠ l ++ [n] := by
    intro heq
    rw [heq, hn] at hl'
    cases hl'
  have hstaging : l' ≠ l ++ [m] := by
    intro heq
    rw [heq, hm] at hl'
    cases hl'
  rw [isDirectoryAt_iff, h.entries, if_neg hplace, if_neg hstaging]
  exact isDirectoryAt_iff.mp hl'

theorem linkless (h : Moved d d' l m n content) (hlinks : d.Linkless) : d'.Linkless := by
  intro l' target hentry
  rw [h.entries] at hentry
  split at hentry
  · cases hentry
  · split at hentry
    · cases hentry
    · exact hlinks l' target hentry

theorem isTree (h : Moved d d' l m n content) (htree : d.IsTree) (hslash : slash ∉ n)
    (hdir : d.isDirectoryAt l = true) (hm : d.isDirectoryAt (l ++ [m]) = false)
    (hn : d.isDirectoryAt (l ++ [n]) = false) : d'.IsTree where
  parent around n' hl' := by
    rcases h.eq_place_or_found hl' with heq | hl'
    · rw [(List.append_inj' heq rfl).1]
      exact h.isDirectoryAt hm hn hdir
    · exact h.isDirectoryAt hm hn (htree.parent around n' hl')
  name around n' hl' := by
    rcases h.eq_place_or_found hl' with heq | hl'
    · cases (List.append_inj' heq rfl).2
      exact hslash
    · exact htree.name around n' hl'
  workplace := by
    rw [h.workplace]
    exact h.isDirectoryAt hm hn htree.workplace

end Moved

/-- The text that was written under `m` and moved to `n` is stored there. -/
theorem Stored.of_moved {d d' : Disk} {here : Location} {ds : List FileName} {m n : FileName}
    {content : List UInt8} (h : Moved d d' (walkTo here ds) m n content) (htree : d.IsTree)
    (hlinks : d.Linkless) (hslash : slash ∉ n) (hhere : n ≠ herePiece) (hup : n ≠ upPiece) (hne : m ≠ n)
    (hlength : n.length ≤ nameLimit) (hcan : d.CanWalk here ds)
    (hdir : d.isDirectoryAt (walkTo here ds) = true)
    (hm : d.isDirectoryAt (walkTo here ds ++ [m]) = false)
    (hn : d.isDirectoryAt (walkTo here ds ++ [n]) = false) : Stored d d' here ds m n content where
  tree := h.isTree htree hslash hdir hm hn
  linkless := h.linkless hlinks
  workplace := h.workplace
  canWalk := by
    have hdir' := h.isDirectoryAt hm hn hdir
    refine canWalk_append.mpr ⟨hcan.mono (fun l => h.isDirectoryAt hm hn) ?_, ?_⟩
    · rw [isDirectoryAt_iff.mp hdir']
      simp
    · rw [CanWalk, if_neg hhere, if_neg hup]
      exact ⟨hdir', hlength, by rw [h.at_place]; simp, trivial⟩
  at_place := h.at_place
  at_staging := h.at_staging hne
  directory _ hl := h.isDirectoryAt hm hn hl
  kept l e he hplace hstaging := by
    rw [h.entries, if_neg hplace, if_neg hstaging]
    exact he
  fresh l hl hplace := by
    left
    rw [h.entries, if_neg hplace, hl]
    exact ite_self none

/-- A text that has been put at its path was written by way of another one, and moved from there. -/
theorem exists_written_of_stage {d d' : Disk} {p : DiskPath} {content : List UInt8}
    (h : d.stage p content = (d', .ok ())) :
    ∃ d₁, d.write (p.withExtension stagedExtension) content = .ok d₁ ∧
      d₁.rename (p.withExtension stagedExtension) p = .ok d' := by
  unfold stage at h
  cases hwrite : d.write (p.withExtension stagedExtension) content with
  | error cause =>
    simp only [hwrite] at h
    cases h
  | ok d₁ =>
    simp only [hwrite] at h
    cases hrename : d₁.rename (p.withExtension stagedExtension) p with
    | error cause =>
      rw [hrename] at h
      cases h
    | ok d₂ =>
      rw [hrename] at h
      cases h
      exact ⟨d₁, rfl, hrename⟩

/-- A text that is put at its place is written under the name `m` beside it, and moved from there. -/
theorem stage_eq_ok {d d' : Disk} (hlinks : d.Linkless) {p : DiskPath} {ds : List FileName} {m n : FileName}
    (hp : LeadsTo p ds n) (hstaged : LeadsTo (p.withExtension stagedExtension) ds m)
    (hkind : (p.withExtension stagedExtension).isAbsolute = p.isAbsolute) (hne : m ≠ n)
    {content : List UInt8} (h : d.stage p content = (d', .ok ())) :
    Takes p n ∧ Takes (p.withExtension stagedExtension) m ∧ n ≠ herePiece ∧ n ≠ upPiece ∧
      d.CanWalk (start d.workplace p) ds ∧ d.isDirectoryAt (walkTo (start d.workplace p) ds) = true ∧
      d.isDirectoryAt (walkTo (start d.workplace p) ds ++ [m]) = false ∧
      d.isDirectoryAt (walkTo (start d.workplace p) ds ++ [n]) = false ∧
      d' = ((d.set (walkTo (start d.workplace p) ds ++ [m]) (.file content)).erase
        (walkTo (start d.workplace p) ds ++ [m])).set (walkTo (start d.workplace p) ds ++ [n]) (.file content) := by
  have hstart : start d.workplace (p.withExtension stagedExtension) = start d.workplace p := by
    rw [start, start, hkind]
  obtain ⟨d₁, hwrite, hrename⟩ := exists_written_of_stage h
  obtain ⟨htakes, hcan, hdir, hfree, rfl⟩ := write_spec hlinks hstaged hwrite
  rw [hstart] at hcan hdir hfree hrename
  have hentries := entry?_set d (l := walkTo (start d.workplace p) ds ++ [m]) (by simp) (.file content)
  have hlinks₁ := hlinks.set (l := walkTo (start d.workplace p) ds ++ [m]) (by simp)
    (e := .file content) (fun target => by simp)
  obtain ⟨htakes', hhere, hup, hfree', hd'⟩ :=
    rename_spec hlinks₁ hstaged hp hkind hne hrename ((hentries _).trans (if_pos rfl))
  change isDirectoryAt _ (walkTo (start d.workplace p) ds ++ [n]) = false at hfree'
  rw [isDirectoryAt, hentries, if_neg (by simpa using Ne.symm hne)] at hfree'
  exact ⟨htakes', htakes, hhere, hup, hcan, hdir, hfree, hfree', hd'⟩

theorem stage_spec {d d' : Disk} (htree : d.IsTree) (hlinks : d.Linkless) {p : DiskPath}
    {ds : List FileName} {m n : FileName} (hp : LeadsTo p ds n)
    (hstaged : LeadsTo (p.withExtension stagedExtension) ds m)
    (hkind : (p.withExtension stagedExtension).isAbsolute = p.isAbsolute) (hne : m ≠ n)
    {content : List UInt8} (h : d.stage p content = (d', .ok ())) :
    Takes p n ∧ Takes (p.withExtension stagedExtension) m ∧
      Stored d d' (start d.workplace p) ds m n content := by
  have hn : slash ∉ n := DiskPath.no_slash_of_mem_named (p := p) (by rw [hp.named]; simp)
  obtain ⟨htakes, htakesm, hhere, hup, hcan, hdir, hfree, hfree', rfl⟩ := stage_eq_ok hlinks hp hstaged hkind hne h
  exact ⟨htakes, htakesm, Stored.of_moved (moved htree n hfree content) htree hlinks hn hhere hup hne htakes.length
    hcan hdir hfree hfree'⟩

theorem Stored.of_grew {d d₁ d' : Disk} {here : Location} {ds : List FileName} {m n : FileName}
    {content : List UInt8} (hhere : n ≠ herePiece) (hup : n ≠ upPiece)
    (hgrew : Grew (fun l => ∃ ns, ns <+: ds ++ [n] ∧ l = walkTo here ns) d d₁)
    (h : Stored d₁ d' here ds m n content) : Stored d d' here ds m n content where
  tree := h.tree
  linkless := h.linkless
  workplace := h.workplace.trans hgrew.workplace
  canWalk := h.canWalk
  at_place := h.at_place
  at_staging := h.at_staging
  directory l hl := h.directory l (hgrew.isDirectoryAt hl)
  kept l e he := h.kept l e (hgrew.kept l e he)
  fresh l hl hne := by
    rcases hgrew.fresh l hl with hnone | ⟨hdir, ns, hns, rfl⟩
    · exact h.fresh l hnone hne
    · refine Or.inr ⟨isDirectoryAt_iff.mp (h.directory _ (isDirectoryAt_iff.mpr hdir)), ns, ?_, rfl⟩
      rcases List.prefix_concat_iff.mp hns with rfl | hns
      · -- The last name leads to the place of the text itself.
        refine absurd ?_ hne
        rw [walkTo_append, walkTo, if_neg hhere, if_neg hup, walkTo]
      · exact hns

/-- A text is put at a path after the directory around it has been made, if it has one. -/
theorem replace_eq_ok {d d' : Disk} {p : DiskPath} {content : List UInt8} (h : d.replace p content = (d', .ok ())) :
    directoryOf? p = none ∧ d.stage p content = (d', .ok ()) ∨
      ∃ q d₁, directoryOf? p = some q ∧ d.makeDirectories q = (d₁, .ok ()) ∧ d₁.stage p content = (d', .ok ()) := by
  unfold replace at h
  cases hdirectory : directoryOf? p with
  | none =>
    rw [hdirectory] at h
    exact Or.inl ⟨rfl, h⟩
  | some q =>
    rw [hdirectory] at h
    cases hmake : d.makeDirectories q with
    | mk d₁ r =>
      simp only [hmake] at h
      cases r with
      | error cause => cases h
      | ok u => exact Or.inr ⟨q, d₁, rfl, hmake, h⟩

/-- The directory around a path leads along its first names, from the same start. -/
theorem of_directoryOf? {p q : DiskPath} (h : directoryOf? p = some q) :
    q.bytes ≠ [] ∧ q.named <+: p.named ∧ q.isAbsolute = p.isAbsolute := by
  obtain ⟨hparent, hbytes⟩ := Option.filter_eq_some_iff.mp h
  have hne : q.bytes ≠ [] := by simpa using hbytes
  obtain ⟨hfirst, hkind⟩ := DiskPath.of_parent? hparent
  exact ⟨hne, hfirst, hkind.resolve_left hne⟩

theorem replace_spec {d d' : Disk} (htree : d.IsTree) (hlinks : d.Linkless) {p : DiskPath}
    {ds : List FileName} {m n : FileName} (hp : LeadsTo p ds n)
    (hstaged : LeadsTo (p.withExtension stagedExtension) ds m)
    (hkind : (p.withExtension stagedExtension).isAbsolute = p.isAbsolute) (hne : m ≠ n)
    (hhere : n ≠ herePiece) (hup : n ≠ upPiece) {content : List UInt8}
    (h : d.replace p content = (d', .ok ())) :
    Takes p n ∧ Takes (p.withExtension stagedExtension) m ∧
      Stored d d' (start d.workplace p) ds m n content := by
  rcases replace_eq_ok h with ⟨_, hstage⟩ | ⟨q, d₁, hq, hmake, hstage⟩
  · exact stage_spec htree hlinks hp hstaged hkind hne hstage
  · obtain ⟨_, hfirst, hsame⟩ := of_directoryOf? hq
    obtain ⟨htree₁, hgrew⟩ := makeDirectories_spec htree hlinks hmake
    obtain ⟨htakes, htakes', hstored⟩ := stage_spec htree₁ (hgrew.linkless hlinks) hp hstaged hkind hne hstage
    rw [hgrew.workplace] at hstored
    refine ⟨htakes, htakes', hstored.of_grew hhere hup (hgrew.mono ?_)⟩
    intro l hsome
    obtain ⟨ns, hns, rfl⟩ := hsome
    exact ⟨ns, hp.named ▸ hns.trans hfirst, by rw [start, start, hsame]⟩

end Disk

end TypedId
