import TypedId.Proofs.PathPlaces

/-!
Walks on a disk where links may be on the way. A disk that keeps whatever stands on another one, but for the text of
files (`Outlasts`), leads every path to where the other one leads it (`Outlasts.resolve`). So a directory that
has been made is found under its path (`find_of_makeDirectory`), and a path under which one text can be
written takes every other at the same place (`WritesAt`).
-/
namespace TypedId

open FileName

namespace Disk

/-! ## Disks that outlast others -/

/-- Whatever stands on the first disk stands on the second, but for the text of files. -/
structure Outlasts (d d' : Disk) : Prop where
  workplace : d'.workplace = d.workplace
  kept : ∀ l e, d.entry? l = some e →
    d'.entry? l = some e ∨ ∃ old new, e = .file old ∧ d'.entry? l = some (.file new)

theorem Grew.outlasts {places : Location → Prop} {d d' : Disk} (h : Grew places d d') : Outlasts d d' :=
  ⟨h.workplace, fun l e he => Or.inl (h.kept l e he)⟩

/-- A file can stand here: nothing does so far, or a file. -/
def HasRoom (d : Disk) (l : Location) : Prop := d.entry? l = none ∨ ∃ old, d.entry? l = some (.file old)

namespace HasRoom

variable {d : Disk} {l : Location}

theorem ne_nil (h : d.HasRoom l) : l ≠ [] := by
  rintro rfl
  rcases h with hnone | ⟨old, hold⟩
  · cases hnone
  · cases hold

theorem outlasts (h : d.HasRoom l) (content : List UInt8) : Outlasts d (d.set l (.file content)) where
  workplace := rfl
  kept l' e he := by
    rw [entry?_set d h.ne_nil]
    split
    · next heq =>
      rw [heq] at he
      rcases h with hnone | ⟨old, hold⟩
      · rw [hnone] at he
        cases he
      · rw [hold] at he
        cases he
        exact Or.inr ⟨old, content, rfl, rfl⟩
    · exact Or.inl he

end HasRoom

namespace Outlasts

variable {d d' : Disk}

theorem isDirectoryAt (h : Outlasts d d') {l : Location} (hl : d.isDirectoryAt l = true) :
    d'.isDirectoryAt l = true := by
  rcases h.kept l _ (isDirectoryAt_iff.mp hl) with hdir | ⟨_, _, hfile, _⟩
  · exact isDirectoryAt_iff.mpr hdir
  · cases hfile

theorem walkSteps (h : Outlasts d d')
    {follow follow' : Location → DiskPath → List FileName → Except DiskError Location}
    (hfollow : ∀ here target todo l, follow here target todo = .ok l → follow' here target todo = .ok l)
    {here l : Location} {todo : List FileName} (hwalk : d.walkSteps true follow here todo = .ok l) :
    d'.walkSteps true follow' here todo = .ok l := by
  induction todo generalizing here with
  | nil => exact hwalk
  | cons piece rest ih =>
    rw [Disk.walkSteps] at hwalk ⊢
    cases hdir : d.isDirectoryAt here with
    | false => simp [hdir] at hwalk
    | true =>
      simp only [hdir, h.isDirectoryAt hdir, Bool.not_true, Bool.false_eq_true, if_false] at hwalk ⊢
      split at hwalk
      · next hhere =>
        rw [if_pos hhere]
        exact ih hwalk
      · next hhere =>
        rw [if_neg hhere]
        split at hwalk
        · next hup =>
          rw [if_pos hup]
          exact ih hwalk
        · next hup =>
          rw [if_neg hup]
          split at hwalk
          · cases hwalk
          · next hlength =>
            rw [if_neg hlength]
            cases hentry : d.entry? (here ++ [piece]) with
            | none =>
              rw [hentry] at hwalk
              cases hwalk
            | some e =>
              rw [hentry] at hwalk
              rcases h.kept _ e hentry with hsame | ⟨old, new, rfl, hnew⟩
              · rw [hsame]
                cases e with
                | link target =>
                  simp only [Bool.and_false, Bool.false_eq_true, if_false] at hwalk ⊢
                  exact hfollow here target rest l hwalk
                | _ => exact ih hwalk
              · rw [hnew]
                exact ih hwalk

theorem walk (h : Outlasts d d') {links : Nat} {here l : Location} {todo : List FileName}
    (hwalk : d.walk true links here todo = .ok l) : d'.walk true links here todo = .ok l := by
  induction links generalizing here l todo with
  | zero => exact h.walkSteps (fun _ _ _ _ hfollow => hfollow) hwalk
  | succ links ih =>
    refine h.walkSteps ?_ hwalk
    intro there target rest l' hfollow
    split
    · next herror =>
      rw [herror] at hfollow
      cases hfollow
    · next herror =>
      rw [herror] at hfollow
      exact ih hfollow

/-- Where a path leads it leads as well on a disk that outlasts this one. -/
theorem resolve (h : Outlasts d d') {p : DiskPath} {l : Location} (hp : d.resolve true p = .ok l) :
    d'.resolve true p = .ok l := by
  unfold Disk.resolve at hp ⊢
  split
  · next herror =>
    rw [herror] at hp
    cases hp
  · next herror =>
    rw [herror] at hp
    rw [h.workplace]
    exact h.walk hp

theorem find_directory (h : Outlasts d d') {p : DiskPath} {l : Location} (hp : d.find p = .ok (l, .directory)) :
    d'.find p = .ok (l, .directory) := by
  unfold find at hp ⊢
  cases hresolve : d.resolve true p with
  | error cause =>
    rw [hresolve] at hp
    cases hp
  | ok l' =>
    rw [hresolve] at hp
    rw [h.resolve hresolve]
    simp only [bind, Except.bind] at hp ⊢
    split at hp
    · next e he =>
      cases hp
      rw [isDirectoryAt_iff.mp (h.isDirectoryAt (isDirectoryAt_iff.mpr he))]
    · cases hp

end Outlasts

/-! ## The directory around the last name -/

section Parent

variable {d d' : Disk} {p : DiskPath} {links : Nat} {here directory : Location} {n : FileName} {slashed : Bool}

/-- The directory that holds the last name of a path is where the other names lead. -/
theorem resolveParent_eq_name : d.resolveParent links here p = .ok (directory, .name n slashed) ↔
    pathError? p = none ∧ d.walk true links (start here p) p.named.dropLast = .ok directory ∧
      d.isDirectoryAt directory = true ∧ p.named.getLast? = some n ∧ n ≠ herePiece ∧ n ≠ upPiece ∧
      slashed = (p.bytes.getLast? == some slash) := by
  have hnamed : (p.pieces.filter fun piece => !piece.isEmpty) = p.named := rfl
  unfold resolveParent
  cases herror : pathError? p with
  | some e => simp
  | none =>
    change (d.walk true links (start here p) p.named.dropLast >>= _) = _ ↔ _
    cases hwalk : d.walk true links (start here p) p.named.dropLast with
    | error cause => simp [bind, Except.bind]
    | ok l =>
      simp only [bind, Except.bind, Except.ok.injEq, true_and]
      cases hdir : d.isDirectoryAt l with
      | false =>
        simp only [Bool.not_false, if_true, reduceCtorEq, false_iff, not_and]
        rintro rfl hdirectory
        rw [hdir] at hdirectory
        cases hdirectory
      | true =>
        simp only [Bool.not_true, Bool.false_eq_true, if_false, hnamed]
        cases p.named.getLast? with
        | none => simp
        | some piece =>
          by_cases hpoints : piece = herePiece ∨ piece = upPiece
          · -- A point is no name.
            have hyes : (decide (piece = herePiece) || decide (piece = upPiece)) = true := by simpa using hpoints
            simp only [hyes, if_true, Except.ok.injEq, Prod.mk.injEq, reduceCtorEq, and_false, false_iff]
            rintro ⟨_, _, hlast, hhere, hup, _⟩
            cases hlast
            exact hpoints.elim hhere hup
          · have hnot : ¬(decide (piece = herePiece) || decide (piece = upPiece)) = true := by simpa using hpoints
            rw [not_or] at hpoints
            simp only [if_neg hnot, Except.ok.injEq, Prod.mk.injEq, LastPiece.name.injEq, Option.some.injEq]
            constructor
            · rintro ⟨rfl, rfl, rfl⟩
              exact ⟨rfl, hdir, rfl, hpoints.1, hpoints.2, rfl⟩
            · rintro ⟨rfl, _, rfl, _, _, rfl⟩
              exact ⟨rfl, rfl, rfl⟩

theorem Outlasts.resolveParent (h : Outlasts d d')
    (hparent : d.resolveParent links here p = .ok (directory, .name n slashed)) :
    d'.resolveParent links here p = .ok (directory, .name n slashed) := by
  obtain ⟨herror, hwalk, hdir, hlast⟩ := resolveParent_eq_name.mp hparent
  exact resolveParent_eq_name.mpr ⟨herror, h.walk hwalk, h.isDirectoryAt hdir, hlast⟩

end Parent

/-! ## Directories that have been made -/

section Append

variable {d : Disk} {follow : Location → DiskPath → List FileName → Except DiskError Location} {l l' : Location}
  {more : List FileName}

theorem walkSteps_append
    (hfollow : ∀ here target todo, follow here target todo = .ok l → follow here target (todo ++ more) = .ok l')
    (hmore : d.walkSteps true follow l more = .ok l') {here : Location} {todo : List FileName}
    (hwalk : d.walkSteps true follow here todo = .ok l) : d.walkSteps true follow here (todo ++ more) = .ok l' := by
  induction todo generalizing here with
  | nil =>
    cases hwalk
    exact hmore
  | cons piece rest ih =>
    rw [List.cons_append]
    rcases walkSteps_cons here piece with ⟨e, hstep⟩ | ⟨k, hstep⟩ | ⟨target, hstep⟩
    · rw [hstep] at hwalk
      cases hwalk
    · rw [hstep] at hwalk ⊢
      exact ih hwalk
    · rw [hstep] at hwalk ⊢
      exact hfollow here target rest hwalk

/-- A walk goes on from its end, if no link is on the way that is left. -/
theorem walk_append (hmore : ∀ links, d.walk true links l more = .ok l') {links : Nat} {here : Location}
    {todo : List FileName} (hwalk : d.walk true links here todo = .ok l) :
    d.walk true links here (todo ++ more) = .ok l' := by
  induction links generalizing here todo with
  | zero =>
    refine walkSteps_append ?_ (hmore 0) hwalk
    intro _ _ _ hfollow
    cases hfollow
  | succ links ih =>
    refine walkSteps_append ?_ (hmore (links + 1)) hwalk
    intro there target rest hfollow
    split
    · next herror =>
      rw [herror] at hfollow
      cases hfollow
    · next herror =>
      rw [herror] at hfollow
      rw [← List.append_assoc]
      exact ih hfollow

end Append

/-- A walk comes into a directory by its name, whether or not a slash comes after it. -/
theorem walk_into {d : Disk} {here : Location} {n : FileName} (hhere : n ≠ herePiece) (hup : n ≠ upPiece)
    (hlength : n.length ≤ nameLimit) (hdir : d.isDirectoryAt here = true)
    (hn : d.isDirectoryAt (here ++ [n]) = true) (slashed : Bool) (links : Nat) :
    d.walk true links here ([n] ++ if slashed then [herePiece] else []) = .ok (here ++ [n]) := by
  have hsteps : ∀ follow, d.walkSteps true follow here ([n] ++ if slashed then [herePiece] else []) =
      .ok (here ++ [n]) := by
    intro follow
    rw [List.singleton_append, walkSteps, hdir, isDirectoryAt_iff.mp hn, if_neg hhere, if_neg hup,
      if_neg (Nat.not_lt.mpr hlength)]
    cases slashed with
    | false => rfl
    | true => simp [walkSteps, hn]
  cases links <;> exact hsteps _

/-- A directory is found under the path by which it was made. -/
theorem find_of_makeDirectory {d d' : Disk} {p : DiskPath} (h : d.makeDirectory p = .ok d') :
    ∃ l, d.entry? l = none ∧ d' = d.set l .directory ∧ d'.find p = .ok (l, .directory) := by
  unfold makeDirectory at h
  cases hparent : d.resolveParent linkLimit d.workplace p with
  | error cause =>
    rw [hparent] at h
    cases h
  | ok found =>
    obtain ⟨directory, last⟩ := found
    rw [hparent] at h
    cases last with
    | points => cases h
    | name n slashed =>
      simp only [bind, Except.bind] at h
      split at h
      · cases h
      · next hlength =>
        split at h
        · cases h
        · next hnone =>
          cases h
          have hmade : Outlasts d (d.set (directory ++ [n]) .directory) := (grew_set_directory hnone).outlasts
          have hnew : entry? (d.set (directory ++ [n]) .directory) (directory ++ [n]) = some .directory := by
            rw [entry?_set d (by simp), if_pos rfl]
          obtain ⟨herror, hwalk, hdir, hlast, hhere, hup, hslashed⟩ := resolveParent_eq_name.mp hparent
          obtain ⟨before, hnamed⟩ := List.getLast?_eq_some_iff.mp hlast
          rw [hnamed, List.dropLast_concat] at hwalk
          have hto := walk_append (walk_into hhere hup (Nat.le_of_not_lt hlength) (hmade.isDirectoryAt hdir)
            (isDirectoryAt_iff.mpr hnew) slashed) (hmade.walk hwalk)
          refine ⟨directory ++ [n], hnone, rfl, ?_⟩
          rw [← List.append_assoc, ← hnamed, hslashed, ← steps_eq] at hto
          unfold find resolve
          rw [herror]
          change (walk _ true linkLimit (start d.workplace p) (steps p) >>= _) = _
          rw [hto]
          simp only [bind, Except.bind, hnew]

/-! ## Texts that have been written -/

/-- Whatever text is written under the path, it stands at this place, and nothing else has changed. -/
def WritesAt (d : Disk) (p : DiskPath) (l : Location) : Prop :=
  ∀ content, d.write p content = .ok (d.set l (.file content))

section Write

variable {d d' : Disk} {content : List UInt8} {p : DiskPath} {links : Nat} {here : Location}

/-- A text is written under the last name of a path, or under the path of the link that stands there. -/
theorem writeFrom_eq_ok : d.writeFrom content links here p = .ok d' ↔
    ∃ directory n, d.resolveParent links here p = .ok (directory, .name n false) ∧ n.length ≤ nameLimit ∧
      (d.HasRoom (directory ++ [n]) ∧ d' = d.set (directory ++ [n]) (.file content) ∨
        ∃ more target, links = more + 1 ∧ d.entry? (directory ++ [n]) = some (.link target) ∧
          d.writeFrom content more directory target = .ok d') := by
  conv => lhs; unfold writeFrom
  cases hparent : d.resolveParent links here p with
  | error cause => simp [bind, Except.bind]
  | ok found =>
    obtain ⟨directory, last⟩ := found
    cases last with
    | points => simp [bind, Except.bind]
    | name n slashed =>
      simp only [bind, Except.bind, Except.ok.injEq, Prod.mk.injEq, LastPiece.name.injEq]
      cases slashed with
      | true => simp
      | false =>
        simp only [Bool.false_eq_true, if_false]
        constructor
        · intro h
          refine ⟨directory, n, ⟨rfl, rfl, trivial⟩, ?_⟩
          split at h
          · cases h
          · next hlength =>
            refine ⟨Nat.le_of_not_lt hlength, ?_⟩
            split at h
            · cases h
            · next target hlink =>
              cases links with
              | zero => cases h
              | succ more => exact Or.inr ⟨more, target, rfl, hlink, h⟩
            · next hnot hlinkless =>
              cases h
              refine Or.inl ⟨?_, rfl⟩
              cases hentry : d.entry? (directory ++ [n]) with
              | none => exact Or.inl hentry
              | some e =>
                cases e with
                | file old => exact Or.inr ⟨old, hentry⟩
                | directory => exact absurd hentry hnot
                | link target => exact absurd hentry (hlinkless target)
        · rintro ⟨_, _, ⟨rfl, rfl, _⟩, hlength, ⟨hnone | ⟨old, hold⟩, rfl⟩ | ⟨more, target, rfl, hlink, hmore⟩⟩
          · rw [if_neg (Nat.not_lt.mpr hlength), hnone]
          · rw [if_neg (Nat.not_lt.mpr hlength), hold]
          · rw [if_neg (Nat.not_lt.mpr hlength), hlink]
            exact hmore

theorem exists_place_of_writeFrom (h : d.writeFrom content links here p = .ok d') :
    ∃ l, d.HasRoom l ∧ ∀ text, d.writeFrom text links here p = .ok (d.set l (.file text)) := by
  induction links generalizing here p with
  | zero =>
    obtain ⟨directory, n, hparent, hlength, ⟨hroom, _⟩ | ⟨_, _, hlinks, _⟩⟩ := writeFrom_eq_ok.mp h
    · exact ⟨_, hroom, fun text => writeFrom_eq_ok.mpr ⟨directory, n, hparent, hlength, Or.inl ⟨hroom, rfl⟩⟩⟩
    · cases hlinks
  | succ links ih =>
    obtain ⟨directory, n, hparent, hlength, ⟨hroom, _⟩ | ⟨more, target, hlinks, hlink, hmore⟩⟩ := writeFrom_eq_ok.mp h
    · exact ⟨_, hroom, fun text => writeFrom_eq_ok.mpr ⟨directory, n, hparent, hlength, Or.inl ⟨hroom, rfl⟩⟩⟩
    · cases hlinks
      obtain ⟨l, hroom, htext⟩ := ih hmore
      refine ⟨l, hroom, fun text => ?_⟩
      exact writeFrom_eq_ok.mpr ⟨directory, n, hparent, hlength, Or.inr ⟨links, target, rfl, hlink, htext text⟩⟩

/-- Where one text can be written every other can be, at the same place. -/
theorem writesAt_of_write (h : d.write p content = .ok d') : ∃ l, d.HasRoom l ∧ d.WritesAt p l :=
  exists_place_of_writeFrom h

/-- Moving a text that has just been written to where it is already does nothing. -/
theorem rename_self_of_write (h : d.write p content = .ok d') : d'.rename p p = .ok d' := by
  obtain ⟨l, hroom, hwrites⟩ := writesAt_of_write h
  obtain rfl : d.set l (.file content) = d' := by
    have hsame := (hwrites content).symm.trans h
    cases hsame
    rfl
  have hkept := hroom.outlasts content
  obtain ⟨directory, n, hparent, hlength, hstands⟩ := writeFrom_eq_ok.mp h
  have hfound : ∃ e, entry? (d.set l (.file content)) (directory ++ [n]) = some e := by
    rcases hstands with ⟨_, hset⟩ | ⟨_, target, _, hlink, _⟩
    · rw [hset, entry?_set d (by simp), if_pos rfl]
      exact ⟨_, rfl⟩
    · rcases hkept.kept _ _ hlink with hsame | ⟨_, _, hfile, _⟩
      · exact ⟨_, hsame⟩
      · cases hfile
  obtain ⟨e, he⟩ := hfound
  have hparent' : (d.set l (.file content)).resolveParent linkLimit (d.set l (.file content)).workplace p =
      .ok (directory, .name n false) := hkept.resolveParent hparent
  unfold rename
  rw [hparent']
  simp [bind, Except.bind, Nat.not_lt.mpr hlength, he]

end Write

end Disk

end TypedId
