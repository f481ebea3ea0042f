import TypedId.Proofs.PathPieces

/-!
Walks on a disk without links. Where a path leads is then told by its pieces alone (`walkTo`), and whether it
leads there by the directories on the way (`CanWalk`), so a change to the disk that leaves every
directory in its place leaves every file where it was found (`find_of_unchanged`).
-/
namespace TypedId

namespace Disk

/-! ## Trees without links -/

/-- The disk is a tree: whatever stands somewhere has a name without a slash and stands in a directory, and
relative paths begin at a directory. -/
structure IsTree (d : Disk) : Prop where
  parent : ∀ l n, d.entry? (l ++ [n]) ≠ none → d.isDirectoryAt l = true
  name : ∀ l n, d.entry? (l ++ [n]) ≠ none → FileName.slash ∉ n
  workplace : d.isDirectoryAt d.workplace = true

/-- No symbolic link stands on the disk. -/
def Linkless (d : Disk) : Prop := ∀ l target, d.entry? l ≠ some (.link target)

theorem mem_entries {d : Disk} {l : Location} (hne : l ≠ []) {e : Entry} (h : d.entry? l = some e) :
    (l, e) ∈ d.entries := by
  have hempty : l.isEmpty = false := by simpa using hne
  unfold entry? at h
  rw [hempty, if_neg (by simp)] at h
  obtain ⟨x, hx, rfl⟩ := Option.map_eq_some_iff.mp h
  have heq : x.1 = l := by simpa using List.find?_some hx
  exact heq ▸ List.mem_of_find?_eq_some hx

/-- A disk is a tree if each of its places is a tree's place. -/
theorem isTree_of_entries {d : Disk}
    (hentries : ∀ x ∈ d.entries, d.isDirectoryAt x.1.dropLast = true ∧ ∀ n ∈ x.1, FileName.slash ∉ n)
    (hworkplace : d.isDirectoryAt d.workplace = true) : d.IsTree := by
  have hplace : ∀ l n, d.entry? (l ++ [n]) ≠ none →
      d.isDirectoryAt l = true ∧ ∀ m ∈ l ++ [n], FileName.slash ∉ m := by
    intro l n hfound
    obtain ⟨e, he⟩ := Option.ne_none_iff_exists'.mp hfound
    have hmem := hentries _ (mem_entries (by simp) he)
    rwa [List.dropLast_concat] at hmem
  exact ⟨fun l n hfound => (hplace l n hfound).1, fun l n hfound => (hplace l n hfound).2 n (by simp), hworkplace⟩

theorem linkless_of_entries {d : Disk} (h : ∀ x ∈ d.entries, ∀ target, x.2 ≠ .link target) : d.Linkless := by
  intro l target hentry
  cases l with
  | nil => cases hentry
  | cons n rest => exact h _ (mem_entries (List.cons_ne_nil n rest) hentry) target rfl

theorem isDirectoryAt_iff {d : Disk} {l : Location} :
    d.isDirectoryAt l = true ↔ d.entry? l = some .directory := by
  rw [isDirectoryAt, beq_iff_eq]

/-- A file stands at this place. -/
def isFileAt (d : Disk) (l : Location) : Bool :=
  match d.entry? l with
  | some (.file _) => true
  | _ => false

theorem isFileAt_iff {d : Disk} {l : Location} :
    d.isFileAt l = true ↔ ∃ content, d.entry? l = some (.file content) := by
  unfold isFileAt
  cases d.entry? l with
  | none => simp
  | some e => cases e <;> simp

theorem entry?_set (d : Disk) {l : Location} (hl : l ≠ []) (e : Entry) (l' : Location) :
    entry? (d.set l e) l' = if l' = l then some e else d.entry? l' := by
  unfold entry? set
  cases l' with
  | nil => rw [if_neg (Ne.symm hl)]; rfl
  | cons n rest =>
    have hfind : (d.entries.filter fun x => x.1 != l).find? (fun x => x.1 == n :: rest) =
        if n :: rest = l then none else d.entries.find? fun x => x.1 == n :: rest := by
      rw [List.find?_filter]
      split
      · next heq =>
        rw [List.find?_eq_none]
        intro x _
        simp [heq]
      · next hne =>
        congr 1
        funext x
        by_cases hx : x.1 = n :: rest
        · simp [hx, hne]
        · simp [hx]
    -- The new entry comes last, but an older one at its place has been filtered out.
    dsimp only
    rw [List.find?_append, hfind]
    by_cases heq : n :: rest = l
    · subst heq
      simp
    · have hne : (l == n :: rest) = false := by simpa using Ne.symm heq
      simp [heq, hne]

theorem isDirectoryAt_set_of_ne (d : Disk) {l l' : Location} (hl : l ≠ []) (hne : l' ≠ l) (e : Entry) :
    isDirectoryAt (d.set l e) l' = d.isDirectoryAt l' := by
  rw [isDirectoryAt, isDirectoryAt, entry?_set d hl, if_neg hne]

theorem entry?_erase (d : Disk) {l : Location} (hl : l ≠ []) (l' : Location) :
    entry? (d.erase l) l' = if l <+: l' then none else d.entry? l' := by
  unfold entry? erase
  cases l' with
  | nil =>
    have hnot : ¬l <+: [] := fun h => hl (List.prefix_nil.mp h)
    rw [if_neg hnot]
    rfl
  | cons n rest =>
    have hfind : (d.entries.filter fun x => !l.isPrefixOf x.1).find? (fun x => x.1 == n :: rest) =
        if l <+: n :: rest then none else d.entries.find? fun x => x.1 == n :: rest := by
      rw [List.find?_filter]
      split
      · next hbelow =>
        rw [List.find?_eq_none]
        intro x _
        simp only [decide_eq_true_eq, Bool.not_eq_true', beq_iff_eq, not_and]
        intro hnot hx
        rw [hx, List.isPrefixOf_iff_prefix.mpr hbelow] at hnot
        cases hnot
      · next hbelow =>
        congr 1
        funext x
        by_cases hx : x.1 = n :: rest
        · have hnot : l.isPrefixOf (n :: rest) = false := by
            rw [← Bool.not_eq_true, List.isPrefixOf_iff_prefix]
            exact hbelow
          simp [hx, hnot]
        · simp [hx]
    dsimp only
    rw [hfind]
    by_cases hbelow : l <+: n :: rest
    · simp [hbelow]
    · simp [hbelow]

/-! ## Walks -/

/-- The place that some steps lead to where no link is on the way. -/
def walkTo (here : Location) : List FileName → Location
  | [] => here
  | piece :: rest =>
    if piece = herePiece then walkTo here rest
    else if piece = upPiece then walkTo here.dropLast rest
    else walkTo (here ++ [piece]) rest

/-- Every step is taken from a directory, and every name is found. -/
def CanWalk (d : Disk) (here : Location) : List FileName → Prop
  | [] => True
  | piece :: rest =>
    d.isDirectoryAt here = true ∧
      if piece = herePiece then d.CanWalk here rest
      else if piece = upPiece then d.CanWalk here.dropLast rest
      else piece.length ≤ nameLimit ∧ d.entry? (here ++ [piece]) ≠ none ∧ d.CanWalk (here ++ [piece]) rest

theorem walkTo_append (here : Location) (xs ys : List FileName) :
    walkTo here (xs ++ ys) = walkTo (walkTo here xs) ys := by
  induction xs generalizing here with
  | nil => rfl
  | cons piece rest ih =>
    simp only [List.cons_append, walkTo]
    split
    · exact ih here
    · split
      · exact ih here.dropLast
      · exact ih (here ++ [piece])

theorem canWalk_append {d : Disk} {here : Location} {xs ys : List FileName} :
    d.CanWalk here (xs ++ ys) ↔ d.CanWalk here xs ∧ d.CanWalk (walkTo here xs) ys := by
  induction xs generalizing here with
  | nil => simp [CanWalk, walkTo]
  | cons piece rest ih =>
    simp only [List.cons_append, CanWalk, walkTo]
    split
    · rw [ih, and_assoc]
    · split
      · rw [ih, and_assoc]
      · rw [ih, and_assoc, and_assoc, and_assoc]

theorem walkSteps_eq_ok_iff {d : Disk} (hlinks : d.Linkless) {followLast : Bool}
    {follow : Location → DiskPath → List FileName → Except DiskError Location} {here l : Location}
    {todo : List FileName} :
    d.walkSteps followLast follow here todo = .ok l ↔ d.CanWalk here todo ∧ walkTo here todo = l := by
  induction todo generalizing here with
  | nil => simp [walkSteps, CanWalk, walkTo]
  | cons piece rest ih =>
    rw [walkSteps, CanWalk, walkTo]
    cases hdir : d.isDirectoryAt here with
    | false => simp
    | true =>
      simp only [Bool.not_true, Bool.false_eq_true, if_false, true_and]
      split
      · exact ih
      · split
        · exact ih
        · split
          · next hlong =>
            have hnot : ¬piece.length ≤ nameLimit := Nat.not_le_of_lt hlong
            simp [hnot]
          · next hlong =>
            have hle : piece.length ≤ nameLimit := Nat.le_of_not_lt hlong
            cases hentry : d.entry? (here ++ [piece]) with
            | none => simp
            | some e =>
              cases e with
              | link target => exact absurd hentry (hlinks _ target)
              | _ => simp [hle, ih]

/-- Where no link is on the way, a walk answers with the place that its steps lead to. -/
theorem walk_eq_ok_iff {d : Disk} (hlinks : d.Linkless) {followLast : Bool} {links : Nat}
    {here l : Location} {todo : List FileName} :
    d.walk followLast links here todo = .ok l ↔ d.CanWalk here todo ∧ walkTo here todo = l := by
  cases links <;> exact walkSteps_eq_ok_iff hlinks

/-- A walk that was possible stays so if no directory has gone and there is something at its end. -/
theorem CanWalk.mono {d d' : Disk} (hdir : ∀ l, d.isDirectoryAt l = true → d'.isDirectoryAt l = true)
    {here : Location} {todo : List FileName} (h : d.CanWalk here todo)
    (hend : d'.entry? (walkTo here todo) ≠ none) : d'.CanWalk here todo := by
  induction todo generalizing here with
  | nil => trivial
  | cons piece rest ih =>
    rw [CanWalk] at h ⊢
    rw [walkTo] at hend
    refine ⟨hdir here h.1, ?_⟩
    have hrest := h.2
    split
    · next hhere =>
      rw [if_pos hhere] at hend hrest
      exact ih hrest hend
    · next hhere =>
      rw [if_neg hhere] at hend hrest
      split
      · next hup =>
        rw [if_pos hup] at hend hrest
        exact ih hrest hend
      · next hup =>
        rw [if_neg hup] at hend hrest
        obtain ⟨hlength, hfound, hmore⟩ := hrest
        refine ⟨hlength, ?_, ih hmore hend⟩
        cases rest with
        | nil => exact hend
        | cons next others =>
          -- Another step is taken from here, so this is a directory.
          rw [isDirectoryAt_iff.mp (hdir _ hmore.1)]
          simp

/-! ## What a path leads to -/

theorem find_eq_ok_iff {d : Disk} (hlinks : d.Linkless) {p : DiskPath} {l : Location} {e : Entry} :
    d.find p = .ok (l, e) ↔
      pathError? p = none ∧ d.CanWalk (start d.workplace p) (steps p) ∧
        walkTo (start d.workplace p) (steps p) = l ∧ d.entry? l = some e := by
  unfold find resolve
  cases herror : pathError? p with
  | some error => simp [bind, Except.bind]
  | none =>
    simp only [true_and]
    cases hwalk : d.walk true linkLimit (start d.workplace p) (steps p) with
    | error cause =>
      simp only [bind, Except.bind, reduceCtorEq, false_iff]
      intro hsome
      obtain ⟨hcan, hto, _⟩ := hsome
      rw [(walk_eq_ok_iff hlinks).mpr ⟨hcan, hto⟩] at hwalk
      cases hwalk
    | ok l' =>
      obtain ⟨hcan, hto⟩ := (walk_eq_ok_iff hlinks).mp hwalk
      simp only [bind, Except.bind, hcan, hto, true_and]
      constructor
      · intro h
        split at h
        · next e' he' =>
          cases h
          exact ⟨rfl, he'⟩
        · cases h
      · intro hsome
        obtain ⟨rfl, he⟩ := hsome
        rw [he]

/-- What a path leads to it leads to afterwards, if no directory has gone and the place is unchanged. -/
theorem find_of_unchanged {d d' : Disk} (hlinks : d.Linkless) (hlinks' : d'.Linkless)
    (hwork : d'.workplace = d.workplace)
    (hdir : ∀ l, d.isDirectoryAt l = true → d'.isDirectoryAt l = true) {p : DiskPath} {l : Location}
    {e : Entry} (h : d.find p = .ok (l, e)) (hentry : d'.entry? l = some e) : d'.find p = .ok (l, e) := by
  obtain ⟨herror, hcan, rfl, _⟩ := (find_eq_ok_iff hlinks).mp h
  refine (find_eq_ok_iff hlinks').mpr ⟨herror, ?_, by rw [hwork], hentry⟩
  rw [hwork]
  exact hcan.mono hdir (by rw [hentry]; simp)

theorem resolveParent_eq_ok {d : Disk} (hlinks : d.Linkless) {links : Nat} {here directory : Location}
    {p : DiskPath} {last : LastPiece} (h : d.resolveParent links here p = .ok (directory, last)) :
    pathError? p = none ∧ d.CanWalk (start here p) p.named.dropLast ∧
      walkTo (start here p) p.named.dropLast = directory ∧ d.isDirectoryAt directory = true ∧
      ∀ n slashed, last = .name n slashed → p.named.getLast? = some n ∧ n ≠ herePiece ∧ n ≠ upPiece ∧
        slashed = (p.bytes.getLast? == some FileName.slash) := by
  unfold resolveParent at h
  split at h
  · cases h
  · next herror =>
    refine ⟨herror, ?_⟩
    change (d.walk true links (start here p) p.named.dropLast >>= _) = _ at h
    cases hwalk : d.walk true links (start here p) p.named.dropLast with
    | error cause =>
      rw [hwalk] at h
      cases h
    | ok l =>
      rw [hwalk] at h
      obtain ⟨hcan, hto⟩ := (walk_eq_ok_iff hlinks).mp hwalk
      simp only [bind, Except.bind] at h
      split at h
      · cases h
      · next hdir =>
        have hdirectory : d.isDirectoryAt l = true := by simpa using hdir
        split at h
        · cases h
          exact ⟨hcan, hto, hdirectory, fun n slashed heq => by cases heq⟩
        · next piece hpiece =>
          split at h
          · cases h
            exact ⟨hcan, hto, hdirectory, fun n slashed heq => by cases heq⟩
          · next hpoints =>
            cases h
            refine ⟨hcan, hto, hdirectory, ?_⟩
            intro n slashed heq
            cases heq
            simp only [Bool.or_eq_true, decide_eq_true_eq, not_or] at hpoints
            exact ⟨hpiece, hpoints.1, hpoints.2, rfl⟩

end Disk

end TypedId
