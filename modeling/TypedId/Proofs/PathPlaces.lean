import TypedId.Proofs.Rewriting

/-!
Paths by their components. A path has the components of its pieces and at most one before them (`components_eq`),
and these are all that tells where the path leads, also where links are on the way (`Disk.resolve_eq_of_same`), and
what its parent is (`components_getD_parent?`).
-/
namespace TypedId

open FileName

/-! ## Paths by their components -/

namespace DiskPath

/-- The components that a path has before those of its pieces. -/
def lead (p : DiskPath) : List Component :=
  if p.isAbsolute then [.root] else if p.pieces.head? = some [dot] then [.here] else []

theorem filterMap_component?_named (p : DiskPath) :
    p.named.filterMap component? = p.pieces.filterMap component? := by
  rw [named, List.filterMap_filter]
  congr 1
  funext piece
  by_cases hempty : piece = []
  · rw [hempty]
    rfl
  · simp [hempty]

theorem components_eq (p : DiskPath) : p.components = p.lead ++ p.named.filterMap component? := by
  rw [filterMap_component?_named, lead]
  cases hkind : p.isAbsolute with
  | true =>
    rw [components_of_isAbsolute hkind]
    rfl
  | false =>
    obtain ⟨first, rest, hpieces⟩ := List.exists_cons_of_ne_nil (Text.split_ne_nil slash p.bytes)
    have hpieces : p.pieces = first :: rest := hpieces
    rw [components_of_not_isAbsolute hkind hpieces, hpieces]
    by_cases hpoint : first = [dot]
    · rw [hpoint]
      rfl
    · simp only [hpoint, if_false, Bool.false_eq_true, List.head?_cons, Option.some.injEq, List.nil_append]
      cases hfirst : component? first with
      | none => rw [List.filterMap_cons_none hfirst]; rfl
      | some c => rw [List.filterMap_cons_some hfirst]; rfl

theorem root_not_mem_filterMap (pieces : List FileName) : .root ∉ pieces.filterMap component? := by
  intro hmem
  obtain ⟨piece, _, hpiece⟩ := List.mem_filterMap.mp hmem
  unfold component? at hpiece
  split at hpiece
  · cases hpiece
  · split at hpiece <;> cases hpiece

/-- A path is at the root at most where it begins. -/
theorem root_not_mem_drop (p : DiskPath) {length : Nat} (hpos : 0 < length) : .root ∉ p.components.drop length := by
  intro hmem
  have hlead : p.lead.length ≤ 1 := by
    unfold lead
    split
    · exact Nat.le_refl 1
    · split <;> simp
  rw [components_eq, List.drop_append, List.drop_of_length_le (by omega), List.nil_append] at hmem
  exact root_not_mem_filterMap p.named (List.mem_of_mem_drop hmem)

theorem components_ne_nil {p : DiskPath} (h : p.bytes ≠ []) : p.components ≠ [] := by
  intro hnil
  have hnone := components_eq p
  rw [hnil, eq_comm, List.append_eq_nil_iff, filterMap_component?_named, List.filterMap_eq_nil_iff] at hnone
  obtain ⟨hlead, hidle⟩ := hnone
  obtain ⟨first, rest, hpieces⟩ := List.exists_cons_of_ne_nil (Text.split_ne_nil slash p.bytes)
  have hpieces : p.pieces = first :: rest := hpieces
  have hfirst : first = [] ∨ first = [dot] := by
    have hnone := hidle first (by rw [hpieces]; exact List.mem_cons_self)
    unfold component? at hnone
    split at hnone
    · next hcond => simpa using hcond
    · split at hnone <;> cases hnone
  rw [lead, hpieces] at hlead
  split at hlead
  · cases hlead
  · next hkind =>
    rcases hfirst with rfl | rfl
    · -- An empty piece before others would make the path absolute.
      cases rest with
      | nil => exact h (by rw [bytes_eq_join, hpieces]; rfl)
      | cons next others => exact hkind (isAbsolute_iff.mpr ⟨next, others, hpieces⟩)
    · cases hlead

/-- What comes after a path that begins another one. -/
theorem below?_eq_some {base p : DiskPath} {rest : List Component} :
    below? base p = some rest ↔ p.components = base.components ++ rest := by
  unfold below?
  constructor
  · intro h
    split at h
    · next hprefix =>
      obtain ⟨more, hmore⟩ := List.isPrefixOf_iff_prefix.mp hprefix
      cases h
      rw [← hmore, List.drop_left]
    · cases h
  · intro h
    rw [h, if_pos (List.isPrefixOf_iff_prefix.mpr (List.prefix_append _ _)), List.drop_left]

end DiskPath

/-! ## Paths with the same components -/

/-- The step that a component asks for, if it asks for one that leads anywhere. -/
def Component.step? : Component → Option FileName
  | root | here => none
  | up => some Disk.upPiece
  | name n => some n

namespace DiskPath

theorem same_iff_components {p q : DiskPath} : p.same q = true ↔ p.components = q.components := beq_iff_eq

theorem filterMap_step?_pieces {pieces : List FileName} (h : ∀ piece ∈ pieces, piece ≠ []) :
    (pieces.filterMap component?).filterMap Component.step? = pieces.filter fun piece => piece ≠ Disk.herePiece := by
  induction pieces with
  | nil => rfl
  | cons piece rest ih =>
    have hrest := ih fun q hq => h q (List.mem_cons_of_mem piece hq)
    have hne := h piece List.mem_cons_self
    by_cases hhere : piece = Disk.herePiece
    · have hnone : component? piece = none := by rw [hhere]; rfl
      rw [List.filterMap_cons_none hnone, List.filter_cons_of_neg (by simp [hhere]), hrest]
    · have hstep : ∃ c, component? piece = some c ∧ c.step? = some piece := by
        unfold component?
        rw [if_neg (by simpa [hne] using show piece ≠ [dot] from hhere)]
        split
        · next hup => exact ⟨.up, rfl, by rw [hup]; rfl⟩
        · exact ⟨.name piece, rfl, rfl⟩
      obtain ⟨c, hc, hstep⟩ := hstep
      rw [List.filterMap_cons_some hc, List.filterMap_cons_some hstep, List.filter_cons_of_pos (by simp [hhere]), hrest]

/-- The steps of a path, without the points, are told by its components. -/
theorem filterMap_step?_components (p : DiskPath) :
    p.components.filterMap Component.step? = p.named.filter fun piece => piece ≠ Disk.herePiece := by
  have hlead : p.lead.filterMap Component.step? = [] := by
    unfold lead
    split
    · rfl
    · split <;> rfl
  rw [components_eq, List.filterMap_append, hlead, List.nil_append]
  exact filterMap_step?_pieces fun piece hpiece => ne_nil_of_mem_named hpiece

theorem isAbsolute_iff_components {p : DiskPath} : p.isAbsolute = true ↔ .root ∈ p.components := by
  rw [components_eq, List.mem_append, or_iff_left (root_not_mem_filterMap p.named), lead]
  split
  · next habsolute => simp [habsolute]
  · next hrelative =>
    split <;> simp [hrelative]

end DiskPath

namespace Disk

/-- The second list of steps is the first one without some of its points. -/
inductive Thinned : List FileName → List FileName → Prop
  | nil : Thinned [] []
  | keep (piece : FileName) {todo todo' : List FileName} : Thinned todo todo' → Thinned (piece :: todo) (piece :: todo')
  | drop {todo todo' : List FileName} : Thinned todo todo' → Thinned (herePiece :: todo) todo'

namespace Thinned

theorem refl (todo : List FileName) : Thinned todo todo := by
  induction todo with
  | nil => exact nil
  | cons piece rest ih => exact keep piece ih

theorem append_left (first : List FileName) {todo todo' : List FileName} (h : Thinned todo todo') :
    Thinned (first ++ todo) (first ++ todo') := by
  induction first with
  | nil => exact h
  | cons piece rest ih => exact keep piece ih

theorem filter (todo : List FileName) : Thinned todo (todo.filter fun piece => piece ≠ herePiece) := by
  induction todo with
  | nil => exact nil
  | cons piece rest ih =>
    by_cases hpiece : piece = herePiece
    · rw [List.filter_cons_of_neg (by simp [hpiece]), hpiece]
      exact drop ih
    · rw [List.filter_cons_of_pos (by simp [hpiece])]
      exact keep piece ih

end Thinned

section Walk

variable {d : Disk} {follow : Location → DiskPath → List FileName → Except DiskError Location}

/-- What the first name of a way does, whatever comes after it: the walk stops, goes on from a place, or follows
a link. -/
theorem walkSteps_cons (here : Location) (piece : FileName) :
    (∃ e, ∀ todo, d.walkSteps true follow here (piece :: todo) = .error e) ∨
    (∃ k, ∀ todo, d.walkSteps true follow here (piece :: todo) = d.walkSteps true follow k todo) ∨
      ∃ target, ∀ todo, d.walkSteps true follow here (piece :: todo) = follow here target todo := by
  simp only [walkSteps]
  split
  · exact Or.inl ⟨_, fun _ => rfl⟩
  · split
    · exact Or.inr (Or.inl ⟨here, fun _ => rfl⟩)
    · split
      · exact Or.inr (Or.inl ⟨here.dropLast, fun _ => rfl⟩)
      · split
        · exact Or.inl ⟨_, fun _ => rfl⟩
        · cases d.entry? (here ++ [piece]) with
          | none => exact Or.inl ⟨_, fun _ => rfl⟩
          | some e =>
            cases e with
            | link target => exact Or.inr (Or.inr ⟨target, fun todo => by simp⟩)
            | _ => exact Or.inr (Or.inl ⟨here ++ [piece], fun _ => rfl⟩)

theorem walkSteps_of_thinned
    (hfollow : ∀ here target todo todo' l, Thinned todo todo' → follow here target todo = .ok l →
      follow here target todo' = .ok l)
    {here l : Location} {todo todo' : List FileName} (h : Thinned todo todo')
    (hwalk : d.walkSteps true follow here todo = .ok l) : d.walkSteps true follow here todo' = .ok l := by
  induction h generalizing here with
  | nil => exact hwalk
  | keep piece hrest ih =>
    rcases walkSteps_cons here piece with ⟨e, hstep⟩ | ⟨k, hstep⟩ | ⟨target, hstep⟩
    · rw [hstep] at hwalk
      cases hwalk
    · rw [hstep] at hwalk ⊢
      exact ih hwalk
    · rw [hstep] at hwalk ⊢
      exact hfollow here target _ _ l hrest hwalk
  | drop hrest ih =>
    rw [walkSteps] at hwalk
    split at hwalk
    · cases hwalk
    · rw [if_pos rfl] at hwalk
      exact ih hwalk

/-- A walk that comes to an end does so without the points too, which lead nowhere else. -/
theorem walk_of_thinned {links : Nat} {here l : Location} {todo todo' : List FileName} (h : Thinned todo todo')
    (hwalk : d.walk true links here todo = .ok l) : d.walk true links here todo' = .ok l := by
  induction links generalizing here l todo todo' with
  | zero =>
    refine walkSteps_of_thinned ?_ h hwalk
    intro _ _ _ _ _ _ hfollow
    cases hfollow
  | succ links ih =>
    refine walkSteps_of_thinned ?_ h hwalk
    intro there target rest rest' l' hrest hfollow
    split
    · next herror =>
      rw [herror] at hfollow
      cases hfollow
    · next herror =>
      rw [herror] at hfollow
      exact ih (hrest.append_left (steps target)) hfollow

end Walk

/-- Paths with the same components lead to the same place if both lead anywhere. -/
theorem resolve_eq_of_same {d : Disk} {p q : DiskPath} (hsame : p.same q = true) {l l' : Location}
    (hp : d.resolve true p = .ok l) (hq : d.resolve true q = .ok l') : l = l' := by
  have hthin : ∀ {r : DiskPath} {k : Location}, d.resolve true r = .ok k →
      d.walk true linkLimit (start d.workplace r) (r.components.filterMap Component.step?) = .ok k := by
    intro r k hr
    unfold resolve at hr
    split at hr
    · cases hr
    · have hsteps : (steps r).filter (fun piece => piece ≠ herePiece) =
          r.components.filterMap Component.step? := by
        rw [DiskPath.filterMap_step?_components, steps_eq, List.filter_append]
        split <;> simp
      rw [← hsteps]
      exact walk_of_thinned (Thinned.filter _) hr
  have hcomponents := DiskPath.same_iff_components.mp hsame
  have hstart : start d.workplace p = start d.workplace q := by
    have hkind : p.isAbsolute = q.isAbsolute := by
      rw [Bool.eq_iff_iff, DiskPath.isAbsolute_iff_components, DiskPath.isAbsolute_iff_components, hcomponents]
    rw [start, start, hkind]
  have hp' := hthin hp
  rw [hstart, hcomponents, hthin hq] at hp'
  cases hp'
  rfl

end Disk

/-! ## Parents -/

namespace DiskPath

theorem filterMap_dropIdle (ps : List FileName) : (dropIdle ps).filterMap component? = ps.filterMap component? := by
  cases ps with
  | nil => rfl
  | cons first rest =>
    have hrest : ∀ qs : List FileName,
        ((qs.dropWhile fun piece => (component? piece).isNone).reverse).filterMap component? =
        qs.reverse.filterMap component? := by
      intro qs
      induction qs with
      | nil => rfl
      | cons piece more ih =>
        cases hpiece : component? piece with
        | none =>
          rw [List.dropWhile_cons_of_pos (by simp [hpiece]), ih, List.reverse_cons, List.filterMap_append]
          simp [hpiece]
        | some c => rw [List.dropWhile_cons_of_neg (by simp [hpiece])]
    have hall := hrest rest.reverse
    rw [List.reverse_reverse] at hall
    unfold dropIdle
    cases hfirst : component? first with
    | none => rw [List.filterMap_cons_none hfirst, List.filterMap_cons_none hfirst, hall]
    | some c => rw [List.filterMap_cons_some hfirst, List.filterMap_cons_some hfirst, hall]

/-- The last of several pieces counts once those that do not have been dropped. -/
theorem component?_of_dropIdle {ps init : List FileName} {piece : FileName} (h : dropIdle ps = init ++ [piece])
    (hinit : init ≠ []) : ∃ c, component? piece = some c := by
  cases ps with
  | nil => simp [dropIdle] at h
  | cons first rest =>
    obtain ⟨first', more, rfl⟩ := List.exists_cons_of_ne_nil hinit
    rw [dropIdle, List.cons_append, List.cons.injEq] at h
    have hreverse := congrArg List.reverse h.2
    rw [List.reverse_reverse, List.reverse_append, List.reverse_singleton, List.singleton_append] at hreverse
    have hsome := List.head?_dropWhile_not (fun piece => (component? piece).isNone) rest.reverse
    rw [hreverse, List.head?_cons] at hsome
    exact Option.isSome_iff_exists.mp (by simpa using hsome)

/-- Some of the first pieces of a path have the components that they have there. -/
theorem components_ofPieces {p : DiskPath} {ps : List FileName} (hfirst : ps <+: p.pieces) (hne : ps ≠ []) :
    (ofPieces p.isAbsolute ps).components = p.lead ++ ps.filterMap component? := by
  obtain ⟨first, more, rfl⟩ := List.exists_cons_of_ne_nil hne
  obtain ⟨after, hafter⟩ := hfirst
  have hkind := (of_ofPieces ⟨after, hafter⟩ hne).2
  rw [components_eq, filterMap_component?_named]
  unfold ofPieces at hkind ⊢
  split
  · next hroot =>
    -- The one piece of a root is empty.
    obtain ⟨habsolute, hlength⟩ := Bool.and_eq_true_iff.mp hroot
    obtain ⟨q, rest, hpieces⟩ := isAbsolute_iff.mp habsolute
    have hmore : more = [] := by simpa using hlength
    rw [hpieces, List.cons_append, List.cons.injEq] at hafter
    rw [hafter.1, hmore, lead, lead, habsolute]
    rfl
  · next hroot =>
    rw [if_neg hroot] at hkind
    have hpieces : (⟨Text.join slash (first :: more)⟩ : DiskPath).pieces = first :: more := by
      refine pieces_mk_join hne fun piece hpiece => no_slash_of_mem_pieces (p := p) ?_
      exact hafter ▸ List.mem_append_left after hpiece
    rw [lead, lead, hkind, hpieces, ← hafter]
    rfl

/-- A path of one piece that counts has at most one component. -/
theorem dropLast_lead {p : DiskPath} {piece : FileName} (h : dropIdle p.pieces = [piece]) :
    (p.lead ++ [piece].filterMap component?).dropLast = [] := by
  obtain ⟨first, rest, hpieces⟩ := List.exists_cons_of_ne_nil (Text.split_ne_nil slash p.bytes)
  have hpieces : p.pieces = first :: rest := hpieces
  obtain rfl : first = piece := by
    rw [hpieces, dropIdle, List.cons.injEq] at h
    exact h.1
  unfold lead
  split
  · next habsolute =>
    obtain ⟨_, _, hempty⟩ := isAbsolute_iff.mp habsolute
    rw [hpieces, List.cons.injEq] at hempty
    rw [hempty.1]
    rfl
  · split
    · next hpoint =>
      rw [hpieces, List.head?_cons, Option.some.injEq] at hpoint
      rw [hpoint]
      rfl
    · cases hfirst : component? first <;> simp [hfirst]

/-- A parent has the components of the path but the last. -/
theorem components_parent? {p q : DiskPath} (h : p.parent? = some q) : q.components = p.components.dropLast := by
  have hp : p.components = p.lead ++ (dropIdle p.pieces).filterMap component? := by
    rw [filterMap_dropIdle, components_eq, filterMap_component?_named]
  obtain ⟨init, piece, hpieces⟩ :=
    (List.eq_nil_or_concat (dropIdle p.pieces)).resolve_left (dropIdle_ne_nil (Text.split_ne_nil slash p.bytes))
  rw [List.concat_eq_append] at hpieces
  unfold parent? at h
  split at h
  · cases h
  · cases h
  · next hlast =>
    dsimp only at h
    rw [hpieces] at h hp
    rw [List.dropLast_concat] at h
    split at h
    · next hlength =>
      cases h
      obtain rfl : init = [] := by simpa using hlength
      rw [hp, eq_comm]
      exact dropLast_lead hpieces
    · next hlength =>
      cases h
      have hinit : init ≠ [] := by
        rintro rfl
        exact hlength rfl
      obtain ⟨c, hc⟩ := component?_of_dropIdle hpieces hinit
      have hfirst : dropIdle init <+: p.pieces :=
        (dropIdle_isPrefix init).trans ((List.prefix_append init [piece]).trans (hpieces ▸ dropIdle_isPrefix p.pieces))
      rw [components_ofPieces hfirst (dropIdle_ne_nil hinit), filterMap_dropIdle, hp, List.filterMap_append,
        List.filterMap_cons_some hc, List.filterMap_nil, ← List.append_assoc, List.dropLast_concat]

theorem components_getD_parent? (p : DiskPath) : (p.parent?.getD ⟨[]⟩).components = p.components.dropLast := by
  cases hparent : p.parent? with
  | some q => exact components_parent? hparent
  | none =>
    have hnil : p.components.dropLast = [] := by
      unfold parent? at hparent
      split at hparent
      · next hlast => rw [List.getLast?_eq_none_iff.mp hlast]; rfl
      · next hlast =>
        obtain ⟨before, hbefore⟩ := List.getLast?_eq_some_iff.mp hlast
        cases before with
        | nil => rw [hbefore]; rfl
        | cons c more =>
          -- The root does not come after another component.
          refine absurd ?_ (root_not_mem_drop p Nat.one_pos)
          rw [hbefore]
          simp
      · dsimp only at hparent
        split at hparent <;> cases hparent
    rw [hnil]
    rfl

end DiskPath

end TypedId
