import TypedId.Proofs.Names

/-!
Imports, said with lists of names. The leaves of the `use` trees of a module are read from left to right, and
the last leaf that binds a name decides what the name stands for (`lastLeaf?`). The path of an
attribute is expanded with it (`expanded`); `resolved_eq` says that the text which the scope resolves the
path to reads as the expanded names, up to double colons at its front.
-/
namespace TypedId

/-! ## Leaves -/

/-- What one leaf of a tree of imports binds: a name, and the names of the path it stands for. -/
structure Leaf where
  name : String
  segments : List String
  deriving DecidableEq, Repr

namespace UseTree

mutual

/-- The leaves of a tree of imports, from left to right; `before` holds the names on the way to it. A leaf
`self` binds the last of those, if there is one; a star and a leaf renamed to `_` bind nothing. -/
def leaves (before : List String) : UseTree → List Leaf
  | .path w rest => rest.leaves (before ++ [w.spelling])
  | .name w =>
    if w.spelling = "self" then (before.getLast?.map fun last => Leaf.mk last before).toList
    else [⟨w.spelling, before ++ [w.spelling]⟩]
  | .rename w newName =>
    if newName.spelling = "_" then []
    else [⟨newName.spelling, if w.spelling = "self" then before else before ++ [w.spelling]⟩]
  | .group trees => leavesAll before trees
  | .glob => []

/-- The leaves of the trees of a group. -/
def leavesAll (before : List String) : List UseTree → List Leaf
  | [] => []
  | tree :: rest => tree.leaves before ++ leavesAll before rest

end

end UseTree

/-- What a leaf binds, with its path written out. -/
def Leaf.binding (l : Leaf) : String × String := (l.name, joinNames l.segments)

/-- The leaves of the `use` items of a module. -/
def leavesOf (items : List Item) : List Leaf :=
  items.flatMap fun item =>
    match item with
    | .use tree => tree.leaves []
    | _ => []

/-- The last leaf that binds the name. -/
def lastLeaf? (items : List Item) (name : String) : Option Leaf :=
  ((leavesOf items).filter fun l => l.name == name).getLast?

/-- The names of a path, the first one replaced by what the last leaf for it stands for, unless the path
begins with `::`. -/
def expanded (items : List Item) (path : PlainPath) : List String :=
  match path.leading, path.names.map Word.spelling with
  | false, first :: rest =>
    match lastLeaf? items first with
    | some l => l.segments ++ rest
    | none => first :: rest
  | _, names => names

/-! ## The bindings of a tree are its leaves -/

mutual

theorem UseTree.bindings_eq (before : List String) :
    (tree : UseTree) → tree.bindings before = (tree.leaves before).map Leaf.binding
  | .path w rest => rest.bindings_eq (before ++ [w.spelling])
  | .name w => by
    unfold UseTree.bindings UseTree.leaves
    split
    · cases before.getLast? <;> rfl
    · rfl
  | .rename w newName => by
    unfold UseTree.bindings UseTree.leaves
    split
    · rfl
    · split <;> rfl
  | .group trees => UseTree.bindingsAll_eq before trees
  | .glob => rfl

theorem UseTree.bindingsAll_eq (before : List String) :
    (trees : List UseTree) → UseTree.bindingsAll before trees = (UseTree.leavesAll before trees).map Leaf.binding
  | [] => rfl
  | tree :: rest => by
    rw [UseTree.bindingsAll, UseTree.leavesAll, List.map_append, tree.bindings_eq before,
      UseTree.bindingsAll_eq before rest]

end

theorem Scope.imports_ofItems (items : List Item) :
    (Scope.ofItems items).imports = (leavesOf items).map Leaf.binding := by
  simp only [Scope.ofItems, leavesOf, List.map_flatMap]
  congr 1
  funext item
  cases item with
  | use tree => exact tree.bindings_eq []
  | _ => rfl

theorem Scope.import?_ofItems (items : List Item) (name : String) :
    (Scope.ofItems items).import? name = (lastLeaf? items name).map fun l => joinNames l.segments := by
  rw [Scope.import?, Scope.imports_ofItems, ← List.map_reverse, List.find?_map, Option.map_map, lastLeaf?,
    List.getLast?_eq_head?_reverse, ← List.filter_reverse, List.head?_filter]
  rfl

/-! ## Leaves hold words -/

/-- The text is the spelling of a word. -/
def IsWordSpelling (s : String) : Prop := ∃ w : Word, w.spelling = s

theorem IsWordSpelling.isName {s : String} (h : IsWordSpelling s) : IsName s := by
  obtain ⟨w, rfl⟩ := h
  exact w.isName

theorem forall_isWordSpelling_append {before : List String} (h : ∀ s ∈ before, IsWordSpelling s) (w : Word) :
    ∀ s ∈ before ++ [w.spelling], IsWordSpelling s := by
  intro s hs
  rcases List.mem_append.mp hs with hs | hs
  · exact h s hs
  · exact ⟨w, (List.mem_singleton.mp hs).symm⟩

mutual

theorem UseTree.words_of_leaves (before : List String) (h : ∀ s ∈ before, IsWordSpelling s) :
    (tree : UseTree) → ∀ l ∈ tree.leaves before, ∀ s ∈ l.segments, IsWordSpelling s
  | .path w rest => rest.words_of_leaves (before ++ [w.spelling]) (forall_isWordSpelling_append h w)
  | .name w => by
    intro l hl
    unfold UseTree.leaves at hl
    split at hl
    · -- A leaf `self` stands for the names before it.
      obtain ⟨last, _, rfl⟩ := Option.map_eq_some_iff.mp (Option.mem_toList.mp hl)
      exact h
    · cases List.mem_singleton.mp hl
      exact forall_isWordSpelling_append h w
  | .rename w newName => by
    intro l hl
    unfold UseTree.leaves at hl
    split at hl
    · cases hl
    · cases List.mem_singleton.mp hl
      dsimp only
      split
      · exact h
      · exact forall_isWordSpelling_append h w
  | .group trees => UseTree.words_of_leavesAll before h trees
  | .glob => by
    intro l hl
    cases hl

theorem UseTree.words_of_leavesAll (before : List String) (h : ∀ s ∈ before, IsWordSpelling s) :
    (trees : List UseTree) → ∀ l ∈ UseTree.leavesAll before trees, ∀ s ∈ l.segments, IsWordSpelling s
  | [] => by
    intro l hl
    cases hl
  | tree :: rest => by
    intro l hl
    rw [UseTree.leavesAll] at hl
    rcases List.mem_append.mp hl with hl | hl
    · exact tree.words_of_leaves before h l hl
    · exact UseTree.words_of_leavesAll before h rest l hl

end

theorem words_of_lastLeaf? {items : List Item} {name : String} {l : Leaf} (h : lastLeaf? items name = some l) :
    ∀ s ∈ l.segments, IsWordSpelling s := by
  have hmem : l ∈ leavesOf items := (List.mem_filter.mp (List.mem_of_getLast? h)).1
  obtain ⟨item, _, hl⟩ := List.mem_flatMap.mp hmem
  cases item with
  | use tree => exact tree.words_of_leaves [] (by simp) l hl
  | _ => cases hl

/-- Expanding a path gives words again. -/
theorem words_of_expanded (items : List Item) (path : PlainPath) :
    ∀ s ∈ expanded items path, IsWordSpelling s := by
  have hwritten : ∀ s ∈ path.names.map Word.spelling, IsWordSpelling s := by
    intro s hs
    obtain ⟨w, _, rfl⟩ := List.mem_map.mp hs
    exact ⟨w, rfl⟩
  unfold expanded
  split
  · next first rest hl hn =>
    rw [hn] at hwritten
    split
    · next l hfound =>
      intro s hs
      rcases List.mem_append.mp hs with hs | hs
      · exact words_of_lastLeaf? hfound s hs
      · exact hwritten s (List.mem_cons_of_mem first hs)
    · exact hwritten
  · exact hwritten

/-! ## The resolved text reads as the expanded names -/

theorem dropSeparators_joinNames {names : List String} (h : ∀ s ∈ names, IsName s) :
    Marker.dropSeparators (joinNames names).toList = (joinNames names).toList := by
  cases names with
  | nil => rfl
  | cons s rest =>
    obtain ⟨hne, hcolon⟩ := h s List.mem_cons_self
    obtain ⟨c, cs, hs⟩ := List.exists_cons_of_ne_nil (mt String.toList_eq_nil_iff.mp hne)
    -- The text begins as its first name does, and no name begins with a colon.
    have hc : c ≠ ':' := by
      intro heq
      subst heq
      exact hcolon (hs ▸ List.mem_cons_self)
    have hfront : ∃ tail, (joinNames (s :: rest)).toList = c :: tail := by
      by_cases hrest : rest = []
      · exact ⟨cs, by rw [hrest, joinNames_singleton, hs]⟩
      · exact ⟨cs ++ ':' :: ':' :: (joinNames rest).toList, by rw [joinNames_cons s hrest, toList_around, hs]; rfl⟩
    obtain ⟨tail, htail⟩ := hfront
    rw [htail, Marker.dropSeparators]
    intro more he
    cases he
    exact absurd rfl hc

/-- A path in front of further names, itself written out, reads as all its names in a row. If it has no
names at all, the text begins with double colons instead. -/
theorem dropSeparators_joinNames_cons {full rest : List String} (hf : ∀ s ∈ full, IsName s)
    (hr : ∀ s ∈ rest, IsName s) :
    Marker.dropSeparators (joinNames (joinNames full :: rest)).toList = (joinNames (full ++ rest)).toList := by
  -- Where one of the two lists is empty, the join has no separator between them to speak of.
  by_cases hrest : rest = []
  · rw [hrest, joinNames_singleton, List.append_nil]
    exact dropSeparators_joinNames hf
  · by_cases hfull : full = []
    · rw [hfull, joinNames_nil, joinNames_cons "" hrest, toList_around, List.nil_append]
      exact dropSeparators_joinNames hr
    · rw [joinNames_cons _ hrest, ← joinNames_append hfull hrest]
      apply dropSeparators_joinNames
      intro s hs
      rcases List.mem_append.mp hs with hs | hs
      · exact hf s hs
      · exact hr s hs

theorem resolved_eq (items : List Item) (path : PlainPath) :
    Marker.dropSeparators ((Scope.ofItems items).resolve path).resolved.toList =
      (joinNames (expanded items path)).toList := by
  have hwords : ∀ s ∈ path.names.map Word.spelling, IsName s := isName_of_mem_spellings
  unfold Scope.resolve expanded
  cases hn : path.names.map Word.spelling with
  | nil => cases path.leading <;> rfl
  | cons first rest =>
    rw [hn] at hwords
    cases path.leading with
    | true => exact dropSeparators_joinNames hwords
    | false =>
      simp only [Bool.false_eq_true, if_false, Scope.import?_ofItems]
      -- Only the first name is looked up, and only where no `::` comes before it.
      cases hl : lastLeaf? items first with
      | none => exact dropSeparators_joinNames hwords
      | some l =>
        apply dropSeparators_joinNames_cons
        · exact fun s hs => (words_of_lastLeaf? hl s hs).isName
        · exact fun s hs => hwords s (List.mem_cons_of_mem first hs)

end TypedId
