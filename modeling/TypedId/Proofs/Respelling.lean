import TypedId.Proofs.PrintedLines
import TypedId.Proofs.RespelledNames

/-!
Texts respelled. The scan compares names where it looks for what is implemented for a struct, and where it
looks an attribute up among the imports. A text may be respelled without another effect on its units
wherever names that are compared stay alike or stay different, and where the names that the scan asks for are
left as they are (`respelled_units`); the keys themselves carry no raw marks. To write a name that the
scan asks for raw is to hide it: `raw_derive_hides`.
-/
namespace TypedId

/-! ## Respelled modules -/

/-- How the names that are compared in a module are written in another text: those that its structs declare,
those that its `impl` blocks are for, those that its attributes begin with, and those that its imports
bind. Two of them that are compared are written alike in both texts or in none. -/
structure Respelling where
  declared : Word → Word → Prop
  implemented : Word → Word → Prop
  applied : Word → Word → Prop
  imported : Word → Word → Prop
  types {d d' t t' : Word} : declared d d' → implemented t t' → (t.spelling = d.spelling ↔ t'.spelling = d'.spelling)
  names {a a' b b' : Word} : applied a a' → imported b b' → (b.spelling = a.spelling ↔ b'.spelling = a'.spelling)

/-- The same names respelled everywhere in a module, no two of them alike. -/
def Respelling.everywhere {T : Word → Word → Prop} (h : Relator.BiUnique T) : Respelling where
  declared := T
  implemented := T
  applied := T
  imported := T
  types hd ht := by
    rw [Word.spelling_injective.eq_iff, Word.spelling_injective.eq_iff]
    exact Relator.rel_eq h ht hd
  names ha hb := by
    rw [Word.spelling_injective.eq_iff, Word.spelling_injective.eq_iff]
    exact Relator.rel_eq h hb ha

variable {policy : MarkerPolicy} {R : Respelling}

inductive Visibility.Respelled : Visibility → Visibility → Prop where
  | inherited : Respelled .inherited .inherited
  | restricted (leading : Bool) {ws vs : List Word} :
    List.Forall₂ (Word.Respelled []) ws vs → Respelled (.restricted ⟨leading, ws⟩) (.restricted ⟨leading, vs⟩)
  | everywhere : Respelled .everywhere .everywhere

structure TupleField.Respelled (f g : TupleField) : Prop where
  visibility : f.visibility.Respelled g.visibility
  type : f.type.Respelled integerWords g.type

inductive Fields.Respelled : Fields → Fields → Prop where
  | named : Respelled .named .named
  | tuple {fs gs : List TupleField} : List.Forall₂ TupleField.Respelled fs gs → Respelled (.tuple fs) (.tuple gs)
  | unit : Respelled .unit .unit

structure Attribute.Respelled (policy : MarkerPolicy) (R : Respelling) (a b : Attribute) : Prop where
  leading : a.path.leading = b.path.leading
  names : List.Forall₂ (Word.Respelled (markerWords policy)) a.path.names b.path.names
  first : Option.Rel R.applied a.path.names.head? b.path.names.head?
  derived : List.Forall₂ (Path.LastRespelled traitWords) a.derivedPaths b.derivedPaths

structure StructDecl.Respelled (policy : MarkerPolicy) (R : Respelling) (d e : StructDecl) : Prop where
  attributes : List.Forall₂ (Attribute.Respelled policy R) d.attributes e.attributes
  name : (Word.ident d.name).Respelled [] (.ident e.name)
  declared : R.declared (.ident d.name) (.ident e.name)
  isGeneric : d.isGeneric = e.isGeneric
  fields : d.fields.Respelled e.fields

structure ImplBlock.Respelled (R : Respelling) (b c : ImplBlock) : Prop where
  ofTrait : Option.Rel Path.TraitRespelled b.ofTrait c.ofTrait
  selfName : Option.Rel (Spelled R.implemented) b.selfType.localName? c.selfType.localName?
  members : List.Forall₂ ImplMember.Respelled b.members c.members

mutual

/-- The same tree of imports. A name that stands for itself, or that `self` may stand for, is both a name of a full
path and one that is bound. -/
inductive UseTree.Respelled (policy : MarkerPolicy) (R : Respelling) : UseTree → UseTree → Prop where
  | path {w v : Word} {t u : UseTree} : w.Respelled (markerWords policy) v → R.imported w v →
    UseTree.Respelled policy R t u → UseTree.Respelled policy R (.path w t) (.path v u)
  | name {w v : Word} : w.Respelled (markerWords policy) v → R.imported w v →
    UseTree.Respelled policy R (.name w) (.name v)
  | rename {w v n m : Word} : w.Respelled (markerWords policy) v → n.Respelled [] m → R.imported n m →
    UseTree.Respelled policy R (.rename w n) (.rename v m)
  | glob : UseTree.Respelled policy R .glob .glob
  | group {ts us : List UseTree} : UseTreesRespelled policy R ts us →
    UseTree.Respelled policy R (.group ts) (.group us)

inductive UseTreesRespelled (policy : MarkerPolicy) (R : Respelling) : List UseTree → List UseTree → Prop where
  | nil : UseTreesRespelled policy R [] []
  | cons {t u : UseTree} {ts us : List UseTree} : UseTree.Respelled policy R t u → UseTreesRespelled policy R ts us →
    UseTreesRespelled policy R (t :: ts) (u :: us)

end

mutual

/-- The same item of a module. A module inside it is respelled in its own way. -/
inductive Item.Respelled (policy : MarkerPolicy) : Respelling → Item → Item → Prop where
  | struct {R : Respelling} {d e : StructDecl} : d.Respelled policy R e →
    Item.Respelled policy R (.struct d) (.struct e)
  | use {R : Respelling} {t u : UseTree} : t.Respelled policy R u → Item.Respelled policy R (.use t) (.use u)
  | impl {R : Respelling} {b c : ImplBlock} : b.Respelled R c → Item.Respelled policy R (.impl b) (.impl c)
  | module {R : Respelling} (inner : Respelling) {w v : Word} {xs ys : List Item} : w.Respelled [] v →
    ItemsRespelled policy inner xs ys → Item.Respelled policy R (.module w (some xs)) (.module v (some ys))
  | file {R : Respelling} (w v : Word) : Item.Respelled policy R (.module w none) (.module v none)
  | enum {R : Respelling} : Item.Respelled policy R .enum .enum
  | union {R : Respelling} : Item.Respelled policy R .union .union
  | other {R : Respelling} : Item.Respelled policy R .other .other

inductive ItemsRespelled (policy : MarkerPolicy) : Respelling → List Item → List Item → Prop where
  | nil {R : Respelling} : ItemsRespelled policy R [] []
  | cons {R : Respelling} {x y : Item} {xs ys : List Item} : Item.Respelled policy R x y →
    ItemsRespelled policy R xs ys → ItemsRespelled policy R (x :: xs) (y :: ys)

end

theorem ItemsRespelled.forall₂ {xs ys : List Item} (h : ItemsRespelled policy R xs ys) :
    List.Forall₂ (Item.Respelled policy R) xs ys := by
  match h with
  | .nil => exact .nil
  | .cons hxy hrest => exact .cons hxy hrest.forall₂

/-! ## Obstacles -/

theorem Visibility.Respelled.isPrivate_eq {v w : Visibility} (h : v.Respelled w) : v.isPrivate = w.isPrivate := by
  cases h with
  | restricted leading hnames =>
    have hself : ∀ s ∈ ["self"], ∀ w v : Word, w.Respelled [] v → (w.spelling = s ↔ v.spelling = s) := by
      intro s hs w v hwv
      rw [List.mem_singleton.mp hs]
      exact hwv.spelling_eq_keyword .kwSelf
    rw [Bool.eq_iff_iff, Visibility.isPrivate, Visibility.isPrivate, PlainPath.isName_iff, PlainPath.isName_iff]
    exact and_congr_right fun _ => spellings_eq_iff hself (forall₂_spelled hnames)
  | _ => rfl

theorem StructDecl.Respelled.derivesGenerated_eq {d e : StructDecl} (h : d.Respelled policy R e) :
    d.derivesGenerated = e.derivesGenerated := by
  refine any_eq_of_forall₂ h.attributes fun a b hab => ?_
  exact any_eq_of_forall₂ hab.derived fun p q hpq => hpq.namesGeneratedTrait_eq

theorem isEmpty_flatMap {α β : Type} (xs : List α) (f : α → List β) :
    (xs.flatMap f).isEmpty = xs.all fun x => (f x).isEmpty := by
  rw [Bool.eq_iff_iff, List.isEmpty_iff, List.flatMap_eq_nil_iff, List.all_eq_true]
  simp only [List.isEmpty_iff]

theorem ImplBlock.Respelled.isEmpty_eq {b c : ImplBlock} (h : b.Respelled R c) :
    b.supplied.isEmpty = c.supplied.isEmpty := by
  unfold ImplBlock.supplied
  rcases none_or_some_of_rel h.ofTrait with ⟨hp, hq⟩ | ⟨p, q, hp, hq, hpq⟩
  · rw [hp, hq, isEmpty_flatMap, isEmpty_flatMap]
    exact all_eq_of_forall₂ h.members fun m n hmn => hmn.isEmpty_eq
  · rw [hp, hq]
    exact hpq.isEmpty_eq

theorem ItemsRespelled.authored {xs ys : List Item} (h : ItemsRespelled policy R xs ys) :
    List.Forall₂ (fun a b => Spelled R.implemented a.1 b.1 ∧ a.2.isEmpty = b.2.isEmpty)
      (Scope.ofItems xs).authored (Scope.ofItems ys).authored := by
  refine List.rel_flatMap h.forall₂ fun x y hxy => ?_
  cases hxy with
  | @impl _ b c hbc =>
    simp only [Scope.authoredOf]
    rcases none_or_some_of_rel hbc.selfName with ⟨hb, hc⟩ | ⟨s, t, hb, hc, hst⟩
    · rw [hb, hc]
      exact .nil
    · rw [hb, hc]
      exact .cons ⟨hst, hbc.isEmpty_eq⟩ .nil
  | _ => exact .nil

theorem ItemsRespelled.supplies_eq {xs ys : List Item} (h : ItemsRespelled policy R xs ys) {d e : Word}
    (hde : R.declared d e) :
    (Scope.ofItems xs).supplies d.spelling = (Scope.ofItems ys).supplies e.spelling := by
  refine any_eq_of_forall₂ h.authored fun a b hab => ?_
  obtain ⟨⟨t, t', htt', hs, hs'⟩, hempty⟩ := hab
  have htypes := R.types hde htt'
  rw [← hs, ← hs', hempty, Bool.eq_iff_iff, Bool.and_eq_true, Bool.and_eq_true, beq_iff_eq, beq_iff_eq, htypes]

/-- A struct has an obstacle in its way if and only if it has one when it is respelled with its module. -/
theorem StructDecl.Respelled.isNone_obstacle?_eq {d e : StructDecl} (h : d.Respelled policy R e) {xs ys : List Item}
    (hitems : ItemsRespelled policy R xs ys) :
    (d.obstacle? (Scope.ofItems xs)).isNone = (e.obstacle? (Scope.ofItems ys)).isNone := by
  have hsupplies := hitems.supplies_eq h.declared
  have hderives := h.derivesGenerated_eq
  have hfields := h.fields
  unfold StructDecl.obstacle?
  generalize d.fields = fs at hfields ⊢
  generalize e.fields = gs at hfields ⊢
  cases hfields with
  | named => rfl
  | unit => rfl
  | tuple hfg =>
    match hfg with
    | .nil => rfl
    | .cons _ (.cons _ _) => rfl
    | .cons hfield .nil =>
      dsimp only
      rw [hfield.visibility.isPrivate_eq, hfield.type.isInteger_eq, hderives,
        show (Scope.ofItems xs).supplies d.name.spelling = _ from hsupplies]
      rfl

/-! ## Imports -/

theorem forall₂_getLast? {α β : Type} {S : α → β → Prop} {xs : List α} {ys : List β} (h : List.Forall₂ S xs ys) :
    Option.Rel S xs.getLast? ys.getLast? := by
  have hreverse := List.forall₂_reverse_iff.mpr h
  rw [List.getLast?_eq_head?_reverse, List.getLast?_eq_head?_reverse]
  generalize xs.reverse = xs' at hreverse ⊢
  generalize ys.reverse = ys' at hreverse ⊢
  cases hreverse with
  | nil => exact .none
  | cons hxy _ => exact .some hxy

/-- The names of a full path, respelled. -/
def NamesRespelled (policy : MarkerPolicy) (xs ys : List String) : Prop :=
  List.Forall₂ (Spelled (Word.Respelled (markerWords policy))) xs ys

/-- The same leaf. -/
structure Leaf.Respelled (policy : MarkerPolicy) (R : Respelling) (l m : Leaf) : Prop where
  name : Spelled R.imported l.name m.name
  segments : NamesRespelled policy l.segments m.segments

/-- The names on the way to a leaf, which may bind the last of them. -/
def WayRespelled (policy : MarkerPolicy) (R : Respelling) (xs ys : List String) : Prop :=
  List.Forall₂ (Spelled fun w v => w.Respelled (markerWords policy) v ∧ R.imported w v) xs ys

theorem WayRespelled.names {xs ys : List String} (h : WayRespelled policy R xs ys) : NamesRespelled policy xs ys :=
  List.Forall₂.imp (fun _ _ hst => hst.imp fun _ _ hwv => hwv.1) h

theorem NamesRespelled.append {xs ys : List String} (h : NamesRespelled policy xs ys) {w v : Word}
    (hwv : w.Respelled (markerWords policy) v) : NamesRespelled policy (xs ++ [w.spelling]) (ys ++ [v.spelling]) :=
  List.rel_append h (.cons ⟨w, v, hwv, rfl, rfl⟩ .nil)

mutual

theorem UseTree.Respelled.leaves {before before' : List String} (hbefore : WayRespelled policy R before before')
    {t u : UseTree} (h : t.Respelled policy R u) :
    List.Forall₂ (Leaf.Respelled policy R) (t.leaves before) (u.leaves before') := by
  match h with
  | .path hwv hbound hrest =>
    exact hrest.leaves (List.rel_append hbefore (.cons ⟨_, _, ⟨hwv, hbound⟩, rfl, rfl⟩ .nil))
  | .name (w := w) (v := v) hwv hbound =>
    have hself : w.spelling = "self" ↔ v.spelling = "self" := hwv.spelling_eq_keyword .kwSelf
    rw [UseTree.leaves, UseTree.leaves]
    by_cases hw : w.spelling = "self"
    · -- What is bound is the last name on the way.
      rw [if_pos hw, if_pos (hself.mp hw)]
      rcases none_or_some_of_rel (forall₂_getLast? hbefore) with ⟨hs, ht⟩ | ⟨s, t, hs, ht, hst⟩
      · rw [hs, ht]
        exact .nil
      · rw [hs, ht]
        exact .cons ⟨hst.imp fun _ _ hwv => hwv.2, hbefore.names⟩ .nil
    · rw [if_neg hw, if_neg (mt hself.mpr hw)]
      exact .cons ⟨⟨w, v, hbound, rfl, rfl⟩, hbefore.names.append hwv⟩ .nil
  | .rename (w := w) (v := v) (n := n) (m := m) hwv hnm hbound =>
    have hself : w.spelling = "self" ↔ v.spelling = "self" := hwv.spelling_eq_keyword .kwSelf
    have hunderscore : n.spelling = "_" ↔ m.spelling = "_" := hnm.spelling_eq_keyword .kwUnderscore
    rw [UseTree.leaves, UseTree.leaves]
    by_cases hn : n.spelling = "_"
    · rw [if_pos hn, if_pos (hunderscore.mp hn)]
      exact .nil
    · rw [if_neg hn, if_neg (mt hunderscore.mpr hn)]
      refine .cons ⟨⟨n, m, hbound, rfl, rfl⟩, ?_⟩ .nil
      dsimp only
      by_cases hw : w.spelling = "self"
      · rw [if_pos hw, if_pos (hself.mp hw)]
        exact hbefore.names
      · rw [if_neg hw, if_neg (mt hself.mpr hw)]
        exact hbefore.names.append hwv
  | .glob => exact .nil
  | .group htrees => exact htrees.leaves hbefore

theorem UseTreesRespelled.leaves {before before' : List String} (hbefore : WayRespelled policy R before before')
    {ts us : List UseTree} (h : UseTreesRespelled policy R ts us) :
    List.Forall₂ (Leaf.Respelled policy R) (UseTree.leavesAll before ts) (UseTree.leavesAll before' us) := by
  match h with
  | .nil => exact .nil
  | .cons htree hrest => exact List.rel_append (htree.leaves hbefore) (hrest.leaves hbefore)

end

theorem ItemsRespelled.leaves {xs ys : List Item} (h : ItemsRespelled policy R xs ys) :
    List.Forall₂ (Leaf.Respelled policy R) (leavesOf xs) (leavesOf ys) := by
  refine List.rel_flatMap h.forall₂ fun x y hxy => ?_
  cases hxy with
  | use htree => exact htree.leaves .nil
  | _ => exact .nil

/-- An attribute's first name is imported by the same leaf or by none. -/
theorem ItemsRespelled.lastLeaf? {xs ys : List Item} (h : ItemsRespelled policy R xs ys) {a b : Word}
    (hab : R.applied a b) :
    Option.Rel (Leaf.Respelled policy R) (lastLeaf? xs a.spelling) (lastLeaf? ys b.spelling) := by
  refine forall₂_getLast? (List.rel_filter ?_ h.leaves)
  rintro l m ⟨⟨w, v, hwv, hl, hm⟩, _⟩
  dsimp only
  rw [beq_iff_eq, beq_iff_eq, ← hl, ← hm]
  exact R.names hab hwv

theorem Attribute.Respelled.expanded {xs ys : List Item} (hitems : ItemsRespelled policy R xs ys) {a b : Attribute}
    (h : a.Respelled policy R b) : NamesRespelled policy (expanded xs a.path) (expanded ys b.path) := by
  obtain ⟨⟨leading, ws⟩, _⟩ := a
  obtain ⟨⟨leading', vs⟩, _⟩ := b
  obtain ⟨hleading, hnames, hfirst, _⟩ := h
  dsimp only at hleading hnames hfirst
  subst hleading
  have hwritten : NamesRespelled policy (ws.map Word.spelling) (vs.map Word.spelling) := forall₂_spelled hnames
  cases leading with
  | true => exact hwritten
  | false =>
    cases hnames with
    | nil => exact .nil
    | @cons w v ws vs hwv hrest =>
      cases hfirst with
      | some happlied =>
        simp only [TypedId.expanded, List.map_cons]
        rcases none_or_some_of_rel (hitems.lastLeaf? happlied) with ⟨hl, hm⟩ | ⟨l, m, hl, hm, hlm⟩
        · rw [hl, hm]
          exact hwritten
        · rw [hl, hm]
          exact List.rel_append hlm.segments (forall₂_spelled hrest)

/-- An attribute is the marker in both texts or in none. -/
theorem Attribute.Respelled.isMatch_eq {xs ys : List Item} (hitems : ItemsRespelled policy R xs ys) {a b : Attribute}
    (h : a.Respelled policy R b) :
    Marker.isMatch policy ((Scope.ofItems xs).resolve a.path) =
      Marker.isMatch policy ((Scope.ofItems ys).resolve b.path) := by
  have hnames := h.expanded hitems
  cases policy with
  | strict =>
    have hwords : ∀ s ∈ ["idgen_macros", "identifier"], s ∈ markerWords .strict ∧ '#' ∉ s.toList := by decide
    rw [Bool.eq_iff_iff, isMatch_strict_iff, isMatch_strict_iff]
    refine spellings_eq_iff (fun s hs w v hwv => ?_) hnames
    exact hwv.spelling_eq_iff (hwords s hs).1 (hwords s hs).2
  | permissive =>
    rw [Bool.eq_iff_iff, isMatch_permissive_iff, isMatch_permissive_iff]
    rcases none_or_some_of_rel (forall₂_getLast? hnames) with ⟨hs, ht⟩ | ⟨s, t, hs, ht, hst⟩
    · rw [hs, ht]
    · simp only [hs, ht, Option.some.injEq, exists_eq_left', Marker.IsMarkerName, hst.unraw_eq]

/-! ## Structs and their units -/

/-- The same struct, inside modules of the same names. -/
structure Site.Respelled (policy : MarkerPolicy) (s t : Site) : Prop where
  names : List.Forall₂ (Spelled (Word.Respelled [])) s.names t.names
  scope : ∃ R : Respelling, ItemsRespelled policy R s.items t.items ∧ s.declaration.Respelled policy R t.declaration

theorem Site.Respelled.under {s t : Site} (h : s.Respelled policy t) {w v : Word} (hwv : w.Respelled [] v) :
    (s.under w).Respelled policy (t.under v) :=
  ⟨.cons ⟨w, v, hwv, rfl, rfl⟩ h.names, h.scope⟩

mutual

theorem Item.Respelled.sites {R : Respelling} {xs ys : List Item} {x y : Item} (h : x.Respelled policy R y)
    (hitems : ItemsRespelled policy R xs ys) :
    List.Forall₂ (fun s t => s.2.Respelled policy t.2) (x.sites xs) (y.sites ys) := by
  match h with
  | .struct hd => exact .cons ⟨.nil, R, hitems, hd⟩ .nil
  | .module inner hwv hcontent =>
    refine List.rel_map (fun s t hst => ?_) (hcontent.sitesFrom 0 hcontent)
    exact Site.Respelled.under hst hwv
  | .use _ | .impl _ | .file _ _ | .enum | .union | .other => exact .nil

theorem ItemsRespelled.sitesFrom {R : Respelling} {xs ys rest rest' : List Item} (i : Nat)
    (h : ItemsRespelled policy R rest rest') (hitems : ItemsRespelled policy R xs ys) :
    List.Forall₂ (fun s t => s.2.Respelled policy t.2) (sitesFrom xs i rest) (sitesFrom ys i rest') := by
  match h with
  | .nil => exact .nil
  | .cons hxy hrest =>
    refine List.rel_append (List.rel_map (fun s t hst => ?_) (hxy.sites hitems)) (hrest.sitesFrom (i + 1) hitems)
    exact hst

end

theorem ItemsRespelled.extensibleSites {xs ys : List Item} (h : ItemsRespelled policy R xs ys) :
    List.Forall₂ (fun s t => s.2.Respelled policy t.2) (extensibleSites xs) (extensibleSites ys) := by
  refine List.rel_filter (fun s t hst => ?_) (h.sitesFrom 0 h)
  obtain ⟨_, hitems, hdeclaration⟩ := hst.scope
  exact Bool.eq_iff_iff.mp (hdeclaration.isNone_obstacle?_eq hitems)

/-- The candidates for the same struct get units with the same key, or none. -/
theorem Site.Respelled.unitKey_eq {s t : Site} (h : s.Respelled policy t) (p : ModulePath) (source source' : DiskPath) :
    ((s.candidate p source).qualified? policy).map QualifiedType.unitKey =
      ((t.candidate p source').qualified? policy).map QualifiedType.unitKey := by
  obtain ⟨R, hitems, hdeclaration⟩ := h.scope
  have hmarked : Marker.isMarked policy (s.candidate p source).attributes =
      Marker.isMarked policy (t.candidate p source').attributes := by
    simp only [Marker.isMarked, Site.candidate, List.any_map]
    exact any_eq_of_forall₂ hdeclaration.attributes fun a b hab => hab.isMatch_eq hitems
  have hname : isIdentifier s.declaration.name.spelling = isIdentifier t.declaration.name.spelling :=
    hdeclaration.name.isIdentifier_eq
  have hsegments : s.names.all isIdentifier = t.names.all isIdentifier :=
    all_eq_of_forall₂ h.names fun _ _ hst => hst.isIdentifier_eq
  have hkey : unraw s.declaration.name.spelling = unraw t.declaration.name.spelling := hdeclaration.name.unraw_spelling
  have hdirectories : s.names.map unraw = t.names.map unraw := map_eq_of_forall₂ h.names fun _ _ hst => hst.unraw_eq
  have hresolve : (s.candidate p source).resolve?.map QualifiedType.unitKey =
      (t.candidate p source').resolve?.map QualifiedType.unitKey := by
    simp only [Candidate.resolve?, Site.candidate, hdeclaration.isGeneric, hname, List.all_append, hsegments]
    split
    · simp [QualifiedType.unitKey, hkey, hdirectories]
    · rfl
  have hextensible : (s.candidate p source).isExtensible = (t.candidate p source').isExtensible := rfl
  unfold Candidate.qualified?
  rw [hmarked, hextensible]
  split
  · exact hresolve
  · rfl

/-- The candidates for structs that were read get their units. -/
theorem exists_units_of_sites (policy : MarkerPolicy) (p : ModulePath) (source : DiskPath)
    (found : List (Address × Site)) :
    ∃ units, (generate policy (found.map fun x => x.2.candidate p source)).result = .ok units := by
  refine generate_perm_iff.mpr (fun t ht => ?_) _ (List.Perm.refl _)
  obtain ⟨c, hc, hq⟩ := List.mem_filterMap.mp ht
  obtain ⟨x, _, rfl⟩ := List.mem_map.mp hc
  obtain ⟨_, hresolve, _⟩ := Candidate.qualified?_eq_some.mp hq
  exact ⟨x.2.declaration.name, by rw [(Candidate.resolve?_eq_some.mp hresolve).1]; rfl⟩

theorem map_unitKey_of_respelled {xs ys : List Item} (h : ItemsRespelled policy R xs ys) (p : ModulePath)
    (source source' : DiskPath) :
    (qualifiedTypes policy ((extensibleSites xs).map fun x => x.2.candidate p source)).map QualifiedType.unitKey =
      (qualifiedTypes policy ((extensibleSites ys).map fun x => x.2.candidate p source')).map QualifiedType.unitKey := by
  simp only [qualifiedTypes, List.filterMap_map, List.map_filterMap]
  exact filterMap_eq_of_forall₂ h.extensibleSites fun x y hxy => hxy.unitKey_eq p source source'

/-- **A text may be respelled.** Where the names that are compared in a module stay alike or stay different, and the
names that the scan asks for are left as they are, the two texts have candidates whose units have the same
keys in the same order. -/
theorem respelled_units {s s' : SourceText} {tree tree' : SourceTree} (hpath : s.modulePath = s'.modulePath)
    (htree : SourceTree.ofText? s.text = some tree) (htree' : SourceTree.ofText? s'.text = some tree')
    (hitems : ItemsRespelled policy R tree.items tree'.items) :
    ∃ candidates candidates' units units',
      (scanSource s).result = .ok candidates ∧ (generate policy candidates).result = .ok units ∧
      (scanSource s').result = .ok candidates' ∧ (generate policy candidates').result = .ok units' ∧
      units.map GeneratedUnit.key = units'.map GeneratedUnit.key := by
  obtain ⟨units, hunits⟩ := exists_units_of_sites policy s.modulePath s.path (extensibleSites tree.items)
  obtain ⟨units', hunits'⟩ := exists_units_of_sites policy s'.modulePath s'.path (extensibleSites tree'.items)
  refine ⟨_, _, units, units', ?_, hunits, ?_, hunits', ?_⟩
  · rw [scanSource_of_ofText? s htree, scanItems_result]
  · rw [scanSource_of_ofText? s' htree', scanItems_result]
  · rw [map_key_of_generate_eq hunits, map_key_of_generate_eq hunits', ← hpath, map_unitKey_of_respelled hitems]

/-! ## A text written raw -/

/-- The same identifier, raw in one of the two places. -/
def Word.Flipped (w v : Word) : Prop := ∃ i j : Ident, w = .ident i ∧ v = .ident j ∧ i.text = j.text ∧ i.raw = !j.raw

theorem Word.biUnique_flipped : Relator.BiUnique Word.Flipped := by
  have hsame : ∀ i j : Ident, i.text = j.text → i.raw = j.raw → i = j := by
    rintro ⟨_, _, _⟩ ⟨_, _, _⟩ rfl rfl
    rfl
  constructor
  · rintro _ _ _ ⟨i, k, rfl, rfl, htext, hraw⟩ ⟨j, k', rfl, hk, htext', hraw'⟩
    cases hk
    rw [hsame i j (htext.trans htext'.symm) (hraw.trans hraw'.symm)]
  · rintro _ _ _ ⟨k, i, rfl, rfl, htext, hraw⟩ ⟨k', j, hk, rfl, htext', hraw'⟩
    cases hk
    rw [hsame i j (htext.symm.trans htext') (Bool.not_inj (hraw.symm.trans hraw'))]

/-- The identifier with this text, raw or not. -/
def rawOrPlain (raw : Bool) (s : String) (h : ∀ raw, isIdentText raw s = true := by decide +kernel) : Ident :=
  ⟨raw, s, h raw⟩

theorem flipped_rawOrPlain (s : String) (h : ∀ raw, isIdentText raw s = true) :
    Word.Flipped (.ident (rawOrPlain false s h)) (.ident (rawOrPlain true s h)) := ⟨_, _, rfl, rfl, rfl, rfl⟩

theorem respelled_rawOrPlain {fixed : List String} (s : String) (h : ∀ raw, isIdentText raw s = true) (hs : s ∉ fixed) :
    (Word.ident (rawOrPlain false s h)).Respelled fixed (.ident (rawOrPlain true s h)) :=
  .ident rfl fun hmem => absurd hmem hs

open Phrase in
/-- `use m::identifier as id; #[id] struct Order(i64); impl Shop for Order {}`, with every name raw or none. -/
def orderLine (raw : Bool) : Phrase :=
  word .kwUse ++ gap ++ name (rawOrPlain raw "m") ++ marks [':', ':'] ++ name (rawOrPlain raw "identifier") ++ gap ++
  word .kwAs ++ gap ++ name (rawOrPlain raw "id") ++ marks [';'] ++ gap ++
  marks ['#'] ++ enclosed .bracket (name (rawOrPlain raw "id")) ++ gap ++
  word .kwStruct ++ gap ++ name (rawOrPlain raw "Order") ++ enclosed .parenthesis (plain "i64") ++ marks [';'] ++ gap ++
  word .kwImpl ++ gap ++ name (rawOrPlain raw "Shop") ++ gap ++ word .kwFor ++ gap ++ name (rawOrPlain raw "Order") ++
  gap ++ enclosed .brace []

/-- The items of the line. -/
def orderItems (raw : Bool) : List Item := [
  .use (.path (.ident (rawOrPlain raw "m"))
    (.rename (.ident (rawOrPlain raw "identifier")) (.ident (rawOrPlain raw "id")))),
  .struct {
    attributes := [⟨⟨false, [.ident (rawOrPlain raw "id")]⟩, .none⟩]
    name := rawOrPlain raw "Order"
    isGeneric := false
    fields := .tuple [⟨.inherited, .path false (.mk false [.mk (plainWord "i64") .none])⟩] },
  .impl {
    ofTrait := some (.mk false [.mk (.ident (rawOrPlain raw "Shop")) .none])
    selfType := .path false (.mk false [.mk (.ident (rawOrPlain raw "Order")) .none])
    members := [] }]

/-- A line whose parts stay apart is read as the items that its lexemes form. -/
theorem SourceTree.ofText?_line {ps : Phrase} (hapart : Part.apart ps = true) {cs : List Char}
    (hcs : cs = Phrase.text ps ++ ['\n']) (hmark : Token.dropMark cs = cs) (hline : dropInterpreterLine cs = cs) :
    SourceTree.ofText? (String.ofList cs) = (Lexeme.nest (Part.lexemes ps)).bind SourceTree.ofTokens? := by
  have hlexemes : Lexeme.ofText? cs = some (Part.lexemes ps) := by
    rw [hcs, Phrase.ofText?_text hapart, Lexeme.ofText?]
    simp
  rw [SourceTree.ofText?, String.toList_ofList, hmark, hline, Token.lex?, hmark, hlexemes, Option.bind_some]

theorem ofText?_orderLine (raw : Bool) :
    SourceTree.ofText? (String.ofList (Phrase.text (orderLine raw) ++ ['\n'])) = some ⟨0, orderItems raw⟩ := by
  cases raw
  all_goals
    rw [SourceTree.ofText?_line rfl rfl rfl rfl]
    rfl

theorem respelled_orderItems :
    ItemsRespelled .permissive (Respelling.everywhere Word.biUnique_flipped) (orderItems false) (orderItems true) := by
  have hfixed : ∀ {fixed : List String} (s : String) (h : ∀ raw, isIdentText raw s = true), s ∉ fixed →
      (Word.ident (rawOrPlain false s h)).Respelled fixed (.ident (rawOrPlain true s h)) := respelled_rawOrPlain
  refine .cons (.use (.path ?_ ?_ (.rename ?_ ?_ ?_))) (.cons (.struct ?_) (.cons (.impl ?_) .nil))
  · exact hfixed "m" _ (by decide)
  · exact flipped_rawOrPlain "m" _
  · exact hfixed "identifier" _ (by decide)
  · exact hfixed "id" _ (by decide)
  · exact flipped_rawOrPlain "id" _
  · refine ⟨.cons ?_ .nil, hfixed "Order" _ (by decide), flipped_rawOrPlain "Order" _, rfl, ?_⟩
    · exact ⟨rfl, .cons (hfixed "id" _ (by decide)) .nil, .some (flipped_rawOrPlain "id" _), .nil⟩
    · exact .tuple (.cons ⟨.inherited, .path false rfl (.cons ⟨.ident rfl fun _ => rfl, rfl⟩ .nil)⟩ .nil)
  · refine ⟨.some (.some ⟨hfixed "Shop" _ (by decide), .none⟩), .some ?_, .nil⟩
    exact ⟨_, _, flipped_rawOrPlain "Order" _, rfl, rfl⟩

/-- A text in the root of the sources. -/
def rootSource (text : String) : SourceText := ⟨DiskPath.ofString "src/lib.rs", .root, text⟩

/-- The marker is found under its raw name, and the unit has the same key. -/
theorem respelled_units_order :
    ∃ candidates candidates' units units',
      (scanSource (rootSource
        "use m::identifier as id; #[id] struct Order(i64); impl Shop for Order \x7b\x7d\n")).result = .ok candidates ∧
      (generate .permissive candidates).result = .ok units ∧
      (scanSource (rootSource
        "use r#m::r#identifier as r#id; #[r#id] struct r#Order(i64); impl r#Shop for r#Order \x7b\x7d\n")).result =
          .ok candidates' ∧
      (generate .permissive candidates').result = .ok units' ∧
      units.map GeneratedUnit.key = ["Order.g.rs"] ∧ units'.map GeneratedUnit.key = ["Order.g.rs"] := by
  have hplain : "use m::identifier as id; #[id] struct Order(i64); impl Shop for Order \x7b\x7d\n" =
      String.ofList (Phrase.text (orderLine false) ++ ['\n']) := by decide +kernel
  have hraw : "use r#m::r#identifier as r#id; #[r#id] struct r#Order(i64); impl r#Shop for r#Order \x7b\x7d\n" =
      String.ofList (Phrase.text (orderLine true) ++ ['\n']) := by decide +kernel
  rw [hplain, hraw]
  have htree : ∀ raw, SourceTree.ofText? (rootSource (String.ofList (Phrase.text (orderLine raw) ++ ['\n']))).text =
      some ⟨0, orderItems raw⟩ := ofText?_orderLine
  obtain ⟨candidates, candidates', units, units', hscan, hunits, hscan', hunits', hkeys⟩ :=
    respelled_units (by rfl) (htree false) (htree true) respelled_orderItems
  have hunitKeys : units.map GeneratedUnit.key = ["Order.g.rs"] := by
    have hcandidates := hscan
    rw [scanSource_of_ofText? _ (htree false), scanItems_result, Except.ok.injEq] at hcandidates
    rw [map_key_of_generate_eq hunits, ← hcandidates]
    decide +kernel
  exact ⟨candidates, candidates', units, units', hscan, hunits, hscan', hunits', hunitKeys, hkeys ▸ hunitKeys⟩

/-- The candidate for `#[derive(r#Clone)] #[identifier] struct A(i64);`. -/
def derivingRaw : Candidate where
  name := "A"
  modulePath := .root
  isExtensible := true
  isGeneric := false
  attributes := [⟨"derive", "derive"⟩, ⟨"identifier", "identifier"⟩]
  source := DiskPath.ofString "src/lib.rs"

/-- A struct that derives a generated trait is no candidate, but it is one if the name of the trait is raw. -/
theorem raw_derive_hides :
    (scanSource (rootSource "#[derive(Clone)] #[identifier] struct A(i64);")).result =
      .ok [] ∧
    (generate .permissive []).result = .ok [] ∧
    (scanSource (rootSource "#[derive(r#Clone)] #[identifier] struct A(i64);")).result =
      .ok [derivingRaw] ∧
    ∃ units, (generate .permissive [derivingRaw]).result = .ok units ∧ units.map GeneratedUnit.key = ["A.g.rs"] := by
  refine ⟨by decide +kernel, rfl, by decide +kernel, ?_⟩
  have hname : ∀ t ∈ qualifiedTypes .permissive [derivingRaw], ∃ n : Ident, n.spelling = t.typeName := by
    have htypes : qualifiedTypes .permissive [derivingRaw] = [⟨.root, "A"⟩] := by decide +kernel
    intro t ht
    rw [htypes, List.mem_singleton] at ht
    exact ⟨⟨false, "A", .refl true⟩, ht ▸ rfl⟩
  obtain ⟨units, hunits⟩ := generate_perm_iff.mpr hname [derivingRaw] (List.Perm.refl _)
  refine ⟨units, hunits, ?_⟩
  rw [map_key_of_generate_eq hunits]
  decide +kernel

end TypedId
