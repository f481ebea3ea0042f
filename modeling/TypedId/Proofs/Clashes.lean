import TypedId.Proofs.Extensible
import TypedId.Proofs.Generation

/-!
What a unit adds to the module it is included in, beside what the module has already. Implementations are told apart by
the last name of the trait, its arguments and the name they are for. The scan keeps most types only as far as it needs
them, so an argument that no unit can give takes an implementation out of the comparison: it is not one of a unit's, and
two of them are never taken for one.

A struct that the scan accepts has none of the generated traits and members. `unit_clashes_iff` names what is left: a
struct with the name of the integer, a conversion into the integer in the module, and one from it that the struct
derives. The scan does not look for the second (`conversion_back_clashes`).
-/
namespace TypedId

/-! ## Implementations and members, as far as two of them are told apart -/

/-- An argument that a unit gives to a trait: the integer, or a type of the module by its name. -/
inductive TraitArgument where
  | integer
  | here (name : String)
  deriving DecidableEq, Repr

/-- A trait with its arguments, implemented for the type with a name. -/
structure Implementation where
  traitName : String
  arguments : List TraitArgument
  typeName : String
  deriving DecidableEq, Repr

/-- The argument that a name alone is. -/
def TraitArgument.named (name : String) : TraitArgument := if name = "i64" then .integer else .here name

/-- The argument that a type is, if a unit can give it: a spelling of the integer, or a name alone or after `self`.
Types are compared as they are written, so of any other one it is only known that no unit gives it. -/
def Ty.traitArgument? (t : Ty) : Option TraitArgument :=
  if t.isInteger then some .integer else t.localName?.map .here

/-- The argument that stands in angle brackets, if a unit can give it. -/
def GenericArgument.traitArgument? : GenericArgument → Option TraitArgument
  | .type t => t.traitArgument?
  | .other => none

/-- The arguments after the last name of a trait's path, if a unit can give all of them. -/
def PathArguments.traitArguments? : PathArguments → Option (List TraitArgument)
  | .none => some []
  | .angle arguments => arguments.mapM GenericArgument.traitArgument?
  | .parenthesized => Option.none

/-- What is implemented for a type by naming the trait with this path. -/
def Path.implementation? (typeName : String) (p : Path) : Option Implementation := do
  let s ← p.segments.getLast?
  let arguments ← s.arguments.traitArguments?
  return ⟨s.name.spelling, arguments, typeName⟩

/-- What an item implements for a type that is written as one name, perhaps after `self`. -/
def Item.implementation? : Item → Option Implementation
  | .impl b => do
    let p ← b.ofTrait
    let typeName ← b.selfType.localName?
    p.implementation? typeName
  | _ => none

/-- What some items implement with arguments that a unit can give. The others are implementations of no trait that a
unit implements, and two of them are never taken for one. -/
def implementations (items : List Item) : List Implementation := items.filterMap Item.implementation?

/-- What a struct derives. -/
def StructDecl.derived (d : StructDecl) : List Implementation :=
  d.attributes.flatMap fun a => a.derivedPaths.filterMap (Path.implementation? d.name.spelling)

/-- The name of a constant or a function. -/
def ImplMember.name? : ImplMember → Option String
  | .const name => some name.spelling
  | .function name => some name.spelling
  | .other => none

/-- The constants and functions that an item defines on a type itself. -/
def Item.membersOf (typeName : String) : Item → List String
  | .impl b =>
    if b.ofTrait.isNone && b.selfType.localName? == some typeName then b.members.filterMap ImplMember.name?
    else []
  | _ => []

/-- The constants and functions that some items define on a type itself. -/
def membersOf (typeName : String) (items : List Item) : List String :=
  items.flatMap (Item.membersOf typeName)

theorem Path.implementation?_eq_some {p : Path} {T : String} {i : Implementation} :
    p.implementation? T = some i ↔ ∃ s arguments, p.segments.getLast? = some s ∧
      s.arguments.traitArguments? = some arguments ∧ i = ⟨s.name.spelling, arguments, T⟩ := by
  constructor
  · intro h
    obtain ⟨s, hs, h⟩ := Option.bind_eq_some_iff.mp h
    obtain ⟨arguments, harguments, h⟩ := Option.bind_eq_some_iff.mp h
    exact ⟨s, arguments, hs, harguments, (Option.some.inj h).symm⟩
  · rintro ⟨s, arguments, hs, harguments, rfl⟩
    exact Option.bind_eq_some_iff.mpr ⟨s, hs, Option.bind_eq_some_iff.mpr ⟨arguments, harguments, rfl⟩⟩

theorem Path.typeName_of_implementation? {p : Path} {T : String} {i : Implementation}
    (h : p.implementation? T = some i) : i.typeName = T := by
  obtain ⟨s, arguments, _, _, rfl⟩ := Path.implementation?_eq_some.mp h
  rfl

theorem Item.implementation?_impl {b : ImplBlock} {i : Implementation} :
    (Item.impl b).implementation? = some i ↔ ∃ p, b.ofTrait = some p ∧
      b.selfType.NamesHere i.typeName ∧ p.implementation? i.typeName = some i := by
  constructor
  · intro h
    obtain ⟨p, hp, h⟩ := Option.bind_eq_some_iff.mp h
    obtain ⟨typeName, htype, himpl⟩ := Option.bind_eq_some_iff.mp h
    obtain rfl := Path.typeName_of_implementation? himpl
    exact ⟨p, hp, Ty.localName?_iff.mp htype, himpl⟩
  · rintro ⟨p, hp, htype, himpl⟩
    refine Option.bind_eq_some_iff.mpr ⟨p, hp, ?_⟩
    exact Option.bind_eq_some_iff.mpr ⟨_, Ty.localName?_iff.mpr htype, himpl⟩

theorem mem_implementations {items : List Item} {i : Implementation} :
    i ∈ implementations items ↔
      ∃ b p, Item.impl b ∈ items ∧ b.ofTrait = some p ∧ b.selfType.NamesHere i.typeName ∧
        p.implementation? i.typeName = some i := by
  rw [implementations, List.mem_filterMap]
  constructor
  · rintro ⟨item, hitem, h⟩
    cases item with
    | impl b =>
      obtain ⟨p, hb⟩ := Item.implementation?_impl.mp h
      exact ⟨b, p, hitem, hb⟩
    | _ => cases h
  · rintro ⟨b, p, hitem, hb⟩
    exact ⟨.impl b, hitem, Item.implementation?_impl.mpr ⟨p, hb⟩⟩

theorem StructDecl.mem_derived {d : StructDecl} {i : Implementation} :
    i ∈ d.derived ↔ ∃ a ∈ d.attributes, ∃ p ∈ a.derivedPaths, p.implementation? d.name.spelling = some i := by
  simp only [derived, List.mem_flatMap, List.mem_filterMap]

theorem StructDecl.typeName_of_mem_derived {d : StructDecl} {i : Implementation} (h : i ∈ d.derived) :
    i.typeName = d.name.spelling := by
  obtain ⟨_, _, p, _, himpl⟩ := mem_derived.mp h
  exact Path.typeName_of_implementation? himpl

theorem mem_membersOf {items : List Item} {typeName name : String} :
    name ∈ membersOf typeName items ↔
      ∃ b, Item.impl b ∈ items ∧ b.ofTrait = none ∧ b.selfType.NamesHere typeName ∧
        ∃ m ∈ b.members, m.name? = some name := by
  simp only [membersOf, List.mem_flatMap]
  constructor
  · intro hsome
    obtain ⟨item, hitem, hname⟩ := hsome
    cases item with
    | impl b =>
      simp only [Item.membersOf] at hname
      split at hname
      · next h =>
        simp only [Bool.and_eq_true, Option.isNone_iff_eq_none, beq_iff_eq] at h
        exact ⟨b, hitem, h.1, Ty.localName?_iff.mp h.2, List.mem_filterMap.mp hname⟩
      · cases hname
    | _ => cases hname
  · intro hsome
    obtain ⟨b, hb, hnone, htype, hm⟩ := hsome
    refine ⟨.impl b, hb, ?_⟩
    rw [Item.membersOf, hnone, Ty.localName?_iff.mpr htype]
    simpa using hm

/-! ## What a unit implements and defines -/

/-- The implementations of the unit for the type with this name. -/
def generatedImplementations (n : Ident) : List Implementation :=
  Template.traitOrder.map (fun t => ⟨t.name, [], n.spelling⟩) ++
    [⟨"From", [.integer], n.spelling⟩, ⟨"From", [.named n.spelling], "i64"⟩]

theorem isInteger_typeNamed (n : Ident) : (Template.typeNamed n).isInteger = true ↔ n.spelling = "i64" := by
  rw [Ty.isInteger_iff]
  constructor
  · intro hsome
    obtain ⟨leading, segments, htype, _, hnames⟩ := hsome
    cases htype
    simpa [integerNames, Segment.name, Word.spelling] using hnames
  · intro h
    refine ⟨false, _, rfl, ?_, ?_⟩
    · intro s hs
      rw [List.mem_singleton.mp hs]
      rfl
    · simp [integerNames, Segment.name, Word.spelling, h]

theorem traitArgument?_typeNamed (n : Ident) : (Template.typeNamed n).traitArgument? = some (.named n.spelling) := by
  have hlocal : (Template.typeNamed n).localName? = some n.spelling := rfl
  rw [Ty.traitArgument?, TraitArgument.named, hlocal]
  by_cases h : n.spelling = "i64"
  · rw [if_pos h, if_pos ((isInteger_typeNamed n).mpr h)]
  · rw [if_neg h, if_neg (mt (isInteger_typeNamed n).mp h)]
    rfl

theorem implementation?_traitImpl (n : Ident) (t : GeneratedTrait) :
    (Item.impl (Template.traitImpl n t)).implementation? = some ⟨t.name, [], n.spelling⟩ := rfl

theorem implementation?_conversionImpl (source target : Ident) :
    (Item.impl (Template.conversionImpl source target)).implementation? =
      some ⟨"From", [.named source.spelling], target.spelling⟩ := by
  have harguments : (PathArguments.angle [.type (Template.typeNamed source)]).traitArguments? =
      some [.named source.spelling] := by
    simp [PathArguments.traitArguments?, GenericArgument.traitArgument?, traitArgument?_typeNamed]
  refine Item.implementation?_impl.mpr ⟨_, rfl, .alone _ rfl rfl, ?_⟩
  exact Path.implementation?_eq_some.mpr ⟨_, _, rfl, harguments, rfl⟩

theorem implementations_blocks (n : Ident) :
    implementations ((Template.blocks n).map .impl) = generatedImplementations n := by
  have hinherent : (Item.impl (Template.inherentImpl n)).implementation? = none := rfl
  have hinteger : Template.i64.spelling = "i64" := rfl
  simp [implementations, generatedImplementations, Template.blocks, List.filterMap_map, Function.comp_def, hinherent,
    hinteger, implementation?_traitImpl, implementation?_conversionImpl, TraitArgument.named]

/-- No implementation of a unit is left out of the comparison. -/
theorem isSome_implementation?_of_mem_blocks {n : Ident} {b : ImplBlock} (hb : b ∈ Template.blocks n)
    (htrait : b.ofTrait.isSome) : (Item.impl b).implementation?.isSome := by
  simp only [Template.blocks, List.mem_append, List.mem_map, List.mem_cons, List.not_mem_nil, or_false] at hb
  rcases hb with (rfl | ⟨t, _, rfl⟩) | rfl | rfl
  · cases htrait
  · rw [implementation?_traitImpl]
    rfl
  · rw [implementation?_conversionImpl]
    rfl
  · rw [implementation?_conversionImpl]
    rfl

theorem membersOf_blocks (n : Ident) :
    membersOf n.spelling ((Template.blocks n).map .impl) = GeneratedMember.all.map GeneratedMember.name := by
  have htraits : ∀ (t : GeneratedTrait), Item.membersOf n.spelling (.impl (Template.traitImpl n t)) = [] :=
    fun _ => rfl
  have hinherent : Item.membersOf n.spelling (.impl (Template.inherentImpl n)) =
      GeneratedMember.all.map GeneratedMember.name := by
    have htype : (Template.inherentImpl n).selfType.localName? = some n.spelling := rfl
    rw [Item.membersOf, htype]
    simp [Template.inherentImpl, ImplMember.name?, Template.plainIdent, Word.spelling, Ident.spelling,
      GeneratedMember.all, GeneratedMember.name]
  have hconversion : ∀ source target,
      Item.membersOf n.spelling (.impl (Template.conversionImpl source target)) = [] := fun _ _ => rfl
  simp [membersOf, Template.blocks, List.flatMap_map, htraits, hinherent, hconversion]

theorem GeneratedTrait.name_inj {t t' : GeneratedTrait} (h : t.name = t'.name) : t = t' := by
  cases t <;> cases t' <;> first | rfl | (revert h; decide)

theorem mem_generatedImplementations {n : Ident} {i : Implementation} :
    i ∈ generatedImplementations n ↔
      (∃ t, i = ⟨GeneratedTrait.name t, [], n.spelling⟩) ∨ i = ⟨"From", [.integer], n.spelling⟩ ∨
        i = ⟨"From", [.named n.spelling], "i64"⟩ := by
  have hall : ∀ t : GeneratedTrait, t ∈ Template.traitOrder := by intro t; cases t <;> decide
  simp only [generatedImplementations, List.mem_append, List.mem_map, List.mem_cons, List.not_mem_nil, or_false]
  refine or_congr ?_ Iff.rfl
  constructor
  · rintro ⟨t, _, rfl⟩
    exact ⟨t, rfl⟩
  · rintro ⟨t, rfl⟩
    exact ⟨t, hall t, rfl⟩

theorem traitImplementations_nodup (n : Ident) :
    (Template.traitOrder.map fun t => (⟨t.name, [], n.spelling⟩ : Implementation)).Nodup := by
  rw [List.Nodup, List.pairwise_map]
  have horder : Template.traitOrder.Nodup := by decide
  refine horder.imp ?_
  intro t t' hne h
  exact hne (GeneratedTrait.name_inj (Implementation.mk.inj h).1)

theorem conversions_ne_iff (n : Ident) :
    (⟨"From", [.integer], n.spelling⟩ : Implementation) ≠ ⟨"From", [.named n.spelling], "i64"⟩ ↔
      n.spelling ≠ "i64" := by
  by_cases h : n.spelling = "i64" <;> simp [TraitArgument.named, h]

/-- The unit implements no trait twice, except for a type with the name of the integer: its two conversions
are one. -/
theorem generatedImplementations_nodup (n : Ident) :
    (generatedImplementations n).Nodup ↔ n.spelling ≠ "i64" := by
  -- No generated trait is the conversion, so the parts can only clash within themselves.
  have hapart : ∀ i ∈ Template.traitOrder.map (fun t => (⟨t.name, [], n.spelling⟩ : Implementation)),
      ∀ arguments typeName, i ≠ ⟨"From", arguments, typeName⟩ := by
    intro i hi arguments typeName h
    obtain ⟨t, _, rfl⟩ := List.mem_map.mp hi
    exact t.name_ne_conversionName (Implementation.mk.inj h).1
  rw [generatedImplementations, List.nodup_append, ← conversions_ne_iff n]
  constructor
  · intro hsome
    obtain ⟨_, htwo, _⟩ := hsome
    rw [List.nodup_cons, List.mem_singleton] at htwo
    exact htwo.1
  · intro hne
    refine ⟨traitImplementations_nodup n, ?_, ?_⟩
    · rw [List.nodup_cons, List.mem_singleton]
      exact ⟨hne, List.pairwise_singleton _ _⟩
    · intro i hi j hj
      rcases List.mem_cons.mp hj with rfl | hj
      · exact hapart i hi _ _
      · rw [List.mem_singleton.mp hj]
        exact hapart i hi _ _

/-! ## What the scan keeps apart -/

theorem Ty.traitArgument?_eq_integer {t : Ty} : t.traitArgument? = some .integer ↔ t.WrittenInteger := by
  rw [traitArgument?, ← Ty.isInteger_iff]
  by_cases h : t.isInteger = true <;> simp [h]

theorem PathArguments.traitArguments?_eq_integer {a : PathArguments} :
    a.traitArguments? = some [.integer] ↔ ∃ t, a = .angle [.type t] ∧ t.WrittenInteger := by
  cases a with
  | none => simp [traitArguments?]
  | parenthesized => simp [traitArguments?]
  | angle arguments =>
    match arguments with
    | [] => simp [traitArguments?]
    | [.type t] =>
      simp [traitArguments?, GenericArgument.traitArgument?, Option.bind_eq_some_iff, Ty.traitArgument?_eq_integer]
    | [.other] => simp [traitArguments?, GenericArgument.traitArgument?]
    | _ :: _ :: _ => simp [traitArguments?, Option.bind_eq_some_iff]

theorem Path.endsInGenerated_of_implementation? {p : Path} {T : String} {t : GeneratedTrait}
    {arguments : List TraitArgument} (h : p.implementation? T = some ⟨t.name, arguments, T⟩) :
    p.EndsInGenerated := by
  obtain ⟨s, _, hs, _, himpl⟩ := Path.implementation?_eq_some.mp h
  exact ⟨s, t, hs, (Implementation.mk.inj himpl).1.symm⟩

theorem Path.convertsInteger_of_implementation? {p : Path} {T : String}
    (h : p.implementation? T = some ⟨"From", [.integer], T⟩) : p.ConvertsInteger := by
  obtain ⟨s, _, hs, harguments, himpl⟩ := Path.implementation?_eq_some.mp h
  obtain ⟨hname, rfl, _⟩ := Implementation.mk.inj himpl
  obtain ⟨t, ht, hinteger⟩ := PathArguments.traitArguments?_eq_integer.mp harguments
  exact ⟨s, t, hs, hname.symm, ht, hinteger⟩

namespace Extensible

variable {items : List Item} {d : StructDecl}

theorem not_mem_implementations (h : Extensible items d) (t : GeneratedTrait)
    (arguments : List TraitArgument) : ⟨t.name, arguments, d.name.spelling⟩ ∉ implementations items := by
  intro hmem
  obtain ⟨b, p, hb, hp, htype, himpl⟩ := mem_implementations.mp hmem
  exact h.impls b hb htype (Or.inl ⟨p, hp, Or.inl (Path.endsInGenerated_of_implementation? himpl)⟩)

theorem conversion_not_mem_implementations (h : Extensible items d) :
    ⟨"From", [.integer], d.name.spelling⟩ ∉ implementations items := by
  intro hmem
  obtain ⟨b, p, hb, hp, htype, himpl⟩ := mem_implementations.mp hmem
  exact h.impls b hb htype (Or.inl ⟨p, hp, Or.inr (Path.convertsInteger_of_implementation? himpl)⟩)

theorem not_mem_derived (h : Extensible items d) (t : GeneratedTrait)
    (arguments : List TraitArgument) : ⟨t.name, arguments, d.name.spelling⟩ ∉ d.derived := by
  intro hmem
  obtain ⟨a, ha, p, hp, himpl⟩ := StructDecl.mem_derived.mp hmem
  apply h.derives a ha
  rw [← Attribute.derivesGenerated_iff, List.any_eq_true]
  exact ⟨p, hp, Path.namesGeneratedTrait_iff.mpr (Path.endsInGenerated_of_implementation? himpl)⟩

theorem not_mem_membersOf (h : Extensible items d) (g : GeneratedMember) :
    g.name ∉ membersOf d.name.spelling items := by
  intro hmem
  obtain ⟨b, hb, hnone, htype, m, hm, hname⟩ := mem_membersOf.mp hmem
  refine h.impls b hb htype (Or.inr ⟨hnone, m, hm, g, ?_⟩)
  cases m with
  | const w => exact Or.inl ⟨w, rfl, Option.some.inj hname⟩
  | function i => exact Or.inr ⟨i, rfl, Option.some.inj hname⟩
  | other => cases hname

end Extensible

/-! ## The unit beside its module -/

/-- Beside a struct that the scan accepts, a unit repeats nothing but one of the two conversions. -/
theorem Extensible.generatedImplementations_apart_iff {items : List Item} {d : StructDecl} (h : Extensible items d)
    {n : Ident} (hn : n.spelling = d.name.spelling) :
    (∀ i ∈ generatedImplementations n, i ∉ implementations items ++ d.derived) ↔
      ⟨"From", [.named d.name.spelling], "i64"⟩ ∉ implementations items ∧
        ⟨"From", [.integer], d.name.spelling⟩ ∉ d.derived := by
  simp only [mem_generatedImplementations, hn, List.mem_append, not_or]
  constructor
  · intro hapart
    exact ⟨(hapart _ (Or.inr (Or.inr rfl))).1, (hapart _ (Or.inr (Or.inl rfl))).2⟩
  · rintro ⟨hback, hderived⟩ i (⟨t, rfl⟩ | rfl | rfl)
    · exact ⟨h.not_mem_implementations t [], h.not_mem_derived t []⟩
    · exact ⟨h.conversion_not_mem_implementations, hderived⟩
    · refine ⟨hback, fun hmem => ?_⟩
      -- What a struct derives is for itself, so its name is that of the integer and the two conversions are one.
      have hname : "i64" = d.name.spelling := StructDecl.typeName_of_mem_derived hmem
      rw [← hname] at hmem hderived
      exact hderived hmem

theorem generatedMembers_nodup : (GeneratedMember.all.map GeneratedMember.name).Nodup := by decide

/-- The tokens that the unit's code is written from are those of a source file with these items. -/
def GeneratedUnit.HasItems (u : GeneratedUnit) (items : List Item) : Prop :=
  ∃ n header tokens attributeCount, n.spelling = u.typeName ∧ u.content = header ++ code n ∧
    Template.tokens? n = some tokens ∧ SourceTree.ofTokens? tokens = some ⟨attributeCount, items⟩

/-- Every unit that is emitted has the items of the template for its type. -/
theorem hasItems_of_mem_generate {policy : MarkerPolicy} {candidates : List Candidate}
    {units : List GeneratedUnit} (h : (generate policy candidates).result = .ok units)
    {u : GeneratedUnit} (hu : u ∈ units) :
    ∃ n, n.spelling = u.typeName ∧ u.HasItems ((Template.blocks n).map .impl) := by
  obtain ⟨c, _, t, _, hrender⟩ := mem_generate h hu
  obtain ⟨n, hn, rfl⟩ := GeneratedUnit.render_eq_ok.mp hrender
  have hspelling : n.spelling = t.typeName := Ident.spelling_of_ofSpelling? hn
  obtain ⟨tokens, htokens, htree⟩ := Option.bind_eq_some_iff.mp (Template.tokens?_reads n)
  exact ⟨n, hspelling, n, GeneratedUnit.header t, tokens, 0, hspelling, rfl, htokens, htree⟩

/-- **A unit clashes with its module in the conversions alone.** Take a struct that the scan accepts, and the unit that
is emitted for a type with its name. All that the unit implements is compared. It implements no trait twice, unless the
type has the name of the integer. It implements none that its module implements or the struct derives, unless the
module converts the struct into the integer or the struct derives a conversion from the integer. It defines no
member twice, and none that the module defines. -/
theorem unit_clashes_iff {policy : MarkerPolicy} {candidates : List Candidate} {units : List GeneratedUnit}
    {u : GeneratedUnit} {items : List Item} {d : StructDecl}
    (hunits : (generate policy candidates).result = .ok units) (hu : u ∈ units)
    (hd : Extensible items d) (hname : u.typeName = d.name.spelling) :
    ∃ own, u.HasItems own ∧
      (∀ b, Item.impl b ∈ own → b.ofTrait.isSome → (Item.impl b).implementation?.isSome) ∧
      ((implementations own).Nodup ↔ d.name.spelling ≠ "i64") ∧
      ((∀ i ∈ implementations own, i ∉ implementations items ++ d.derived) ↔
        ⟨"From", [.named d.name.spelling], "i64"⟩ ∉ implementations items ∧
          ⟨"From", [.integer], d.name.spelling⟩ ∉ d.derived) ∧
      (membersOf d.name.spelling own).Nodup ∧
      ∀ name ∈ membersOf d.name.spelling own, name ∉ membersOf d.name.spelling items := by
  obtain ⟨n, hspelling, hitems⟩ := hasItems_of_mem_generate hunits hu
  rw [hname] at hspelling
  have hmembers : membersOf d.name.spelling ((Template.blocks n).map .impl) =
      GeneratedMember.all.map GeneratedMember.name := hspelling ▸ membersOf_blocks n
  refine ⟨_, hitems, ?_, ?_, ?_, ?_, ?_⟩
  · intro b hb
    obtain ⟨_, hblock, heq⟩ := List.mem_map.mp hb
    cases heq
    exact isSome_implementation?_of_mem_blocks hblock
  · rw [implementations_blocks, generatedImplementations_nodup, hspelling]
  · rw [implementations_blocks]
    exact hd.generatedImplementations_apart_iff hspelling
  · rw [hmembers]
    exact generatedMembers_nodup
  · rw [hmembers]
    intro name hmem
    obtain ⟨g, _, rfl⟩ := List.mem_map.mp hmem
    exact hd.not_mem_membersOf g

/-- `#[derive(Serialize)] #[identifier] struct OrderId(i64);` -/
def orderId : StructDecl where
  attributes := [
    ⟨⟨false, [.ident (Template.plainIdent "derive")]⟩, .list [.word (.ident (Template.plainIdent "Serialize"))]⟩,
    ⟨⟨false, [.ident (Template.plainIdent "identifier")]⟩, .none⟩]
  name := Template.plainIdent "OrderId"
  isGeneric := false
  fields := .tuple [⟨.inherited, Template.typeNamed Template.i64⟩]

/-- `impl From<..> for` a name, where the type that is converted is anything. -/
def conversionImplOf (source : Ty) (target : Ident) : ImplBlock where
  ofTrait := some (.mk false [.mk (.ident (Template.plainIdent "From")) (.angle [.type source])])
  selfType := Template.typeNamed target
  members := [.function (Template.plainIdent "from")]

/-- The struct beside implementations of its user: `impl From<&str> for Name`, `impl From<&[u8]> for Name`,
`impl From<u32> for OrderId`, `impl From<OrderId> for String`, and a function `raw` of the struct. The scan reads the
first two alike. -/
def orderModule : List Item :=
  [.struct orderId, .impl (conversionImplOf .other (Template.plainIdent "Name")),
    .impl (conversionImplOf .other (Template.plainIdent "Name")),
    .impl (conversionImplOf (Template.typeNamed (Template.plainIdent "u32")) orderId.name),
    .impl (conversionImplOf (Template.typeNamed orderId.name) (Template.plainIdent "String")),
    .impl ⟨none, Template.typeNamed orderId.name, [.function (Template.plainIdent "raw")]⟩]

/-- What the user implements for the struct and with it stays apart from its unit. -/
theorem unit_clashes_iff_orderModule :
    ∃ candidates units u own,
      (scanItems .root ⟨[]⟩ orderModule).result = .ok candidates ∧
      (generate .permissive candidates).result = .ok units ∧ u ∈ units ∧ u.HasItems own ∧
      implementations orderModule =
        [⟨"From", [.here "u32"], "OrderId"⟩, ⟨"From", [.here "OrderId"], "String"⟩] ∧
      orderId.derived = [⟨"Serialize", [], "OrderId"⟩] ∧ membersOf "OrderId" orderModule = ["raw"] ∧
      (implementations own).Nodup ∧ (∀ i ∈ implementations own, i ∉ implementations orderModule ++ orderId.derived) ∧
      (membersOf "OrderId" own).Nodup ∧ ∀ name ∈ membersOf "OrderId" own, name ∉ membersOf "OrderId" orderModule := by
  have hext : Extensible orderModule orderId :=
    StructDecl.obstacle?_eq_none_iff.mp (by decide +kernel)
  have hemits : (generate .permissive
      ((findings .root ⟨[]⟩ orderModule).filterMap Finding.candidate?)).result.toOption.any
        (fun units => units.any fun u => u.typeName == "OrderId") = true := by decide +kernel
  have hmodule : implementations orderModule =
      [⟨"From", [.here "u32"], "OrderId"⟩, ⟨"From", [.here "OrderId"], "String"⟩] := by decide +kernel
  have hderived : orderId.derived = [⟨"Serialize", [], "OrderId"⟩] := by decide +kernel
  have hmembers : membersOf "OrderId" orderModule = ["raw"] := by decide +kernel
  obtain ⟨units, hunits, hnames⟩ := (Option.any_eq_true _ _).mp hemits
  obtain ⟨u, hu, hname⟩ := List.any_eq_true.mp hnames
  have hok := Except.eq_ok_of_toOption hunits
  obtain ⟨own, hown, _, htwice, hbeside, hdefined, hfresh⟩ := unit_clashes_iff hok hu hext (beq_iff_eq.mp hname)
  refine ⟨_, units, u, own, rfl, hok, hu, hown, hmodule, hderived, hmembers, htwice.mpr (by decide), hbeside.mpr ?_,
    hdefined, hfresh⟩
  rw [hmodule, hderived]
  exact ⟨by decide, by decide⟩

/-- The text of a module that converts its struct into the integer. -/
def orderWithConversion : SourceText where
  path := DiskPath.ofString "src/lib.rs"
  modulePath := .root
  text := "#[identifier] pub struct OrderId(i64);\nimpl From<OrderId> for i64 \x7b fn from(value: OrderId) -> Self \x7b value.0 \x7d \x7d"

/-- The scan accepts a struct beside its conversion into the integer, and the unit implements that conversion
once more. -/
theorem conversion_back_clashes :
    ∃ tree candidates units u own,
      SourceTree.ofText? orderWithConversion.text = some tree ∧
      (scanSource orderWithConversion).result = .ok candidates ∧
      (generate .permissive candidates).result = .ok units ∧ u ∈ units ∧ u.HasItems own ∧
      ⟨"From", [.here "OrderId"], "i64"⟩ ∈ implementations tree.items ∧
      ⟨"From", [.here "OrderId"], "i64"⟩ ∈ implementations own := by
  have hconverts : (SourceTree.ofText? orderWithConversion.text).any (fun tree =>
      decide (⟨"From", [.here "OrderId"], "i64"⟩ ∈ implementations tree.items)) = true := by decide +kernel
  have hemits : ((scanSource orderWithConversion).result.toOption.bind fun candidates =>
      (generate .permissive candidates).result.toOption).any
        (fun units => units.any fun u => u.typeName == "OrderId") = true := by decide +kernel
  obtain ⟨tree, htree, hback⟩ := (Option.any_eq_true _ _).mp hconverts
  obtain ⟨units, hrun, hnames⟩ := (Option.any_eq_true _ _).mp hemits
  obtain ⟨candidates, hcandidates, hunits⟩ := Option.bind_eq_some_iff.mp hrun
  obtain ⟨u, hu, hname⟩ := List.any_eq_true.mp hnames
  have hok := Except.eq_ok_of_toOption hunits
  obtain ⟨n, hn, hitems⟩ := hasItems_of_mem_generate hok hu
  rw [beq_iff_eq.mp hname] at hn
  refine ⟨tree, candidates, units, u, _, htree, Except.eq_ok_of_toOption hcandidates, hok, hu, hitems,
    of_decide_eq_true hback, ?_⟩
  rw [implementations_blocks, mem_generatedImplementations, hn]
  exact Or.inr (Or.inr rfl)

end TypedId
