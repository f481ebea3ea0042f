import TypedId.Proofs.Names
import TypedId.Scan

/-!
Which structs are extensible, said without the scan: by the shape of the declaration, by what it derives,
and by the `impl` blocks that stand beside it in its module, in any order. `obstacle?_eq_none_iff` says that
the scan finds no obstacle exactly in these.
-/
namespace TypedId

/-! ## How types and visibilities are written -/

/-- The names that stand for the integer type. -/
def integerNames : List (List String) :=
  [["i64"], ["core", "primitive", "i64"], ["std", "primitive", "i64"]]

/-- The type is written as the integer, perhaps after `::`, and has no arguments. -/
def Ty.WrittenInteger (t : Ty) : Prop :=
  ∃ leading segments, t = .path false (.mk leading segments) ∧
    (∀ s ∈ segments, s.arguments = .none) ∧ segments.map (fun s => s.name.spelling) ∈ integerNames

/-- The type is written `T` or `self::T`, with no arguments after the name. -/
inductive Ty.NamesHere (T : String) : Ty → Prop where
  | alone (s : Segment) : s.name.spelling = T → s.arguments = .none →
      NamesHere T (.path false (.mk false [s]))
  | afterSelf (first s : Segment) : first.name.spelling = "self" → s.name.spelling = T →
      s.arguments = .none → NamesHere T (.path false (.mk false [first, s]))

/-- No visibility is written, or one that reaches no further than the module. -/
def Visibility.Private (v : Visibility) : Prop :=
  v = .inherited ∨
    ∃ scope, v = .restricted scope ∧ scope.leading = false ∧ scope.names.map Word.spelling = ["self"]

/-! ## What a module already supplies -/

/-- The path ends in a generated trait. -/
def Path.EndsInGenerated (p : Path) : Prop :=
  ∃ s t, p.segments.getLast? = some s ∧ s.name.spelling = GeneratedTrait.name t

/-- The path ends in the conversion trait with the integer as its only argument. -/
def Path.ConvertsInteger (p : Path) : Prop :=
  ∃ s t, p.segments.getLast? = some s ∧ s.name.spelling = "From" ∧ s.arguments = .angle [.type t] ∧
    t.WrittenInteger

/-- The attribute is a `derive` whose content reads as a list of paths, one of which ends in a
generated trait. -/
def Attribute.DerivesGenerated (a : Attribute) : Prop :=
  a.path.leading = false ∧ a.path.names.map Word.spelling = ["derive"] ∧
    ∃ content paths, a.argument = .list content ∧ Path.listOfTokens? content = some paths ∧
      ∃ p ∈ paths, p.EndsInGenerated

/-- The member is a constant or a function with the name of a generated member. -/
def ImplMember.IsGenerated (m : ImplMember) : Prop :=
  ∃ g : GeneratedMember, (∃ w, m = .const w ∧ w.spelling = g.name) ∨
    ∃ i, m = .function i ∧ i.spelling = g.name

/-- The block supplies something of a unit: a generated trait, the conversion from the integer, or, when it
is no block of a trait, a generated member. -/
def ImplBlock.Supplies (b : ImplBlock) : Prop :=
  (∃ p, b.ofTrait = some p ∧ (p.EndsInGenerated ∨ p.ConvertsInteger)) ∨
    (b.ofTrait = none ∧ ∃ m ∈ b.members, m.IsGenerated)

/-- A struct that can receive the generated members, where `siblings` holds the items of its module. -/
structure Extensible (siblings : List Item) (d : StructDecl) : Prop where
  storage : ∃ field, d.fields = .tuple [field] ∧ field.visibility.Private ∧ field.type.WrittenInteger
  derives : ∀ a ∈ d.attributes, ¬a.DerivesGenerated
  impls : ∀ b, Item.impl b ∈ siblings → b.selfType.NamesHere d.name.spelling → ¬b.Supplies

/-! ## The tests of the scan decide these -/

theorem PathArguments.isNone_iff {a : PathArguments} : a.isNone = true ↔ a = .none := by
  cases a <;> simp [PathArguments.isNone]

theorem joinNames_mem_integerPaths {names : List String} (h : ∀ s ∈ names, IsName s) :
    joinNames names ∈ integerPaths ↔ names ∈ integerNames := by
  -- The scan compares joined texts; names without colons can be read off these.
  have hpaths : integerPaths = integerNames.map joinNames := by decide
  have hnames : ∀ ns ∈ integerNames, ∀ s ∈ ns, IsName s := by decide
  rw [hpaths, List.mem_map]
  constructor
  · intro hsome
    obtain ⟨ns, hns, he⟩ := hsome
    rwa [← joinNames_inj (hnames ns hns) h he]
  · intro hm
    exact ⟨names, hm, rfl⟩

theorem Ty.isInteger_iff {t : Ty} : t.isInteger = true ↔ t.WrittenInteger := by
  constructor
  · intro h
    match t, h with
    | .path false (.mk leading segments), h =>
      simp only [Ty.isInteger, Path.isPlain, Path.names, Path.segments, Bool.and_eq_true,
        List.all_eq_true, PathArguments.isNone_iff, List.contains_iff_mem] at h
      refine ⟨leading, segments, rfl, h.1, (joinNames_mem_integerPaths ?_).mp h.2⟩
      intro s hs
      obtain ⟨segment, _, rfl⟩ := List.mem_map.mp hs
      exact segment.name.isName
  · intro hsome
    obtain ⟨leading, segments, rfl, hplain, hnames⟩ := hsome
    simp only [Ty.isInteger, Path.isPlain, Path.names, Path.segments, Bool.and_eq_true,
      List.all_eq_true, PathArguments.isNone_iff, List.contains_iff_mem]
    refine ⟨hplain, (joinNames_mem_integerPaths ?_).mpr hnames⟩
    intro s hs
    obtain ⟨segment, _, rfl⟩ := List.mem_map.mp hs
    exact segment.name.isName

theorem Ty.localName?_iff {t : Ty} {name : String} : t.localName? = some name ↔ t.NamesHere name := by
  constructor
  · intro h
    unfold Ty.localName? at h
    split at h
    · next s =>
      split at h
      · next hs =>
        cases h
        exact .alone s rfl (PathArguments.isNone_iff.mp hs)
      · cases h
    · next first s =>
      split at h
      · next hs =>
        simp only [Bool.and_eq_true, decide_eq_true_eq, PathArguments.isNone_iff] at hs
        cases h
        exact .afterSelf first s hs.1 rfl hs.2
      · cases h
    · cases h
  · intro h
    cases h with
    | alone s hname hargs => simp [Ty.localName?, hname, hargs, PathArguments.isNone]
    | afterSelf first s hself hname hargs =>
      simp [Ty.localName?, hself, hname, hargs, PathArguments.isNone]

theorem PlainPath.isName_iff {p : PlainPath} {name : String} :
    p.isName name = true ↔ p.leading = false ∧ p.names.map Word.spelling = [name] := by
  simp [PlainPath.isName]

theorem Visibility.isPrivate_iff {v : Visibility} : v.isPrivate = true ↔ v.Private := by
  cases v with
  | inherited => simp [Visibility.isPrivate, Visibility.Private]
  | restricted scope =>
    simp [Visibility.isPrivate, Visibility.Private, PlainPath.isName_iff]
  | everywhere => simp [Visibility.isPrivate, Visibility.Private]

theorem GeneratedTrait.isName_iff {s : String} :
    GeneratedTrait.isName s = true ↔ ∃ t : GeneratedTrait, s = t.name := by
  have hall : ∀ t : GeneratedTrait, t ∈ GeneratedTrait.all := by intro t; cases t <;> decide
  simp only [GeneratedTrait.isName, List.any_eq_true, beq_iff_eq]
  constructor
  · intro hsome
    obtain ⟨t, _, rfl⟩ := hsome
    exact ⟨t, rfl⟩
  · intro hsome
    obtain ⟨t, rfl⟩ := hsome
    exact ⟨t, hall t, rfl⟩

theorem GeneratedMember.isName_iff {s : String} :
    GeneratedMember.isName s = true ↔ ∃ m : GeneratedMember, s = m.name := by
  have hall : ∀ m : GeneratedMember, m ∈ GeneratedMember.all := by intro m; cases m <;> decide
  simp only [GeneratedMember.isName, List.any_eq_true, beq_iff_eq]
  constructor
  · intro hsome
    obtain ⟨m, _, rfl⟩ := hsome
    exact ⟨m, rfl⟩
  · intro hsome
    obtain ⟨m, rfl⟩ := hsome
    exact ⟨m, hall m, rfl⟩

theorem Path.namesGeneratedTrait_iff {p : Path} :
    p.namesGeneratedTrait = true ↔ p.EndsInGenerated := by
  simp [Path.namesGeneratedTrait, Path.EndsInGenerated, Option.any_eq_true, GeneratedTrait.isName_iff]

theorem Attribute.derivesGenerated_iff {a : Attribute} :
    a.derivedPaths.any Path.namesGeneratedTrait = true ↔ a.DerivesGenerated := by
  unfold Attribute.derivedPaths Attribute.DerivesGenerated
  -- Only a `derive` with a list that reads as paths has any derived paths.
  by_cases hname : a.path.isName "derive" = true
  · have hsplit := PlainPath.isName_iff.mp hname
    rw [if_pos hname]
    cases ha : a.argument with
    | list content =>
      cases hp : Path.listOfTokens? content with
      | none => simp [hp]
      | some paths => simp [hsplit, hp, Path.namesGeneratedTrait_iff]
    | none => simp
    | value => simp
  · rw [if_neg hname]
    have hsplit := mt PlainPath.isName_iff.mpr hname
    simp only [List.any_nil, Bool.false_eq_true, false_iff]
    intro hsome
    obtain ⟨hl, hn, _⟩ := hsome
    exact hsplit ⟨hl, hn⟩

theorem PathArguments.singleType?_iff {a : PathArguments} {t : Ty} :
    a.singleType? = some t ↔ a = .angle [.type t] := by
  unfold PathArguments.singleType?
  split
  · next t' => simp
  · next hne =>
    simp only [reduceCtorEq, false_iff]
    intro h
    exact hne t h

theorem PathArguments.singleType?_any_isInteger {a : PathArguments} :
    a.singleType?.any Ty.isInteger = true ↔ ∃ t, a = .angle [.type t] ∧ t.WrittenInteger := by
  simp only [Option.any_eq_true, singleType?_iff, Ty.isInteger_iff]

theorem GeneratedTrait.name_ne_conversionName (t : GeneratedTrait) : t.name ≠ conversionName := by
  cases t <;> decide

theorem ImplBlock.suppliedTrait_ne_nil {p : Path} :
    suppliedTrait p ≠ [] ↔ p.EndsInGenerated ∨ p.ConvertsInteger := by
  have hends : p.EndsInGenerated ↔
      ∃ s, p.segments.getLast? = some s ∧ GeneratedTrait.isName s.name.spelling = true := by
    simp [Path.EndsInGenerated, GeneratedTrait.isName_iff]
  have hconverts : p.ConvertsInteger ↔ ∃ s, p.segments.getLast? = some s ∧
      s.name.spelling = conversionName ∧ s.arguments.singleType?.any Ty.isInteger = true := by
    simp [Path.ConvertsInteger, PathArguments.singleType?_any_isInteger, conversionName]
  rw [hends, hconverts]
  unfold suppliedTrait
  cases hlast : p.segments.getLast? with
  | none => simp
  | some s =>
    by_cases hname : s.name.spelling = conversionName
    · -- The conversion is no generated trait, so only its argument counts.
      have hnot : GeneratedTrait.isName s.name.spelling = false := by
        rw [← Bool.not_eq_true, GeneratedTrait.isName_iff]
        intro hsome
        obtain ⟨t, ht⟩ := hsome
        exact t.name_ne_conversionName (ht ▸ hname)
      rw [hname] at hnot
      simp [hname, hnot]
    · simp [hname]

theorem ImplBlock.suppliedMember_ne_nil {m : ImplMember} : suppliedMember m ≠ [] ↔ m.IsGenerated := by
  cases m with
  | const w => simp [suppliedMember, ImplMember.IsGenerated, GeneratedMember.isName_iff]
  | function i => simp [suppliedMember, ImplMember.IsGenerated, GeneratedMember.isName_iff]
  | other => simp [suppliedMember, ImplMember.IsGenerated]

theorem ImplBlock.supplied_ne_nil {b : ImplBlock} : b.supplied ≠ [] ↔ b.Supplies := by
  unfold ImplBlock.supplied ImplBlock.Supplies
  cases b.ofTrait with
  | some p => simp [suppliedTrait_ne_nil]
  | none => simp [List.flatMap_eq_nil_iff, ← suppliedMember_ne_nil]

/-- The scope of a module knows of something for a type exactly if an `impl` block for it supplies
something. -/
theorem Scope.supplies_ofItems {items : List Item} {name : String} :
    (Scope.ofItems items).supplies name = true ↔
      ∃ b, Item.impl b ∈ items ∧ b.selfType.NamesHere name ∧ b.Supplies := by
  simp only [Scope.supplies, Scope.ofItems, List.any_eq_true, List.mem_flatMap, Bool.and_eq_true,
    beq_iff_eq, Bool.not_eq_true', List.isEmpty_eq_false_iff]
  constructor
  · intro hsome
    obtain ⟨found, ⟨item, hitem, hfound⟩, rfl, hne⟩ := hsome
    cases item with
    | impl b =>
      simp only [authoredOf, Option.mem_toList, Option.map_eq_some_iff] at hfound
      obtain ⟨name, hname, rfl⟩ := hfound
      exact ⟨b, hitem, Ty.localName?_iff.mp hname, ImplBlock.supplied_ne_nil.mp hne⟩
    | _ => cases hfound
  · intro hsome
    obtain ⟨b, hb, hname, hsup⟩ := hsome
    refine ⟨(name, b.supplied), ⟨.impl b, hb, ?_⟩, rfl, ImplBlock.supplied_ne_nil.mpr hsup⟩
    simp [authoredOf, Ty.localName?_iff.mpr hname]

/-- The scan finds no obstacle in the extensible structs, and in no others. -/
theorem StructDecl.obstacle?_eq_none_iff {items : List Item} {d : StructDecl} :
    d.obstacle? (Scope.ofItems items) = none ↔ Extensible items d := by
  have hderives : d.derivesGenerated = false ↔ ∀ a ∈ d.attributes, ¬a.DerivesGenerated := by
    simp [StructDecl.derivesGenerated, ← Attribute.derivesGenerated_iff]
  have himpls : (Scope.ofItems items).supplies d.name.spelling = false ↔
      ∀ b, Item.impl b ∈ items → b.selfType.NamesHere d.name.spelling → ¬b.Supplies := by
    rw [← Bool.not_eq_true, Scope.supplies_ofItems]
    simp
  unfold StructDecl.obstacle?
  split
  · next field hfields =>
    constructor
    · -- No obstacle: each test on the way has let the struct pass.
      intro h
      split at h
      · cases h
      · next hprivate =>
        split at h
        · cases h
        · next hinteger =>
          split at h
          · cases h
          · next hd =>
            split at h
            · cases h
            · next hs =>
              refine ⟨⟨field, hfields, ?_, ?_⟩, hderives.mp (by simpa using hd), himpls.mp (by simpa using hs)⟩
              · exact Visibility.isPrivate_iff.mp (by simpa using hprivate)
              · exact Ty.isInteger_iff.mp (by simpa using hinteger)
    · intro hsome
      obtain ⟨⟨field', hf, hprivate, hinteger⟩, hd, hs⟩ := hsome
      rw [hfields] at hf
      cases hf
      simp [Visibility.isPrivate_iff.mpr hprivate, Ty.isInteger_iff.mpr hinteger, hderives.mpr hd,
        himpls.mpr hs]
  · next fields hnot hfields =>
    -- Of a tuple with another number of fields than one.
    simp only [reduceCtorEq, false_iff]
    intro hsome
    obtain ⟨⟨field, hf, _⟩, _⟩ := hsome
    rw [hfields] at hf
    cases hf
    exact hnot field rfl
  · next hnot =>
    simp only [reduceCtorEq, false_iff]
    intro hsome
    obtain ⟨⟨field, hf, _⟩, _⟩ := hsome
    exact hnot _ hf

end TypedId
