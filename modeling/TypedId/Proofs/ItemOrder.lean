import Mathlib.Data.List.Flatten
import TypedId.Proofs.MarkerDecision

/-!
The order of the items of a module. What is supplied for a type counts wherever it is written, but of several imports
of a name the last one counts; so the scope of a module does not depend on the order if its imports agree on
every name (`Scope.Alike.of_perm`). Each item is then said the same of, in another place: in another order of the
items the scan finds the same candidates in another order, and those of items that keep their order keep
theirs (`item_order_irrelevant`).
-/
namespace TypedId

/-! ## Imports that agree -/

/-- No two leaves of the `use` items bind one name to different paths. -/
def ImportsAgree (items : List Item) : Prop :=
  ∀ l ∈ leavesOf items, ∀ l' ∈ leavesOf items, l.name = l'.name → l.segments = l'.segments

attribute [ext] Leaf

instance (items : List Item) : Decidable (ImportsAgree items) := inferInstanceAs (Decidable (∀ l ∈ _, _))

theorem leavesOf_perm {items items' : List Item} (h : items'.Perm items) : (leavesOf items').Perm (leavesOf items) :=
  h.flatMap_right _

theorem lastLeaf?_eq_none_iff {items : List Item} {name : String} :
    lastLeaf? items name = none ↔ ∀ l ∈ leavesOf items, l.name ≠ name := by
  simp [lastLeaf?]

theorem of_lastLeaf? {items : List Item} {name : String} {l : Leaf} (h : lastLeaf? items name = some l) :
    l ∈ leavesOf items ∧ l.name = name := by
  simpa using List.mem_filter.mp (List.mem_of_getLast? h)

/-- Where imports agree it does not matter which of them is the last. -/
theorem lastLeaf?_eq_of_perm {items items' : List Item} (hperm : items'.Perm items) (hagree : ImportsAgree items)
    (name : String) : lastLeaf? items' name = lastLeaf? items name := by
  have hmem : ∀ l, l ∈ leavesOf items' ↔ l ∈ leavesOf items := fun l => (leavesOf_perm hperm).mem_iff
  cases h : lastLeaf? items name with
  | none =>
    rw [lastLeaf?_eq_none_iff] at h ⊢
    exact fun l hl => h l ((hmem l).mp hl)
  | some l =>
    obtain ⟨hl, hname⟩ := of_lastLeaf? h
    cases h' : lastLeaf? items' name with
    | none => exact absurd hname (lastLeaf?_eq_none_iff.mp h' l ((hmem l).mpr hl))
    | some l' =>
      obtain ⟨hl', hname'⟩ := of_lastLeaf? h'
      have hnames := hname'.trans hname.symm
      have hsegments := hagree l' ((hmem l').mp hl') l hl hnames
      exact congrArg some (Leaf.ext hnames hsegments)

/-! ## Scopes that answer alike -/

namespace Scope

/-- The scopes answer every question of the scan in the same way. -/
structure Alike (s s' : Scope) : Prop where
  imported : ∀ name, s.import? name = s'.import? name
  supplies : ∀ typeName, s.supplies typeName = s'.supplies typeName

/-- In another order the items make a scope that answers alike. -/
theorem Alike.of_perm {items items' : List Item} (hperm : items'.Perm items) (hagree : ImportsAgree items) :
    Alike (ofItems items') (ofItems items) where
  imported name := by rw [import?_ofItems, import?_ofItems, lastLeaf?_eq_of_perm hperm hagree]
  supplies typeName := by
    rw [Bool.eq_iff_iff, supplies_ofItems, supplies_ofItems]
    constructor
    · rintro ⟨b, hb, hnames, hsupplies⟩
      exact ⟨b, hperm.mem_iff.mp hb, hnames, hsupplies⟩
    · rintro ⟨b, hb, hnames, hsupplies⟩
      exact ⟨b, hperm.mem_iff.mpr hb, hnames, hsupplies⟩

/-- Two imports that bind one name to different paths do not answer alike in another order. -/
example : ¬ImportsAgree importsIdTwice ∧
    (ofItems importsIdTwice).import? "id" ≠ (ofItems importsIdTwice.reverse).import? "id" := by
  decide +kernel

namespace Alike

variable {s s' : Scope}

theorem resolve_eq (h : Alike s s') (path : PlainPath) : s.resolve path = s'.resolve path := by
  unfold resolve
  cases path.names.map Word.spelling with
  | nil => rfl
  | cons first rest => simp only [h.imported]

theorem obstacle?_eq (h : Alike s s') (d : StructDecl) : d.obstacle? s = d.obstacle? s' := by
  unfold StructDecl.obstacle?
  rw [h.supplies]

theorem finding_eq (h : Alike s s') (p : ModulePath) (source : DiskPath) (d : StructDecl) :
    d.finding s p source = d.finding s' p source := by
  simp only [StructDecl.finding, h.obstacle?_eq, h.resolve_eq]

/-- What the scan says of an item is told by the answers of the scope; a module has a scope of its own. -/
theorem findings_eq (h : Alike s s') (p : ModulePath) (source : DiskPath) (item : Item) :
    item.findings s p source = item.findings s' p source := by
  cases item with
  | struct d => rw [Item.findings, Item.findings, h.finding_eq]
  | module name content => cases content <;> simp only [Item.findings]
  | _ => simp only [Item.findings]

end Alike

end Scope

/-! ## The scan of items in another order -/

theorem findingsIn_eq_flatMap (scope : Scope) (p : ModulePath) (source : DiskPath) (items : List Item) :
    findingsIn scope p source items = items.flatMap (Item.findings scope p source) := by
  induction items with
  | nil => rfl
  | cons item rest ih => rw [findingsIn, List.flatMap_cons, ih]

/-- In another order the scan says of each item what it said of it before. -/
theorem findings_of_perm {items items' : List Item} (hperm : items'.Perm items) (hagree : ImportsAgree items)
    (p : ModulePath) (source : DiskPath) :
    findings p source items' = findingsIn (Scope.ofItems items) p source items' := by
  have hitem : Item.findings (Scope.ofItems items') p source = Item.findings (Scope.ofItems items) p source :=
    funext fun item => (Scope.Alike.of_perm hperm hagree).findings_eq p source item
  rw [findings, findingsIn_eq_flatMap, findingsIn_eq_flatMap, hitem]

theorem findingsIn_perm {items items' : List Item} (hperm : items'.Perm items) (scope : Scope) (p : ModulePath)
    (source : DiskPath) : (findingsIn scope p source items').Perm (findingsIn scope p source items) := by
  rw [findingsIn_eq_flatMap, findingsIn_eq_flatMap]
  exact hperm.flatMap_right _

theorem findingsIn_sublist {kept items : List Item} (h : kept.Sublist items) (scope : Scope) (p : ModulePath)
    (source : DiskPath) : (findingsIn scope p source kept).Sublist (findingsIn scope p source items) := by
  rw [findingsIn_eq_flatMap, findingsIn_eq_flatMap]
  exact h.flatMap _

/-- The candidates among some items of a module, in the scope of all its items. -/
def candidatesAmong (items : List Item) (p : ModulePath) (source : DiskPath) (kept : List Item) : List Candidate :=
  (findingsIn (Scope.ofItems items) p source kept).filterMap Finding.candidate?

/-- **The order of the items in a module is irrelevant where its imports agree.** In another order the scan says the
same of every struct of the module, and finds the same candidates and tells the same events in another order.
Whatever items keep their order among themselves, their candidates come in the same order both times. -/
theorem item_order_irrelevant (p : ModulePath) (source : DiskPath) {items items' : List Item}
    (hperm : items'.Perm items) (hagree : ImportsAgree items) :
    ∃ candidates candidates', (scanItems p source items).result = .ok candidates ∧
      (scanItems p source items').result = .ok candidates' ∧ candidates'.Perm candidates ∧
      (scanItems p source items').log.Perm (scanItems p source items).log ∧
      (∀ d : StructDecl, d.finding (Scope.ofItems items') p source = d.finding (Scope.ofItems items) p source) ∧
      ∀ kept : List Item, kept.Sublist items → kept.Sublist items' →
        (candidatesAmong items p source kept).Sublist candidates ∧
          (candidatesAmong items p source kept).Sublist candidates' := by
  have hfound := findings_of_perm hperm hagree p source
  have hsame := findingsIn_perm hperm (Scope.ofItems items) p source
  refine ⟨candidatesAmong items p source items, candidatesAmong items p source items', rfl, ?_, ?_, ?_, ?_, ?_⟩
  · rw [scanItems, hfound]
    rfl
  · exact hsame.filterMap _
  · simp only [scanItems, hfound]
    exact hsame.filterMap _
  · exact (Scope.Alike.of_perm hperm hagree).finding_eq p source
  · intro kept hkept hkept'
    exact ⟨(findingsIn_sublist hkept _ p source).filterMap _, (findingsIn_sublist hkept' _ p source).filterMap _⟩

/-- `struct B(i64);` -/
def plainStruct : StructDecl := { structWithId with attributes := [], name := ⟨false, "B", .refl true⟩ }

/-- `#[id] struct A(i64); struct B(i64);` -/
def twoStructs : List Item := [.struct structWithId, .struct plainStruct]

/-- What may stand before the structs or after them: `use idgen_macros::identifier as id;` and
`impl Clone for B {}`. -/
def besideStructs : List Item := [
  .use (.path (plainWord "idgen_macros") (.rename (plainWord "identifier") (plainWord "id"))),
  .impl ⟨some (.mk false [.mk (plainWord "Clone") .none]), .path false (.mk false [.mk (plainWord "B") .none]), []⟩]

/-- An import and an `impl` block count for the structs before them as for those after them. -/
theorem item_order_irrelevant_besideStructs :
    ImportsAgree (twoStructs ++ besideStructs) ∧
    ∃ candidates candidates',
      (scanItems .root ⟨[]⟩ (twoStructs ++ besideStructs)).result = .ok candidates ∧
      (scanItems .root ⟨[]⟩ (besideStructs ++ twoStructs)).result = .ok candidates' ∧
      candidates'.Perm candidates ∧
      candidates.map (fun c => (c.name, c.attributes.map AttributeRef.resolved)) =
        [("A", ["idgen_macros::identifier"])] := by
  have hagree : ImportsAgree (twoStructs ++ besideStructs) := by decide +kernel
  have hperm : (besideStructs ++ twoStructs).Perm (twoStructs ++ besideStructs) := List.perm_append_comm
  obtain ⟨candidates, candidates', hscan, hscan', hsame, _⟩ := item_order_irrelevant .root ⟨[]⟩ hperm hagree
  refine ⟨hagree, candidates, candidates', hscan, hscan', hsame, ?_⟩
  cases hscan
  decide +kernel

end TypedId
