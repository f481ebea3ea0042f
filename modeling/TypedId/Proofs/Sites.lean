import TypedId.Proofs.Extensible

/-!
The scan is exact. A struct is reached from a list of items through modules with content and through nothing
else (`Reaches`); its address says where it stands, module by module. `scan_exact` says that the
candidates are those of the extensible structs that are reached, one for each address, in the order of the
addresses, each with the names and imports of its own module.
-/
namespace TypedId

/-! ## Structs and where they stand -/

/-- A struct with the module it stands in: the names of the modules around it, the items of the
innermost one, and its declaration. -/
structure Site where
  names : List String
  items : List Item
  declaration : StructDecl

/-- Positions among the items of a module: those of the modules around, outermost first, and its own. -/
abbrev Address := List Nat

namespace Site

/-- The site as the module around its outermost module sees it. -/
def under (name : Word) (s : Site) : Site := { s with names := name.spelling :: s.names }

/-- The struct is extensible beside the items of its own module. -/
def IsExtensible (s : Site) : Prop := Extensible s.items s.declaration

/-- What the scan says of the struct, where `p` is the path of the items that it was reached from. -/
def finding (p : ModulePath) (source : DiskPath) (s : Site) : Finding :=
  s.declaration.finding (Scope.ofItems s.items) ⟨p.segments ++ s.names⟩ source

/-- The candidate that the struct is, where `p` is the path of the items that it was reached from. -/
def candidate (p : ModulePath) (source : DiskPath) (s : Site) : Candidate where
  name := s.declaration.name.spelling
  modulePath := ⟨p.segments ++ s.names⟩
  isExtensible := true
  isGeneric := s.declaration.isGeneric
  attributes := s.declaration.attributes.map fun a => (Scope.ofItems s.items).resolve a.path
  source := source

end Site

/-- The struct at an address is reached from the items. -/
inductive Reaches : List Item → Address → Site → Prop where
  | here {items : List Item} {i : Nat} {d : StructDecl} :
      items[i]? = some (.struct d) → Reaches items [i] ⟨[], items, d⟩
  | inside {items content : List Item} {i : Nat} {name : Word} {address : Address} {site : Site} :
      items[i]? = some (.module name (some content)) → Reaches content address site →
      Reaches items (i :: address) (site.under name)

/-! ## All sites, in order -/

mutual

/-- The structs that an item is or holds, with the rest of their addresses after the item's position. -/
def Item.sites (siblings : List Item) : Item → List (Address × Site)
  | .struct d => [([], ⟨[], siblings, d⟩)]
  | .module name (some items) => (sitesFrom items 0 items).map fun x => (x.1, x.2.under name)
  | _ => []

/-- The structs that some items of a module are or hold, the first of which has the position `i`. -/
def sitesFrom (siblings : List Item) (i : Nat) : List Item → List (Address × Site)
  | [] => []
  | item :: rest => (item.sites siblings).map (fun x => (i :: x.1, x.2)) ++ sitesFrom siblings (i + 1) rest

end

/-- The structs that are reached from the items. -/
def sites (items : List Item) : List (Address × Site) := sitesFrom items 0 items

theorem mem_sitesFrom {siblings rest : List Item} {i : Nat} {x : Address × Site} :
    x ∈ sitesFrom siblings i rest ↔
      ∃ j item address, rest[j]? = some item ∧ (address, x.2) ∈ item.sites siblings ∧
        x.1 = (i + j) :: address := by
  induction rest generalizing i with
  | nil => simp [sitesFrom]
  | cons item rest ih =>
    rw [sitesFrom, List.mem_append, ih, List.mem_map]
    constructor
    · intro hcase
      rcases hcase with ⟨y, hy, rfl⟩ | ⟨j, found, address, hj, hs, ha⟩
      · exact ⟨0, item, y.1, rfl, hy, rfl⟩
      · exact ⟨j + 1, found, address, hj, hs, by rw [ha]; congr 1; omega⟩
    · intro hsome
      obtain ⟨j, found, address, hj, hs, ha⟩ := hsome
      cases j with
      | zero =>
        cases hj
        exact Or.inl ⟨(address, x.2), hs, Prod.ext ha.symm rfl⟩
      | succ j => exact Or.inr ⟨j, found, address, hj, hs, by rw [ha]; congr 1; omega⟩

theorem mem_sites {items : List Item} {address : Address} {site : Site} :
    (address, site) ∈ sites items ↔ Reaches items address site := by
  -- By induction on the address: its first position picks an item, and the rest leads on inside of it.
  induction address generalizing items site with
  | nil =>
    constructor
    · intro h
      obtain ⟨_, _, _, _, _, ha⟩ := mem_sitesFrom.mp h
      cases ha
    · intro h
      cases h
  | cons i address ih =>
    constructor
    · intro h
      obtain ⟨j, item, rest, hj, hs, ha⟩ := mem_sitesFrom.mp h
      rw [Nat.zero_add] at ha
      cases ha
      cases item with
      | struct d =>
        simp only [Item.sites, List.mem_singleton] at hs
        cases hs
        exact .here hj
      | module name content =>
        cases content with
        | none => cases hs
        | some content =>
          simp only [Item.sites, List.mem_map] at hs
          obtain ⟨y, hy, hs⟩ := hs
          cases hs
          exact .inside hj (ih.mp hy)
      | _ => cases hs
    · intro h
      refine mem_sitesFrom.mpr ?_
      cases h with
      | here hi => exact ⟨i, _, [], hi, by simp [Item.sites], by simp⟩
      | @inside _ content _ name _ site hi hsite =>
        refine ⟨i, _, address, hi, ?_, by simp⟩
        simp only [Item.sites, List.mem_map]
        exact ⟨(address, site), ih.mpr hsite, rfl⟩

mutual

theorem Item.sites_sorted (siblings : List Item) : (item : Item) → (item.sites siblings).Pairwise fun x y => x.1 < y.1
  | .struct d => by simp [Item.sites]
  | .module name (some items) => by
    rw [Item.sites, List.pairwise_map]
    exact sitesFrom_sorted items 0 items
  | .module _ none | .use _ | .impl _ | .enum | .union | .other => by simp [Item.sites]

theorem sitesFrom_sorted (siblings : List Item) (i : Nat) :
    (rest : List Item) → (sitesFrom siblings i rest).Pairwise fun x y => x.1 < y.1
  | [] => by simp [sitesFrom]
  | item :: rest => by
    -- All addresses of the first item begin with its position, and those after it with a later one.
    rw [sitesFrom, List.pairwise_append, List.pairwise_map]
    refine ⟨?_, sitesFrom_sorted siblings (i + 1) rest, ?_⟩
    · refine (Item.sites_sorted siblings item).imp ?_
      intro x y h
      exact List.cons_lt_cons_iff.mpr (Or.inr ⟨rfl, h⟩)
    · intro x hx y hy
      obtain ⟨x', _, rfl⟩ := List.mem_map.mp hx
      obtain ⟨j, _, address, _, _, ha⟩ := mem_sitesFrom.mp hy
      show i :: x'.1 < y.1
      rw [ha]
      exact List.cons_lt_cons_iff.mpr (Or.inl (by omega))

end

/-! ## The scan finds the sites -/

theorem Site.finding_under (p : ModulePath) (source : DiskPath) (name : Word) (s : Site) :
    (s.under name).finding p source = s.finding (p.child name.spelling) source := by
  simp [Site.finding, Site.under, ModulePath.child]

mutual

theorem Item.findings_eq (siblings : List Item) (p : ModulePath) (source : DiskPath) : (item : Item) →
    item.findings (Scope.ofItems siblings) p source = (item.sites siblings).map fun x => x.2.finding p source
  | .struct d => by simp [Item.findings, Item.sites, Site.finding]
  | .module name (some items) => by
    rw [Item.findings, findingsIn_eq items 0 (p.child name.spelling) source items, Item.sites, List.map_map]
    apply List.map_congr_left
    intro x _
    exact (x.2.finding_under p source name).symm
  | .module _ none | .use _ | .impl _ | .enum | .union | .other => by simp [Item.findings, Item.sites]

theorem findingsIn_eq (siblings : List Item) (i : Nat) (p : ModulePath) (source : DiskPath) :
    (rest : List Item) →
    findingsIn (Scope.ofItems siblings) p source rest =
      (sitesFrom siblings i rest).map fun x => x.2.finding p source
  | [] => by simp [findingsIn, sitesFrom]
  | item :: rest => by
    rw [findingsIn, sitesFrom, List.map_append, List.map_map, Item.findings_eq siblings p source item,
      findingsIn_eq siblings (i + 1) p source rest]
    rfl

end

theorem findings_eq (p : ModulePath) (source : DiskPath) (items : List Item) :
    findings p source items = (sites items).map fun x => x.2.finding p source :=
  findingsIn_eq items 0 p source items

/-- A struct without an obstacle is a candidate, and any other struct is none. -/
theorem Site.candidate?_finding (p : ModulePath) (source : DiskPath) (s : Site) :
    (s.finding p source).candidate? =
      if (s.declaration.obstacle? (Scope.ofItems s.items)).isNone then some (s.candidate p source)
      else none := by
  unfold Site.finding StructDecl.finding
  split
  · next h => simp [h, Finding.candidate?, Site.candidate]
  · next h => simp [h, Finding.candidate?]

/-- The sites of the extensible structs that are reached from the items. -/
def extensibleSites (items : List Item) : List (Address × Site) :=
  (sites items).filter fun x => (x.2.declaration.obstacle? (Scope.ofItems x.2.items)).isNone

theorem mem_extensibleSites {items : List Item} {address : Address} {site : Site} :
    (address, site) ∈ extensibleSites items ↔ Reaches items address site ∧ site.IsExtensible := by
  rw [extensibleSites, List.mem_filter, mem_sites, Option.isNone_iff_eq_none,
    StructDecl.obstacle?_eq_none_iff]
  rfl

theorem extensibleSites_sorted (items : List Item) :
    (extensibleSites items).Pairwise fun x y => x.1 < y.1 :=
  (sitesFrom_sorted items 0 items).sublist List.filter_sublist

theorem scanItems_result (p : ModulePath) (source : DiskPath) (items : List Item) :
    (scanItems p source items).result =
      .ok ((extensibleSites items).map fun x => x.2.candidate p source) := by
  simp only [scanItems, findings_eq, extensibleSites]
  congr 1
  rw [List.filterMap_map, ← List.filterMap_eq_map, List.filterMap_filter]
  congr 1
  funext x
  exact x.2.candidate?_finding p source

theorem scanSource_of_ofText? (s : SourceText) {tree : SourceTree}
    (h : SourceTree.ofText? s.text = some tree) :
    scanSource s = scanItems s.modulePath s.path tree.items := by
  rw [scanSource, h]

/-- **The scan is exact.** The candidates of a list of items are those of the extensible structs that are
reached from it, one for each address, in the order of the addresses. The candidates of a source text
are those of its items. -/
theorem scan_exact (p : ModulePath) (source : DiskPath) (items : List Item) :
    ∃ found : List (Address × Site),
      found.Pairwise (fun x y => x.1 < y.1) ∧
      (∀ address site,
        (address, site) ∈ found ↔ Reaches items address site ∧ Extensible site.items site.declaration) ∧
      (scanItems p source items).result = .ok (found.map fun x => x.2.candidate p source) ∧
      ∀ text attributeCount, SourceTree.ofText? text = some ⟨attributeCount, items⟩ →
        (scanSource ⟨source, p, text⟩).result = .ok (found.map fun x => x.2.candidate p source) := by
  refine ⟨extensibleSites items, extensibleSites_sorted items, fun _ _ => mem_extensibleSites,
    scanItems_result p source items, ?_⟩
  intro text attributeCount h
  rw [scanSource_of_ofText? ⟨source, p, text⟩ h]
  exact scanItems_result p source items

end TypedId
