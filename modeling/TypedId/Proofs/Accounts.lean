import TypedId.Proofs.FirstOfKey

/-!
Every declaration is accounted for, and only once. A scan says one thing of each struct that it reaches: that it is a
candidate, or which obstacle is in its way. A generation gives each candidate one thing: its unit, or the event
that tells why it has none. What is said and given comes in the order of the declarations
(`declarations_accounted`).
-/
namespace TypedId

/-! ## Logs of runs in a row -/

namespace Outcome

variable {α β : Type}

@[simp]
theorem log_pure (a : α) : (pure a : Outcome α).log = [] := rfl

@[simp]
theorem log_tell (e : Event) : (tell e).log = [e] := rfl

@[simp]
theorem log_ofExcept (e : Except Failure α) : (ofExcept e).log = [] := rfl

theorem log_bind_of_ok {x : Outcome α} {a : α} (h : x.result = .ok a) (f : α → Outcome β) :
    (x >>= f).log = x.log ++ (f a).log := by
  show (Outcome.bind x f).log = _
  rw [Outcome.bind, h]

end Outcome

/-! ## What a scan says of structs -/

/-- The name of the struct with all modules around it, where `p` is the path of the items that it was reached
from. -/
def Site.qualifiedName (p : ModulePath) (s : Site) : String :=
  (⟨p.segments ++ s.names⟩ : ModulePath).qualify s.declaration.name.spelling

/-- What may be said of a struct: an extensible one is a candidate, and any other has an obstacle. -/
inductive Site.Says (p : ModulePath) (source : DiskPath) (s : Site) : Finding → Prop where
  | candidate : s.IsExtensible → Says p source s (.candidate (s.candidate p source))
  | rejected {obstacle : Obstacle} :
    ¬s.IsExtensible → s.declaration.obstacle? (Scope.ofItems s.items) = some obstacle →
      Says p source s (.rejected (s.qualifiedName p) obstacle)

theorem Site.says_finding (p : ModulePath) (source : DiskPath) (s : Site) : s.Says p source (s.finding p source) := by
  have hextensible : s.IsExtensible ↔ s.declaration.obstacle? (Scope.ofItems s.items) = none :=
    StructDecl.obstacle?_eq_none_iff.symm
  unfold Site.finding StructDecl.finding
  split
  · next hnone => exact .candidate (hextensible.mpr hnone)
  · next obstacle hsome =>
    refine .rejected (fun hext => ?_) hsome
    rw [hextensible.mp hext] at hsome
    cases hsome

/-- The candidates and the events of a scan are what it says of the structs that are reached, one after another. -/
theorem scanItems_accounted (p : ModulePath) (source : DiskPath) (items : List Item) :
    ∃ found : List Finding, List.Forall₂ (fun x f => x.2.Says p source f) (sites items) found ∧
      (scanItems p source items).result = .ok (found.filterMap Finding.candidate?) ∧
      (scanItems p source items).log = found.filterMap Finding.event? := by
  refine ⟨(sites items).map fun x => x.2.finding p source, ?_, ?_, ?_⟩
  · rw [List.forall₂_map_right_iff]
    exact List.forall₂_same.mpr fun x _ => x.2.says_finding p source
  · rw [scanItems, findings_eq]
  · rw [scanItems, findings_eq]

/-! ## What a generation gives candidates -/

namespace Candidate

/-- What a generation may give a candidate, where `earlier` are the units of the candidates before it: its unit, or
the event that tells why it has none. -/
inductive Gets (policy : MarkerPolicy) (earlier : List GeneratedUnit) (c : Candidate) :
    GeneratedUnit ⊕ Event → Prop where
  | unit {t : QualifiedType} {u : GeneratedUnit} :
    c.Qualifies policy t → t.unitKey ∉ earlier.map GeneratedUnit.key → GeneratedUnit.render t = .ok u →
      Gets policy earlier c (.inl u)
  | unresolvable : c.resolve? = none → Gets policy earlier c (.inr (.unresolvable c.qualifiedName c.source))
  | unmarked {t : QualifiedType} :
    c.resolve? = some t → Marker.isMarked policy c.attributes = false →
      Gets policy earlier c (.inr (.unmarked c.qualifiedName))
  | duplicate {t : QualifiedType} :
    c.Qualifies policy t → t.unitKey ∈ earlier.map GeneratedUnit.key →
      Gets policy earlier c (.inr (.duplicate t.unitKey c.source))

/-- A candidate gets no two things. -/
theorem Gets.unique {policy : MarkerPolicy} {earlier : List GeneratedUnit} {c : Candidate} {x y : GeneratedUnit ⊕ Event}
    (hx : c.Gets policy earlier x) (hy : c.Gets policy earlier y) : y = x := by
  cases hx with
  | unit hq hfree hrender =>
    obtain ⟨_, hresolve, hmarked⟩ := hq
    cases hy with
    | unit hq' _ hrender' =>
      cases hresolve.symm.trans hq'.2.1
      cases hrender.symm.trans hrender'
      rfl
    | unresolvable hnone => cases hresolve.symm.trans hnone
    | unmarked _ hmarked' => cases hmarked.symm.trans hmarked'
    | duplicate hq' htaken =>
      cases hresolve.symm.trans hq'.2.1
      exact absurd htaken hfree
  | unresolvable hnone =>
    cases hy with
    | unit hq' _ _ => cases hnone.symm.trans hq'.2.1
    | unresolvable _ => rfl
    | unmarked hresolve' _ => cases hnone.symm.trans hresolve'
    | duplicate hq' _ => cases hnone.symm.trans hq'.2.1
  | unmarked hresolve hmarked =>
    cases hy with
    | unit hq' _ _ => cases hmarked.symm.trans hq'.2.2
    | unresolvable hnone => cases hresolve.symm.trans hnone
    | unmarked _ _ => rfl
    | duplicate hq' _ => cases hmarked.symm.trans hq'.2.2
  | duplicate hq htaken =>
    obtain ⟨_, hresolve, hmarked⟩ := hq
    cases hy with
    | unit hq' hfree _ =>
      cases hresolve.symm.trans hq'.2.1
      exact absurd htaken hfree
    | unresolvable hnone => cases hresolve.symm.trans hnone
    | unmarked _ hmarked' => cases hmarked.symm.trans hmarked'
    | duplicate hq' _ =>
      cases hresolve.symm.trans hq'.2.1
      rfl

/-- A struct that is extensible is passed over with an event, or qualifies without one. -/
theorem qualify_cases (policy : MarkerPolicy) {c : Candidate} (hext : c.isExtensible = true) :
    (c.resolve? = none ∧ c.qualify policy = ⟨.ok none, [.unresolvable c.qualifiedName c.source]⟩) ∨
    (∃ t, c.resolve? = some t ∧ Marker.isMarked policy c.attributes = false ∧
      c.qualify policy = ⟨.ok none, [.unmarked c.qualifiedName]⟩) ∨
    ∃ t, c.Qualifies policy t ∧ c.qualify policy = ⟨.ok (some t), []⟩ := by
  unfold qualify Qualifies
  rw [hext]
  cases hresolve : c.resolve? with
  | none => exact Or.inl ⟨rfl, rfl⟩
  | some t =>
    cases hmarked : Marker.isMarked policy c.attributes with
    | false => exact Or.inr (Or.inl ⟨t, rfl, rfl, rfl⟩)
    | true => exact Or.inr (Or.inr ⟨t, ⟨rfl, rfl, rfl⟩, rfl⟩)

end Candidate

/-- Each candidate is given one thing, where `earlier` are the units that were given before. -/
structure Accounted (policy : MarkerPolicy) (earlier : List GeneratedUnit) (candidates : List Candidate)
    (given : List (GeneratedUnit ⊕ Event)) : Prop where
  length : given.length = candidates.length
  gets : ∀ (i : Nat) (c : Candidate) (x : GeneratedUnit ⊕ Event), candidates[i]? = some c → given[i]? = some x →
    c.Gets policy (earlier ++ (given.take i).filterMap Sum.getLeft?) x

namespace Accounted

variable {policy : MarkerPolicy} {earlier : List GeneratedUnit}

theorem nil : Accounted policy earlier [] [] := ⟨rfl, by simp⟩

theorem cons {c : Candidate} {rest : List Candidate} {x : GeneratedUnit ⊕ Event} {more : List (GeneratedUnit ⊕ Event)}
    (hx : c.Gets policy earlier x) (hmore : Accounted policy (earlier ++ x.getLeft?.toList) rest more) :
    Accounted policy earlier (c :: rest) (x :: more) where
  length := by rw [List.length_cons, List.length_cons, hmore.length]
  gets i c' y hc hy := by
    cases i with
    | zero =>
      cases hc
      cases hy
      simpa using hx
    | succ i =>
      have hearlier : earlier ++ ((x :: more).take (i + 1)).filterMap Sum.getLeft? =
          earlier ++ x.getLeft?.toList ++ (more.take i).filterMap Sum.getLeft? := by
        rw [List.take_succ_cons, List.append_assoc]
        cases x <;> rfl
      rw [hearlier]
      exact hmore.gets i c' y hc hy

end Accounted

/-- What the loop does with one candidate: it tells of an event, or puts a unit before those of the others. -/
theorem generateFrom_step {policy : MarkerPolicy} {taken : List String} {earlier : List GeneratedUnit}
    (htaken : ∀ key, key ∈ taken ↔ key ∈ earlier.map GeneratedUnit.key) {c : Candidate} (hext : c.isExtensible = true)
    {rest : List Candidate} {units : List GeneratedUnit}
    (h : (generateFrom policy taken (c :: rest)).result = .ok units) :
    (∃ e, c.Gets policy earlier (.inr e) ∧ (generateFrom policy taken rest).result = .ok units ∧
      (generateFrom policy taken (c :: rest)).log = e :: (generateFrom policy taken rest).log) ∨
    ∃ u more, c.Gets policy earlier (.inl u) ∧ units = u :: more ∧
      (generateFrom policy (u.key :: taken) rest).result = .ok more ∧
      (generateFrom policy taken (c :: rest)).log = (generateFrom policy (u.key :: taken) rest).log := by
  rcases c.qualify_cases policy hext with ⟨hresolve, hqualify⟩ | ⟨t, hresolve, hmarked, hqualify⟩ | ⟨t, hq, hqualify⟩
  · rw [generateFrom, hqualify] at h ⊢
    exact Or.inl ⟨_, .unresolvable hresolve, h, rfl⟩
  · rw [generateFrom, hqualify] at h ⊢
    exact Or.inl ⟨_, .unmarked hresolve hmarked, h, rfl⟩
  · have hok : (c.qualify policy).result = .ok (some t) := by rw [hqualify]
    have hlog : (c.qualify policy).log = [] := by rw [hqualify]
    rw [generateFrom, Outcome.result_bind_of_ok hok] at h
    rw [generateFrom, Outcome.log_bind_of_ok hok, hlog, List.nil_append]
    dsimp only at h ⊢
    split at h
    · next hkey =>
      rw [if_pos hkey]
      exact Or.inl ⟨_, .duplicate hq ((htaken _).mp (List.contains_iff_mem.mp hkey)), h, rfl⟩
    · next hkey =>
      obtain ⟨u, hanswer, h⟩ := Outcome.result_bind_eq_ok.mp h
      have hrender : GeneratedUnit.render t = .ok u := hanswer
      obtain ⟨more, hmore, h⟩ := Outcome.result_bind_eq_ok.mp h
      cases h
      have hfree : t.unitKey ∉ earlier.map GeneratedUnit.key := fun hmem =>
        hkey (List.contains_iff_mem.mpr ((htaken _).mpr hmem))
      rw [if_neg hkey, Outcome.log_bind_of_ok hanswer, Outcome.log_bind_of_ok hmore, Outcome.log_ofExcept,
        Outcome.log_pure, List.append_nil, List.nil_append]
      rw [← (GeneratedUnit.of_render hrender).2] at hmore ⊢
      exact Or.inr ⟨u, more, .unit hq hfree hrender, rfl, hmore, rfl⟩

/-- The units and the events of a generation are what it gives the candidates, one after another. -/
theorem generateFrom_accounted {policy : MarkerPolicy} {taken : List String} {earlier : List GeneratedUnit}
    (htaken : ∀ key, key ∈ taken ↔ key ∈ earlier.map GeneratedUnit.key) {candidates : List Candidate}
    (hext : ∀ c ∈ candidates, c.isExtensible = true) {units : List GeneratedUnit}
    (h : (generateFrom policy taken candidates).result = .ok units) :
    ∃ given, Accounted policy earlier candidates given ∧ given.filterMap Sum.getLeft? = units ∧
      given.filterMap Sum.getRight? = (generateFrom policy taken candidates).log := by
  -- Along the candidates; the keys that are taken are those of the units given so far.
  induction candidates generalizing taken earlier units with
  | nil =>
    cases h
    exact ⟨[], .nil, rfl, rfl⟩
  | cons c rest ih =>
    have hrest := fun c' hc' => hext c' (List.mem_cons_of_mem c hc')
    rcases generateFrom_step htaken (hext c List.mem_cons_self) h with
      ⟨e, hgets, hresult, hlog⟩ | ⟨u, more, hgets, rfl, hmore, hlog⟩
    · obtain ⟨given, haccounted, rfl, hevents⟩ := ih htaken hrest hresult
      exact ⟨.inr e :: given, .cons hgets (by simpa using haccounted), rfl, by rw [hlog, ← hevents]; rfl⟩
    · have hnext : ∀ key, key ∈ u.key :: taken ↔ key ∈ (earlier ++ [u]).map GeneratedUnit.key := by
        intro key
        rw [List.mem_cons, htaken, List.map_append, List.mem_append, List.map_singleton, List.mem_singleton]
        exact or_comm
      obtain ⟨given, haccounted, rfl, hevents⟩ := ih hnext hrest hmore
      exact ⟨.inl u :: given, .cons hgets haccounted, rfl, by rw [hlog, ← hevents]; rfl⟩

/-- **Every declaration is accounted for once.** The structs that are reached from the items of a module, in the order
in which they stand there, are told apart into the candidates and those that an event names with the obstacle in
their way; there are no other candidates and events. Of the candidates of a generation that answers each one gets
either its unit or one event, and nothing else can be what it gets; the units and the events are those that the
candidates get, in their order. -/
theorem declarations_accounted :
    (∀ (p : ModulePath) (source : DiskPath) (items : List Item),
      ∃ (declared : List (Address × Site)) (found : List Finding),
        declared.Pairwise (fun x y => x.1 < y.1) ∧
        (∀ address site, (address, site) ∈ declared ↔ Reaches items address site) ∧
        List.Forall₂ (fun x f => x.2.Says p source f) declared found ∧
        (scanItems p source items).result = .ok (found.filterMap Finding.candidate?) ∧
        (scanItems p source items).log = found.filterMap Finding.event? ∧
        ∀ text attributeCount, SourceTree.ofText? text = some ⟨attributeCount, items⟩ →
          scanSource ⟨source, p, text⟩ = scanItems p source items) ∧
    ∀ (policy : MarkerPolicy) (candidates : List Candidate) (units : List GeneratedUnit),
      (∀ c ∈ candidates, c.isExtensible = true) → (generate policy candidates).result = .ok units →
      ∃ given : List (GeneratedUnit ⊕ Event), given.length = candidates.length ∧
        (∀ (i : Nat) (c : Candidate) (x : GeneratedUnit ⊕ Event), candidates[i]? = some c → given[i]? = some x →
          ∀ y, c.Gets policy ((given.take i).filterMap Sum.getLeft?) y ↔ y = x) ∧
        given.filterMap Sum.getLeft? = units ∧ given.filterMap Sum.getRight? = (generate policy candidates).log := by
  constructor
  · intro p source items
    obtain ⟨found, hsays, hresult, hlog⟩ := scanItems_accounted p source items
    exact ⟨sites items, found, sitesFrom_sorted items 0 items, fun _ _ => mem_sites, hsays, hresult, hlog,
      fun text _ htext => scanSource_of_ofText? ⟨source, p, text⟩ htext⟩
  · intro policy candidates units hext h
    have hnone : ∀ key, key ∈ ([] : List String) ↔ key ∈ ([] : List GeneratedUnit).map GeneratedUnit.key := by simp
    obtain ⟨given, haccounted, hunits, hevents⟩ := generateFrom_accounted hnone hext h
    refine ⟨given, haccounted.length, fun i c x hc hx y => ?_, hunits, hevents⟩
    have hgets := haccounted.gets i c x hc hx
    rw [List.nil_append] at hgets
    exact ⟨hgets.unique, fun heq => heq ▸ hgets⟩

/-- Declarations of which the first gets its unit and each of the others another event. -/
def fourDeclared : List Candidate :=
  [markedNamed [] "A", { markedNamed [] "G" with isGeneric := true }, { markedNamed [] "B" with attributes := [] },
    markedNamed [] "A"]

theorem declarations_accounted_four :
    (∃ (items : List Item) (found : List Finding), SourceTree.ofText? "struct A(i64); struct B;" = some ⟨0, items⟩ ∧
      (scanSource ⟨DiskPath.ofString "src/lib.rs", .root, "struct A(i64); struct B;"⟩).result =
        .ok (found.filterMap Finding.candidate?) ∧
      found.filterMap Finding.event? = [.notExtensible "B" .notTuple]) ∧
    (∀ c ∈ fourDeclared, c.isExtensible = true) ∧
    ∃ (units : List GeneratedUnit) (given : List (GeneratedUnit ⊕ Event)),
      (generate .permissive fourDeclared).result = .ok units ∧ given.length = 4 ∧
      given.filterMap Sum.getLeft? = units ∧ units.map GeneratedUnit.key = ["A.g.rs"] ∧
      given.filterMap Sum.getRight? = [.unresolvable "G" (DiskPath.ofString "src/lib.rs"), .unmarked "B",
        .duplicate "A.g.rs" (DiskPath.ofString "src/lib.rs")] := by
  obtain ⟨hscan, hgenerate⟩ := declarations_accounted
  refine ⟨?_, by decide, ?_⟩
  · have hparse :
        (SourceTree.ofText? "struct A(i64); struct B;").any (fun tree => tree.attributeCount == 0) = true := by
      decide +kernel
    obtain ⟨⟨_, items⟩, htree, hcount⟩ := (Option.any_eq_true _ _).mp hparse
    cases beq_iff_eq.mp hcount
    obtain ⟨_, found, _, _, _, hresult, hlog, htext⟩ := hscan .root (DiskPath.ofString "src/lib.rs") items
    have hsource := htext _ _ htree
    refine ⟨items, found, htree, hsource ▸ hresult, ?_⟩
    rw [← hlog, ← hsource]
    decide +kernel
  · have hrun : ((generate .permissive fourDeclared).result.toOption.any
        (fun units => units.map GeneratedUnit.key == ["A.g.rs"]) &&
          (generate .permissive fourDeclared).log == [.unresolvable "G" (DiskPath.ofString "src/lib.rs"),
            .unmarked "B", .duplicate "A.g.rs" (DiskPath.ofString "src/lib.rs")]) = true := by
      decide +kernel
    rw [Bool.and_eq_true, beq_iff_eq] at hrun
    obtain ⟨units, hunits, hkeys⟩ := (Option.any_eq_true _ _).mp hrun.1
    have hok := Except.eq_ok_of_toOption hunits
    obtain ⟨given, hlength, _, hleft, hright⟩ := hgenerate .permissive fourDeclared units (by decide) hok
    exact ⟨units, given, hok, hlength, hleft, beq_iff_eq.mp hkeys, hright.trans hrun.2⟩

end TypedId
