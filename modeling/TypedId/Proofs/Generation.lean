import TypedId.Generate
import TypedId.Proofs.Identifiers
import TypedId.Proofs.UnitItems

/-!
What a generation that succeeds has answered. Every unit is the rendered type of some candidate that
qualifies (`mem_generate`), and no two units have the same key (`generate_keys_nodup`). Rendering itself
fails only for a name that is no identifier, since every unit follows the grammar.
-/
namespace TypedId

/-! ## Outcomes of runs in a row -/

namespace Outcome

variable {α β : Type}

@[simp]
theorem result_pure (a : α) : (pure a : Outcome α).result = .ok a := rfl

@[simp]
theorem result_tell (e : Event) : (tell e).result = .ok () := rfl

@[simp]
theorem result_ofExcept (e : Except Failure α) : (ofExcept e).result = e := rfl

theorem result_bind_of_ok {x : Outcome α} {a : α} (h : x.result = .ok a) (f : α → Outcome β) :
    (x >>= f).result = (f a).result := by
  show (Outcome.bind x f).result = _
  rw [Outcome.bind, h]

theorem result_bind_of_error {x : Outcome α} {e : Failure} (h : x.result = .error e) (f : α → Outcome β) :
    (x >>= f).result = .error e := by
  show (Outcome.bind x f).result = _
  rw [Outcome.bind, h]

theorem result_bind (x : Outcome α) (f : α → Outcome β) :
    (x >>= f).result = x.result >>= fun a => (f a).result := by
  cases hx : x.result with
  | ok a => rw [result_bind_of_ok hx]; rfl
  | error e => rw [result_bind_of_error hx]; rfl

/-- Runs in a row answer if each of them does. -/
theorem result_bind_eq_ok {x : Outcome α} {f : α → Outcome β} {b : β} :
    (x >>= f).result = .ok b ↔ ∃ a, x.result = .ok a ∧ (f a).result = .ok b := by
  cases hx : x.result with
  | ok a => rw [result_bind_of_ok hx]; simp
  | error e => rw [result_bind_of_error hx]; simp

end Outcome

theorem Except.eq_ok_of_toOption {ε α : Type} {x : Except ε α} {a : α} (h : x.toOption = some a) :
    x = .ok a := by
  cases x with
  | ok b =>
    cases h
    rfl
  | error e => cases h

/-! ## Rendering -/

theorem GeneratedUnit.render_eq_ok {t : QualifiedType} {u : GeneratedUnit} :
    render t = .ok u ↔
      ∃ n, Ident.ofSpelling? t.typeName = some n ∧
        u = ⟨t.unitKey, t.modulePath, t.typeName, header t ++ code n⟩ := by
  unfold render
  cases hn : Ident.ofSpelling? t.typeName with
  | none => simp
  | some n =>
    obtain ⟨tokens, htokens, htree⟩ := Option.bind_eq_some_iff.mp (Template.tokens?_reads n)
    simp only [htokens, validate, htree, Except.ok.injEq, Option.some.injEq, exists_eq_left']
    exact eq_comm

/-! ## The loop over the candidates -/

/-- The candidate gets a unit for this type. -/
def Candidate.Qualifies (policy : MarkerPolicy) (c : Candidate) (t : QualifiedType) : Prop :=
  c.isExtensible = true ∧ c.resolve? = some t ∧ Marker.isMarked policy c.attributes = true

/-- A type that can be named: the candidate has no parameters, and its name and those of its modules are
identifiers. -/
theorem Candidate.resolve?_eq_some {c : Candidate} {t : QualifiedType} :
    c.resolve? = some t ↔ t = ⟨c.modulePath, c.name⟩ ∧ c.isGeneric = false ∧ isIdentifier c.name = true ∧
      ∀ s ∈ c.modulePath.segments, isIdentifier s = true := by
  unfold Candidate.resolve?
  split
  · next h =>
    simp only [Bool.and_eq_true, Bool.not_eq_true', List.all_eq_true] at h
    rw [Option.some.injEq, and_iff_left ⟨h.1.1, h.1.2, h.2⟩]
    exact eq_comm
  · next h =>
    simp only [Bool.and_eq_true, Bool.not_eq_true', List.all_eq_true] at h
    simp only [reduceCtorEq, false_iff]
    intro hall
    exact h ⟨⟨hall.2.1, hall.2.2.1⟩, hall.2.2.2⟩

theorem Candidate.result_qualify (policy : MarkerPolicy) (c : Candidate) :
    ((c.qualify policy).result = .ok none ∧ ∀ t, ¬c.Qualifies policy t) ∨
      ∃ t, (c.qualify policy).result = .ok (some t) ∧ c.Qualifies policy t := by
  unfold Candidate.qualify Candidate.Qualifies
  split
  · next hext => exact Or.inl ⟨rfl, fun t h => by simp [h.1] at hext⟩
  · next hext =>
    split
    · next hresolve => exact Or.inl ⟨rfl, fun t h => by simp [hresolve] at h⟩
    · next t hresolve =>
      split
      · next hmarked => exact Or.inr ⟨t, rfl, by simpa using hext, hresolve, hmarked⟩
      · next hmarked => exact Or.inl ⟨rfl, fun t' h => hmarked h.2.2⟩

/-- What the loop does with one candidate: it passes it over, or puts its unit before those of the others. -/
theorem generateFrom_cons {policy : MarkerPolicy} {taken : List String} {c : Candidate}
    {rest : List Candidate} {units : List GeneratedUnit}
    (h : (generateFrom policy taken (c :: rest)).result = .ok units) :
    (generateFrom policy taken rest).result = .ok units ∨
      ∃ t u more, c.Qualifies policy t ∧ t.unitKey ∉ taken ∧ GeneratedUnit.render t = .ok u ∧
        (generateFrom policy (t.unitKey :: taken) rest).result = .ok more ∧ units = u :: more := by
  rw [generateFrom] at h
  rcases c.result_qualify policy with ⟨hnone, _⟩ | ⟨t, hsome, hq⟩
  · rw [Outcome.result_bind_of_ok hnone] at h
    exact Or.inl h
  · rw [Outcome.result_bind_of_ok hsome] at h
    dsimp only at h
    split at h
    · exact Or.inl h
    · next hfree =>
      obtain ⟨u, hu, h⟩ := Outcome.result_bind_eq_ok.mp h
      obtain ⟨more, hmore, h⟩ := Outcome.result_bind_eq_ok.mp h
      cases h
      exact Or.inr ⟨t, u, more, hq, by simpa using hfree, hu, hmore, rfl⟩

theorem mem_generateFrom {policy : MarkerPolicy} {taken : List String} {candidates : List Candidate}
    {units : List GeneratedUnit} (h : (generateFrom policy taken candidates).result = .ok units) :
    ∀ u ∈ units, ∃ c ∈ candidates, ∃ t, c.Qualifies policy t ∧ GeneratedUnit.render t = .ok u := by
  induction candidates generalizing taken units with
  | nil =>
    cases h
    intro u hu
    cases hu
  | cons c rest ih =>
    have inRest : ∀ {taken more}, (generateFrom policy taken rest).result = .ok more → ∀ u ∈ more,
        ∃ c' ∈ c :: rest, ∃ t, c'.Qualifies policy t ∧ GeneratedUnit.render t = .ok u := by
      intro taken more hmore u hu
      obtain ⟨c', hc', found⟩ := ih hmore u hu
      exact ⟨c', List.mem_cons_of_mem c hc', found⟩
    rcases generateFrom_cons h with hrest | ⟨t, u, more, hq, _, hrender, hmore, rfl⟩
    · exact inRest hrest
    · intro v hv
      rcases List.mem_cons.mp hv with rfl | hv
      · exact ⟨c, List.mem_cons_self, t, hq, hrender⟩
      · exact inRest hmore v hv

/-- A unit is the rendered type of a candidate that qualifies. -/
theorem mem_generate {policy : MarkerPolicy} {candidates : List Candidate} {units : List GeneratedUnit}
    (h : (generate policy candidates).result = .ok units) {u : GeneratedUnit} (hu : u ∈ units) :
    ∃ c ∈ candidates, ∃ t, c.Qualifies policy t ∧ GeneratedUnit.render t = .ok u :=
  mem_generateFrom h u hu

theorem generateFrom_keys {policy : MarkerPolicy} {taken : List String} {candidates : List Candidate}
    {units : List GeneratedUnit} (h : (generateFrom policy taken candidates).result = .ok units) :
    (units.map GeneratedUnit.key).Nodup ∧ ∀ u ∈ units, u.key ∉ taken := by
  -- The keys that are taken grow along the loop, so none of them comes up again in the rest.
  induction candidates generalizing taken units with
  | nil =>
    cases h
    simp
  | cons c rest ih =>
    rcases generateFrom_cons h with hrest | ⟨t, u, more, _, hfree, hrender, hmore, rfl⟩
    · exact ih hrest
    · obtain ⟨hnodup, hnew⟩ := ih hmore
      obtain ⟨n, _, rfl⟩ := GeneratedUnit.render_eq_ok.mp hrender
      constructor
      · rw [List.map_cons, List.nodup_cons]
        refine ⟨fun hmem => ?_, hnodup⟩
        obtain ⟨v, hv, hkey⟩ := List.mem_map.mp hmem
        exact hnew v hv (hkey ▸ List.mem_cons_self)
      · intro v hv
        rcases List.mem_cons.mp hv with rfl | hv
        · exact hfree
        · exact fun htaken => hnew v hv (List.mem_cons_of_mem _ htaken)

/-- No two units have the same key. -/
theorem generate_keys_nodup {policy : MarkerPolicy} {candidates : List Candidate}
    {units : List GeneratedUnit} (h : (generate policy candidates).result = .ok units) :
    (units.map GeneratedUnit.key).Nodup :=
  (generateFrom_keys h).1

end TypedId
