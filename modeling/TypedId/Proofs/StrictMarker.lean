import Mathlib.Data.List.Nodup
import TypedId.Proofs.FirstOfKey

/-!
The strict policy against the permissive one. Whatever is the marker under the first is it under the second
(`Marker.namesMarker_of_strict`), so the types that qualify strictly are among those that qualify permissively,
in the same order. The units need not be: a candidate whose attribute is the marker only permissively may come
first and take a key, and the unit of that key is then the unit of its type (`strict_below_permissive`).
-/
namespace TypedId

/-! ## What qualifies -/

/-- A path that names the marker strictly names it permissively, since it ends in the marker's name. -/
theorem Marker.namesMarker_of_strict {resolved : String} (h : namesMarker .strict resolved = true) :
    namesMarker .permissive resolved = true := by
  have hpath : dropSeparators resolved.toList = fullPath.toList := by simpa [namesMarker] using h
  show spellings.contains (String.ofList (dropEnding (dropRawMarks (lastName (dropSeparators resolved.toList))))) = true
  rw [hpath]
  decide

theorem Marker.isMarked_of_strict {attributes : List AttributeRef} (h : isMarked .strict attributes = true) :
    isMarked .permissive attributes = true := by
  obtain ⟨a, ha, hmatch⟩ := List.any_eq_true.mp h
  exact List.any_eq_true.mpr ⟨a, ha, namesMarker_of_strict hmatch⟩

theorem Candidate.Qualifies.of_strict {c : Candidate} {t : QualifiedType} (h : c.Qualifies .strict t) :
    c.Qualifies .permissive t :=
  ⟨h.1, h.2.1, Marker.isMarked_of_strict h.2.2⟩

theorem Candidate.qualify_of_strict {c : Candidate} {t : QualifiedType}
    (h : (c.qualify .strict).result = .ok (some t)) : (c.qualify .permissive).result = .ok (some t) := by
  rw [result_qualify_eq, Except.ok.injEq, qualified?_eq_some] at h ⊢
  exact h.of_strict

/-- A candidate that qualifies permissively qualifies strictly with the same type, or not at all. -/
theorem Candidate.qualify_strict_cases {c : Candidate} {t : QualifiedType}
    (h : (c.qualify .permissive).result = .ok (some t)) :
    (c.qualify .strict).result = .ok (some t) ∨ (c.qualify .strict).result = .ok none := by
  cases hstrict : c.qualified? .strict with
  | none => exact Or.inr (by rw [result_qualify_eq, hstrict])
  | some t' =>
    left
    have hresult : (c.qualify .strict).result = .ok (some t') := by rw [result_qualify_eq, hstrict]
    rw [Candidate.qualify_of_strict hresult] at h
    rw [hresult, h]

theorem qualifiedTypes_strict_subset (candidates : List Candidate) :
    qualifiedTypes .strict candidates ⊆ qualifiedTypes .permissive candidates := by
  intro t ht
  obtain ⟨c, hc, hqualify⟩ := mem_qualifiedTypes.mp ht
  exact mem_qualifiedTypes.mpr ⟨c, hc, Candidate.qualify_of_strict hqualify⟩

/-! ## Units of the same key -/

/-- A unit is told by its type. -/
theorem render_type_of_mem_generate {policy : MarkerPolicy} {candidates : List Candidate} {units : List GeneratedUnit}
    (h : (generate policy candidates).result = .ok units) {u : GeneratedUnit} (hu : u ∈ units) :
    GeneratedUnit.render u.type = .ok u := by
  obtain ⟨_, _, t, _, hrender⟩ := mem_generate h hu
  rw [(GeneratedUnit.of_render hrender).1]
  exact hrender

/-- The candidate that a unit is for: the first one that qualifies with the unit's key. -/
theorem exists_candidate_of_mem_generate {policy : MarkerPolicy} {candidates : List Candidate}
    {units : List GeneratedUnit} (h : (generate policy candidates).result = .ok units) {u : GeneratedUnit}
    (hu : u ∈ units) :
    u.type.unitKey = u.key ∧ ∃ before c after, candidates = before ++ c :: after ∧
      (c.qualify policy).result = .ok (some u.type) ∧
      ∀ c' ∈ before, ∀ t', (c'.qualify policy).result = .ok (some t') → t'.unitKey ≠ u.key := by
  have hkey : u.type.unitKey = u.key := (GeneratedUnit.of_render (render_type_of_mem_generate h hu)).2.symm
  have hfirst := List.mem_map_of_mem (f := GeneratedUnit.type) hu
  rw [map_type_of_generate h, mem_firstOfKey] at hfirst
  exact ⟨hkey, hkey ▸ exists_first_candidate hfirst⟩

/-- Of two places in a list one comes before the other, or they are the same. -/
theorem before_or_before {α : Type} {before before' after after' : List α} {a b : α}
    (h : before ++ a :: after = before' ++ b :: after') : a ∈ before' ∨ b ∈ before ∨ a = b := by
  rcases List.append_eq_append_iff.mp h with ⟨between, hbefore, hrest⟩ | ⟨between, hbefore, hrest⟩
  · cases between with
    | nil =>
      cases hrest
      exact Or.inr (Or.inr rfl)
    | cons x more =>
      cases hrest
      exact Or.inl (by simp [hbefore])
  · cases between with
    | nil =>
      cases hrest
      exact Or.inr (Or.inr rfl)
    | cons x more =>
      cases hrest
      exact Or.inr (Or.inl (by simp [hbefore]))

/-- **Strictly marked is permissively marked, and the keys of the strict run are keys of the permissive one.** A
unit of the strict run is that of the permissive run with the same key, unless the permissive unit is the one of
an earlier candidate, which has the same key and does not qualify strictly. -/
theorem strict_below_permissive :
    (∀ path resolved, Marker.isMatch .strict ⟨path, resolved⟩ = true →
      Marker.isMatch .permissive ⟨path, resolved⟩ = true) ∧
    ∀ candidates us vs, (generate .strict candidates).result = .ok us →
      (generate .permissive candidates).result = .ok vs →
      ∀ u ∈ us, ∃ v ∈ vs, v.key = u.key ∧ (∀ v' ∈ vs, v'.key = u.key → v' = v) ∧
        ∃ before c after, candidates = before ++ c :: after ∧
          (c.qualify .strict).result = .ok (some u.type) ∧
          (v = u ∨ ∃ c' ∈ before, (c'.qualify .permissive).result = .ok (some v.type) ∧
            v.type.unitKey = u.key ∧ (c'.qualify .strict).result = .ok none) := by
  refine ⟨fun _ _ h => Marker.namesMarker_of_strict h, ?_⟩
  intro candidates us vs hus hvs u hu
  have hmem : u.key ∈ vs.map GeneratedUnit.key := by
    have hstrict := (mem_map_key_of_generate hus).mp (List.mem_map_of_mem hu)
    rw [mem_map_key_of_generate hvs]
    exact List.map_subset _ (qualifiedTypes_strict_subset candidates) hstrict
  obtain ⟨v, hv, hvu⟩ := List.mem_map.mp hmem
  refine ⟨v, hv, hvu, ?_, ?_⟩
  · intro v' hv' hkey
    exact List.inj_on_of_nodup_map (generate_keys_nodup hvs) hv' hv (hkey.trans hvu.symm)
  · obtain ⟨hukey, before, c, after, hsplit, hqualify, hfirst⟩ := exists_candidate_of_mem_generate hus hu
    obtain ⟨hvkey, before', c', after', hsplit', hqualify', hfirst'⟩ := exists_candidate_of_mem_generate hvs hv
    refine ⟨before, c, after, hsplit, hqualify, ?_⟩
    have hpermissive := Candidate.qualify_of_strict hqualify
    rcases before_or_before (hsplit.symm.trans hsplit') with hc | hc' | rfl
    · -- The strict candidate qualifies permissively too, so none before the first permissive one is it.
      exact absurd (hukey.trans hvu.symm) (hfirst' c hc u.type hpermissive)
    · right
      refine ⟨c', hc', hqualify', hvkey.trans hvu, ?_⟩
      rcases Candidate.qualify_strict_cases hqualify' with hstrict | hnone
      · exact absurd (hvkey.trans hvu) (hfirst c' hc' v.type hstrict)
      · exact hnone
    · left
      have htypes : u.type = v.type := by
        rw [hpermissive, Except.ok.injEq, Option.some.injEq] at hqualify'
        exact hqualify'
      have hrender := render_type_of_mem_generate hus hu
      rw [htypes, render_type_of_mem_generate hvs hv] at hrender
      exact Except.ok.inj hrender

/-- A declaration of this name whose marker was imported by another name. -/
def strictlyMarkedNamed (segments : List String) (name : String) : Candidate :=
  { markedNamed segments name with attributes := [⟨"id", "idgen_macros::identifier"⟩] }

/-- The module is declared twice, once by a raw name. The declaration that comes first is marked only permissively,
and its unit takes the key. -/
theorem strict_below_permissive_looseFirst :
    ∃ us vs,
      (generate .strict [markedNamed ["r#shop"] "Id", strictlyMarkedNamed ["shop"] "Id"]).result = .ok us ∧
      (generate .permissive [markedNamed ["r#shop"] "Id", strictlyMarkedNamed ["shop"] "Id"]).result = .ok vs ∧
      us.map GeneratedUnit.type = [⟨⟨["shop"]⟩, "Id"⟩] ∧ vs.map GeneratedUnit.type = [⟨⟨["r#shop"]⟩, "Id"⟩] ∧
      ∀ u ∈ us, ∃ v ∈ vs, v.key = u.key ∧ v ≠ u := by
  have hname : ∀ t : QualifiedType, t.typeName = "Id" → ∃ n : Ident, n.spelling = t.typeName :=
    fun t ht => ⟨⟨false, "Id", .refl true⟩, ht.symm⟩
  obtain ⟨us, hus⟩ := (@generate_perm_iff .strict _).mpr (fun t ht => hname t (by revert t; decide +kernel))
    [markedNamed ["r#shop"] "Id", strictlyMarkedNamed ["shop"] "Id"] (List.Perm.refl _)
  obtain ⟨vs, hvs⟩ := (@generate_perm_iff .permissive _).mpr (fun t ht => hname t (by revert t; decide +kernel))
    [markedNamed ["r#shop"] "Id", strictlyMarkedNamed ["shop"] "Id"] (List.Perm.refl _)
  have hutypes : us.map GeneratedUnit.type = [⟨⟨["shop"]⟩, "Id"⟩] := by
    rw [map_type_of_generate hus]
    decide +kernel
  have hvtypes : vs.map GeneratedUnit.type = [⟨⟨["r#shop"]⟩, "Id"⟩] := by
    rw [map_type_of_generate hvs]
    decide +kernel
  refine ⟨us, vs, hus, hvs, hutypes, hvtypes, ?_⟩
  intro u hu
  obtain ⟨v, hv, hkey, _⟩ := strict_below_permissive.2 _ us vs hus hvs u hu
  refine ⟨v, hv, hkey, ?_⟩
  rintro rfl
  have htype := List.mem_map_of_mem (f := GeneratedUnit.type) hu
  have htype' := List.mem_map_of_mem (f := GeneratedUnit.type) hv
  rw [hutypes, List.mem_singleton] at htype
  rw [hvtypes, List.mem_singleton, htype] at htype'
  exact absurd htype' (by decide)

end TypedId
