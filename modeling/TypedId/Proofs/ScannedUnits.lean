import TypedId.Proofs.Generation
import TypedId.Proofs.Sites

/-!
Generation from scanned sources. What a generation answers is told by the types of the candidates that
qualify, in their order (`result_generateFrom`). A struct that was read from a text has an identifier for
its name, and the unit for an identifier follows the grammar; so generation answers whatever texts were
scanned (`generate_scanned`).
-/
namespace TypedId

/-! ## The types of candidates -/

/-- The type that gets a unit for the candidate, if the candidate qualifies. -/
def Candidate.qualified? (policy : MarkerPolicy) (c : Candidate) : Option QualifiedType :=
  if c.isExtensible && Marker.isMarked policy c.attributes then c.resolve? else none

theorem Candidate.qualified?_eq_some {policy : MarkerPolicy} {c : Candidate} {t : QualifiedType} :
    c.qualified? policy = some t ↔ c.Qualifies policy t := by
  unfold Candidate.qualified? Candidate.Qualifies
  split
  · next h =>
    rw [Bool.and_eq_true] at h
    simp [h.1, h.2]
  · next h =>
    rw [Bool.and_eq_true, not_and] at h
    constructor
    · intro hnone
      cases hnone
    · intro hq
      exact absurd hq.2.2 (h hq.1)

theorem Candidate.result_qualify_eq (policy : MarkerPolicy) (c : Candidate) :
    (c.qualify policy).result = .ok (c.qualified? policy) := by
  rcases c.result_qualify policy with ⟨hresult, hnot⟩ | ⟨t, hresult, hq⟩
  · have hnone : c.qualified? policy = none := by
      rw [Option.eq_none_iff_forall_not_mem]
      intro t ht
      exact hnot t (Candidate.qualified?_eq_some.mp ht)
    rw [hresult, hnone]
  · rw [hresult, Candidate.qualified?_eq_some.mpr hq]

/-- The units for some types, where the keys in `taken` have been given away. -/
def GeneratedUnit.renderAll (taken : List String) : List QualifiedType → Except Failure (List GeneratedUnit)
  | [] => .ok []
  | t :: rest =>
    if taken.contains t.unitKey then renderAll taken rest
    else do
      let unit ← render t
      let units ← renderAll (t.unitKey :: taken) rest
      return unit :: units

/-- A generation renders the types of the candidates that qualify, and nothing else of a candidate counts. -/
theorem result_generateFrom (policy : MarkerPolicy) (taken : List String) (candidates : List Candidate) :
    (generateFrom policy taken candidates).result =
      GeneratedUnit.renderAll taken (candidates.filterMap (Candidate.qualified? policy)) := by
  induction candidates generalizing taken with
  | nil => rfl
  | cons c rest ih =>
    rw [generateFrom, Outcome.result_bind_of_ok (c.result_qualify_eq policy), List.filterMap_cons]
    cases c.qualified? policy with
    | none => exact ih taken
    | some t =>
      dsimp only
      rw [GeneratedUnit.renderAll]
      split
      · exact ih taken
      · simp only [Outcome.result_bind, Outcome.result_ofExcept, ih, Outcome.result_pure]
        rfl

theorem GeneratedUnit.renderAll_eq_ok (taken : List String) {types : List QualifiedType}
    (h : ∀ t ∈ types, ∃ n, Ident.ofSpelling? t.typeName = some n) :
    ∃ units, renderAll taken types = .ok units := by
  induction types generalizing taken with
  | nil => exact ⟨[], rfl⟩
  | cons t rest ih =>
    have hrest := fun s hs => h s (List.mem_cons_of_mem t hs)
    rw [renderAll]
    split
    · exact ih taken hrest
    · obtain ⟨n, hn⟩ := h t List.mem_cons_self
      obtain ⟨units, hunits⟩ := ih (t.unitKey :: taken) hrest
      rw [render_eq_ok.mpr ⟨n, hn, rfl⟩, hunits]
      exact ⟨_, rfl⟩

/-! ## Candidates of source texts -/

/-- The candidates that the scan finds in a source text; none if the text does not follow the grammar. -/
def SourceText.candidates (s : SourceText) : List Candidate :=
  match (scanSource s).result with
  | .ok candidates => candidates
  | .error _ => []

/-- A scan of several texts always answers, with the candidates of one text after those of another. -/
theorem result_scanAll (sources : List SourceText) :
    (scanAll sources).result = .ok (sources.flatMap SourceText.candidates) := by
  induction sources with
  | nil => rfl
  | cons s rest ih =>
    rw [scanAll, List.flatMap_cons, SourceText.candidates]
    cases (scanSource s).result with
    | error e =>
      dsimp only
      rw [Outcome.result_bind_of_ok (Outcome.result_tell _)]
      exact ih
    | ok candidates =>
      dsimp only
      rw [Outcome.result_bind_of_ok (Outcome.result_tell _), Outcome.result_bind_of_ok ih]
      rfl

/-- A candidate of a source text stands for a struct of the text. -/
theorem SourceText.mem_candidates {s : SourceText} {c : Candidate} (h : c ∈ s.candidates) :
    ∃ site : Site, c = site.candidate s.modulePath s.path := by
  unfold SourceText.candidates at h
  cases htree : SourceTree.ofText? s.text with
  | none =>
    rw [scanSource, htree] at h
    cases h
  | some tree =>
    rw [scanSource_of_ofText? s htree, scanItems_result] at h
    obtain ⟨x, _, rfl⟩ := List.mem_map.mp h
    exact ⟨x.2, rfl⟩

/-! ## Names that were read are identifiers -/

/-- An identifier is read back from its spelling. -/
theorem Ident.ofSpelling?_spelling (i : Ident) : ofSpelling? i.spelling = some i := by
  have hraw : (i.spelling.toList.take 2 == ['r', '#']) = i.raw := by
    rw [i.toList_spelling]
    cases i.raw with
    | true => rfl
    | false =>
      -- No word holds the sign of the mark.
      rw [if_neg (by simp), List.nil_append, beq_eq_false_iff_ne]
      intro hmark
      have hmem : '#' ∈ i.text.toList := List.mem_of_mem_take (hmark ▸ (by simp : '#' ∈ ['r', '#']))
      exact absurd (isIdentContinue_of_isWord i.isWord_text '#' hmem) (by decide)
  simp only [ofSpelling?, hraw, i.unraw_spelling, i.valid, dif_pos]

theorem Template.validate_tokens? (n : Ident) :
    ∃ tokens, tokens? n = some tokens ∧ GeneratedUnit.validate tokens = .ok ⟨0, (blocks n).map .impl⟩ := by
  obtain ⟨tokens, htokens, htree⟩ := Option.bind_eq_some_iff.mp (tokens?_reads n)
  exact ⟨tokens, htokens, by rw [GeneratedUnit.validate, htree]⟩

/-- **Generation from scanned sources answers.** For any texts under any module paths, the candidates that the
scan finds in those that follow the grammar get their units. The name of each of them is an identifier,
and the unit for that identifier follows the grammar. -/
theorem generate_scanned (policy : MarkerPolicy) (sources : List SourceText) :
    (∃ units, (generate policy (sources.flatMap SourceText.candidates)).result = .ok units) ∧
      ∀ c ∈ sources.flatMap SourceText.candidates, ∃ n tokens tree,
        Ident.ofSpelling? c.name = some n ∧ Template.tokens? n = some tokens ∧
          GeneratedUnit.validate tokens = .ok tree := by
  have hname : ∀ c ∈ sources.flatMap SourceText.candidates, ∃ n, Ident.ofSpelling? c.name = some n := by
    intro c hc
    obtain ⟨s, _, hc⟩ := List.mem_flatMap.mp hc
    obtain ⟨site, rfl⟩ := SourceText.mem_candidates hc
    exact ⟨site.declaration.name, Ident.ofSpelling?_spelling _⟩
  constructor
  · rw [generate, result_generateFrom]
    refine GeneratedUnit.renderAll_eq_ok [] fun t ht => ?_
    obtain ⟨c, hc, hq⟩ := List.mem_filterMap.mp ht
    obtain ⟨n, hn⟩ := hname c hc
    refine ⟨n, ?_⟩
    obtain ⟨_, hresolve, _⟩ := Candidate.qualified?_eq_some.mp hq
    rw [(Candidate.resolve?_eq_some.mp hresolve).1]
    exact hn
  · intro c hc
    obtain ⟨n, hn⟩ := hname c hc
    obtain ⟨tokens, htokens, hvalid⟩ := Template.validate_tokens? n
    exact ⟨n, tokens, _, hn, htokens, hvalid⟩

end TypedId
