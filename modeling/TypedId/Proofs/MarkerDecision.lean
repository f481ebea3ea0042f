import TypedId.Proofs.Imports
import TypedId.Proofs.Sites
import TypedId.Qualify

/-!
The decision about the marker is exact. The text that an attribute is resolved to is taken apart again by
the marker's tests; `isMatch_strict_iff` and `isMatch_permissive_iff` say that the answer is the one that
the names of the expanded path give. `marker_decision_exact` says so of every attribute that the scan
records, with the imports of the struct's own module.
-/
namespace TypedId

namespace Marker

/-! ## The last name of a path -/

theorem beforeSeparator_of_not_mem {piece : List Char} (h : ':' ∉ piece) : beforeSeparator piece = piece := by
  induction piece with
  | nil => rfl
  | cons c rest ih =>
    rw [List.mem_cons, not_or] at h
    rw [beforeSeparator, ih h.2]
    intro more he _
    exact h.1 he.symm

theorem beforeSeparator_append {piece : List Char} (h : ':' ∉ piece) (rest : List Char) :
    beforeSeparator (piece ++ ':' :: ':' :: rest) = piece := by
  induction piece with
  | nil => rfl
  | cons c more ih =>
    rw [List.mem_cons, not_or] at h
    rw [List.cons_append, beforeSeparator, ih h.2]
    intro tail he _
    exact h.1 he.symm

theorem lastName_joinNames {names : List String} {last : String} (h : IsName last) :
    lastName (joinNames (names ++ [last])).toList = last.toList := by
  have hcolon : ':' ∉ last.toList.reverse := by
    rw [List.mem_reverse]
    exact h.2
  unfold lastName
  -- Read from the back, the last name comes first and ends where the first separator begins.
  by_cases hne : names = []
  · rw [hne, List.nil_append, joinNames_singleton, beforeSeparator_of_not_mem hcolon, List.reverse_reverse]
  · rw [joinNames_append hne (by simp), joinNames_singleton, toList_around, List.reverse_append,
      List.reverse_cons, List.reverse_cons, List.append_assoc, List.append_assoc]
    show (beforeSeparator (last.toList.reverse ++ ':' :: ':' :: (joinNames names).toList.reverse)).reverse = _
    rw [beforeSeparator_append hcolon, List.reverse_reverse]

/-! ## Raw marks and the ending -/

theorem dropRawMarks_of_not_mem {cs : List Char} (h : '#' ∉ cs) : dropRawMarks cs = cs := by
  rw [dropRawMarks]
  intro rest heq
  subst heq
  simp at h

theorem unraw_of_not_mem {s : String} (h : '#' ∉ s.toList) : unraw s = s := by
  unfold unraw
  split
  · next rest hs => simp [hs] at h
  · rfl

theorem hash_not_mem_text (i : Ident) : '#' ∉ i.text.toList := by
  intro h
  have hcontinue := isIdentContinue_of_isWord i.isWord_text '#' h
  exact absurd hcontinue (by decide)

/-- A word has at most one raw mark. -/
theorem dropRawMarks_spelling (w : Word) :
    String.ofList (dropRawMarks w.spelling.toList) = unraw w.spelling := by
  cases w with
  | keyword k =>
    have hk : '#' ∉ k.spelling.toList := by
      intro h
      exact absurd (k.mem_spelling '#' h) (by decide)
    show String.ofList (dropRawMarks k.spelling.toList) = unraw k.spelling
    rw [dropRawMarks_of_not_mem hk, unraw_of_not_mem hk, String.ofList_toList]
  | ident i =>
    show String.ofList (dropRawMarks i.spelling.toList) = unraw i.spelling
    have hlist := i.toList_spelling
    -- The text after the mark holds no sign, so no second mark is taken off.
    cases hraw : i.raw with
    | true =>
      simp only [hraw, if_true, List.cons_append, List.nil_append] at hlist
      rw [unraw, hlist, dropRawMarks, dropRawMarks_of_not_mem (hash_not_mem_text i)]
      rfl
    | false =>
      simp only [hraw, Bool.false_eq_true, if_false, List.nil_append] at hlist
      have hmem : '#' ∉ i.spelling.toList := hlist ▸ hash_not_mem_text i
      rw [dropRawMarks_of_not_mem hmem, unraw_of_not_mem hmem, String.ofList_toList]

theorem dropEnding_eq_iff {cs name : List Char} (h : ¬ending <:+ name) :
    dropEnding cs = name ↔ cs = name ∨ cs = name ++ ending := by
  unfold dropEnding
  split
  · next hsuffix =>
    obtain ⟨front, rfl⟩ := List.isSuffixOf_iff_suffix.mp hsuffix
    rw [List.length_append, Nat.add_sub_cancel, List.take_left]
    -- The name itself does not end so, hence it is what is left and not the whole.
    constructor
    · intro heq
      subst heq
      exact Or.inr rfl
    · intro hcase
      rcases hcase with he | he
      · exact absurd ⟨front, he⟩ h
      · exact List.append_cancel_right he
  · next hsuffix =>
    rw [List.isSuffixOf_iff_suffix] at hsuffix
    constructor
    · exact Or.inl
    · intro hcase
      rcases hcase with he | he
      · exact he
      · exact absurd ⟨name, he.symm⟩ hsuffix

/-- The name is one of the marker's, perhaps written raw, and perhaps with the tolerated ending. -/
def IsMarkerName (s : String) : Prop :=
  ∃ name ∈ ["identifier", "Identifier"], unraw s = name ∨ unraw s = name ++ "Attribute"

theorem spellings_contains_iff (w : Word) :
    spellings.contains (String.ofList (dropEnding (dropRawMarks w.spelling.toList))) = true ↔
      IsMarkerName w.spelling := by
  have hspellings : spellings = ["identifier", "Identifier"] := rfl
  have hending : ∀ name ∈ ["identifier", "Identifier"], ¬ending <:+ name.toList := by decide
  rw [List.contains_iff_mem, hspellings]
  have hname : ∀ name ∈ ["identifier", "Identifier"],
      (String.ofList (dropEnding (dropRawMarks w.spelling.toList)) = name ↔
        unraw w.spelling = name ∨ unraw w.spelling = name ++ "Attribute") := by
    intro name hn
    rw [← String.toList_inj, String.toList_ofList, dropEnding_eq_iff (hending name hn),
      ← dropRawMarks_spelling, ← String.toList_inj, ← String.toList_inj, String.toList_ofList,
      String.toList_append]
    rfl
  constructor
  · intro h
    exact ⟨_, h, (hname _ h).mp rfl⟩
  · intro hsome
    obtain ⟨name, hn, h⟩ := hsome
    rw [(hname name hn).mpr h]
    exact hn

end Marker

/-! ## The decision -/

theorem isMatch_strict_iff (items : List Item) (path : PlainPath) :
    Marker.isMatch .strict ((Scope.ofItems items).resolve path) = true ↔
      expanded items path = ["idgen_macros", "identifier"] := by
  have hpath : Marker.fullPath = joinNames ["idgen_macros", "identifier"] := by decide
  have hnames : ∀ s ∈ ["idgen_macros", "identifier"], IsName s := by decide
  simp only [Marker.isMatch, Marker.namesMarker, resolved_eq, beq_iff_eq, String.toList_inj]
  rw [hpath]
  -- Both sides are joined names, which are told apart by their names.
  constructor
  · exact joinNames_inj (fun s hs => (words_of_expanded items path s hs).isName) hnames
  · intro h
    rw [h]

theorem isMatch_permissive_iff (items : List Item) (path : PlainPath) :
    Marker.isMatch .permissive ((Scope.ofItems items).resolve path) = true ↔
      ∃ last, (expanded items path).getLast? = some last ∧ Marker.IsMarkerName last := by
  simp only [Marker.isMatch, Marker.namesMarker, resolved_eq]
  rcases List.eq_nil_or_concat (expanded items path) with he | ⟨front, last, he⟩
  · -- No names at all read as the empty text, which is no spelling of the marker.
    rw [he]
    simp only [List.getLast?_nil, reduceCtorEq, false_and, exists_false, iff_false]
    decide
  · obtain ⟨w, hw⟩ := words_of_expanded items path last (by simp [he])
    rw [he, List.concat_eq_append, Marker.lastName_joinNames (hw ▸ w.isName), List.getLast?_append, ← hw,
      Marker.spellings_contains_iff]
    simp

/-- **The decision about the marker is exact.** An extensible struct that is reached from the items is a
candidate, and it has for every attribute of the struct a record that is the marker exactly if the names
of the attribute's path, expanded by the imports of the struct's own module, say so. -/
theorem marker_decision_exact {items : List Item} {address : Address} {site : Site} (p : ModulePath)
    (source : DiskPath) (hreach : Reaches items address site)
    (hext : Extensible site.items site.declaration) :
    ∃ candidates, (scanItems p source items).result = .ok candidates ∧
      ∃ c ∈ candidates, c = site.candidate p source ∧
        c.attributes.length = site.declaration.attributes.length ∧
        ∀ (k : Nat) (a : Attribute), site.declaration.attributes[k]? = some a → ∃ r, c.attributes[k]? = some r ∧
          (Marker.isMatch .strict r = true ↔
            expanded site.items a.path = ["idgen_macros", "identifier"]) ∧
          (Marker.isMatch .permissive r = true ↔
            ∃ last, (expanded site.items a.path).getLast? = some last ∧ Marker.IsMarkerName last) := by
  have hfound := mem_extensibleSites.mpr ⟨hreach, hext⟩
  refine ⟨_, scanItems_result p source items, site.candidate p source, ?_, rfl, ?_, ?_⟩
  · exact List.mem_map.mpr ⟨(address, site), hfound, rfl⟩
  · simp [Site.candidate]
  · intro k a ha
    refine ⟨(Scope.ofItems site.items).resolve a.path, ?_, isMatch_strict_iff _ _, isMatch_permissive_iff _ _⟩
    simp [Site.candidate, ha]

/-- An identifier with this text as a word. -/
def plainWord (s : String) (h : isIdentText false s = true := by exact .refl true) : Word := .ident ⟨false, s, h⟩

/-- `#[id] struct A(i64);` -/
def structWithId : StructDecl where
  attributes := [⟨⟨false, [plainWord "id"]⟩, .none⟩]
  name := ⟨false, "A", .refl true⟩
  isGeneric := false
  fields := .tuple [⟨.inherited, .path false (.mk false [.mk (plainWord "i64") .none])⟩]

/-- The struct after two imports of its attribute: `use other::id;` and
`use idgen_macros::{identifier as id};`. -/
def importsIdTwice : List Item := [
  .use (.path (plainWord "other") (.name (plainWord "id"))),
  .use (.path (plainWord "idgen_macros") (.group [.rename (plainWord "identifier") (plainWord "id")])),
  .struct structWithId]

/-- Of two imports the last one counts, so the attribute is the marker also under the strict policy. -/
theorem marker_decision_importsIdTwice :
    ∃ candidates, (scanItems .root ⟨[]⟩ [.module (plainWord "m") (some importsIdTwice)]).result =
        .ok candidates ∧
      ∃ c ∈ candidates, ∃ r, c.attributes[0]? = some r ∧ Marker.isMatch .strict r = true := by
  have hext : Extensible importsIdTwice structWithId :=
    StructDecl.obstacle?_eq_none_iff.mp (by decide +kernel)
  have hreach : Reaches [.module (plainWord "m") (some importsIdTwice)] [0, 2]
      (Site.under (plainWord "m") ⟨[], importsIdTwice, structWithId⟩) := .inside rfl (.here rfl)
  obtain ⟨candidates, hscan, c, hc, _, _, hrecords⟩ := marker_decision_exact .root ⟨[]⟩ hreach hext
  obtain ⟨r, hr, hstrict, _⟩ := hrecords 0 _ rfl
  exact ⟨candidates, hscan, c, hc, r, hr, hstrict.mpr (by decide +kernel)⟩

end TypedId
