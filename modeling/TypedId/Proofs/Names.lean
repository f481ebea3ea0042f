import TypedId.Scope
import TypedId.Proofs.PathTexts

/-!
Names and paths written out. A word is never empty and holds no colon, so a path that is joined by `::` can
be read again as its words (`parse_joinNames`), and no other words read the same
(`joinNames_inj`).
-/
namespace TypedId

/-! ## The characters of a word -/

theorem isIdentContinue_of_isIdentStart {c : Char} (h : Text.isIdentStart c = true) :
    Text.isIdentContinue c = true := by
  unfold Text.isIdentStart at h
  unfold Text.isIdentContinue
  split at h
  · next hc => simp [hc, Char.isAlphanum, h]
  · next hc => simp [hc, h]

theorem isIdentContinue_of_isWord {cs : List Char} (h : isWord cs = true) :
    ∀ c ∈ cs, Text.isIdentContinue c = true := by
  cases cs with
  | nil => simp [isWord] at h
  | cons first rest =>
    simp only [isWord, Bool.and_eq_true, Bool.or_eq_true, beq_iff_eq, List.all_eq_true] at h
    intro c hc
    rcases List.mem_cons.mp hc with rfl | hc
    · rcases h.1 with hs | rfl
      · exact isIdentContinue_of_isIdentStart hs
      · decide
    · exact h.2 c hc

theorem Ident.isWord_text (i : Ident) : isWord i.text.toList = true := by
  have h := i.valid
  simp only [isIdentText, Bool.and_eq_true] at h
  exact h.1

theorem Ident.toList_spelling (i : Ident) :
    i.spelling.toList = (if i.raw then ['r', '#'] else []) ++ i.text.toList := by
  unfold Ident.spelling
  split
  · rw [String.toList_append]; rfl
  · rfl

theorem Ident.mem_spelling (i : Ident) {c : Char} (h : c ∈ i.spelling.toList) :
    Text.isIdentContinue c = true ∨ c = '#' := by
  rw [Ident.toList_spelling] at h
  -- A character of the spelling is one of the mark or one of the text.
  rcases List.mem_append.mp h with h | h
  · split at h
    · rcases List.mem_cons.mp h with rfl | h
      · exact Or.inl (by decide)
      · exact Or.inr (List.mem_singleton.mp h)
    · cases h
  · exact Or.inl (isIdentContinue_of_isWord i.isWord_text c h)

theorem Keyword.mem_spelling (k : Keyword) : ∀ c ∈ k.spelling.toList, Text.isIdentContinue c = true := by
  have hall : k.spelling.toList.all Text.isIdentContinue = true := by cases k <;> decide +kernel
  exact List.all_eq_true.mp hall

/-- A word holds only characters of identifiers, and the sign of the raw mark. -/
theorem Word.mem_spelling (w : Word) {c : Char} (h : c ∈ w.spelling.toList) :
    Text.isIdentContinue c = true ∨ c = '#' := by
  cases w with
  | ident i => exact i.mem_spelling h
  | keyword k => exact Or.inl (k.mem_spelling c h)

theorem Word.not_mem_spelling (w : Word) {c : Char} (hc : (Text.isIdentContinue c || c == '#') = false) :
    c ∉ w.spelling.toList := by
  intro h
  rcases w.mem_spelling h with h | h
  · simp [h] at hc
  · simp [h] at hc

theorem Ident.spelling_ne_empty (i : Ident) : i.spelling ≠ "" := by
  intro h
  have hl := i.toList_spelling
  rw [h] at hl
  have hw := i.isWord_text
  rw [(List.append_eq_nil_iff.mp hl.symm).2] at hw
  cases hw

theorem Word.spelling_ne_empty (w : Word) : w.spelling ≠ "" := by
  cases w with
  | ident i => exact i.spelling_ne_empty
  | keyword k => cases k <;> decide

/-! ## Names -/

/-- A text that can be a name on a path: not empty, and without a colon. -/
def IsName (s : String) : Prop := s ≠ "" ∧ ':' ∉ s.toList

instance (s : String) : Decidable (IsName s) := inferInstanceAs (Decidable (_ ∧ _))

theorem Word.isName (w : Word) : IsName w.spelling := by
  exact ⟨w.spelling_ne_empty, w.not_mem_spelling (by decide)⟩

theorem isName_of_mem_spellings {ws : List Word} : ∀ s ∈ ws.map Word.spelling, IsName s := by
  intro s hs
  obtain ⟨w, _, rfl⟩ := List.mem_map.mp hs
  exact w.isName

/-! ## Joining and reading -/

@[simp]
theorem joinNames_nil : joinNames [] = "" := String.intercalate_nil

@[simp]
theorem joinNames_singleton (s : String) : joinNames [s] = s := String.intercalate_singleton

theorem joinNames_cons {names : List String} (s : String) (h : names ≠ []) :
    joinNames (s :: names) = s ++ "::" ++ joinNames names :=
  String.intercalate_cons_of_ne_nil h

theorem joinNames_append {xs ys : List String} (hx : xs ≠ []) (hy : ys ≠ []) :
    joinNames (xs ++ ys) = joinNames xs ++ "::" ++ joinNames ys :=
  String.intercalate_append_of_ne_nil hx hy

/-- The qualified name of a declaration is the path to it, written out with its name at the end. -/
theorem ModulePath.qualify_eq_joinNames (p : ModulePath) (name : String) :
    p.qualify name = joinNames (p.segments ++ [name]) := by
  unfold ModulePath.qualify
  split
  · next hroot =>
    rw [ModulePath.isRoot, List.isEmpty_iff] at hroot
    rw [hroot, List.nil_append, joinNames_singleton]
  · next hroot =>
    rw [ModulePath.isRoot, List.isEmpty_iff] at hroot
    rw [joinNames_append hroot (List.cons_ne_nil _ _), joinNames_singleton]
    rfl

theorem toList_around (s t : String) :
    (s ++ "::" ++ t).toList = s.toList ++ ':' :: ':' :: t.toList := by
  simp [String.toList_append]

open ModulePath

theorem isReadable_of_isName {names : List String} (h : ∀ s ∈ names, IsName s) : IsReadable ⟨names⟩ where
  ne_empty s hs := (h s hs).1
  keepApart := by
    refine KeepApart.of_not_mem fun piece hpiece => ?_
    obtain ⟨s, hs, rfl⟩ := List.mem_map.mp hpiece
    exact (h s hs).2

/-- Names joined by `::` read as the path with these names. -/
theorem parse_joinNames {names : List String} (h : ∀ s ∈ names, IsName s) : parse (joinNames names) = ⟨names⟩ :=
  parse_text_of_isReadable (isReadable_of_isName h)

/-- Two lists of names that read the same are the same. -/
theorem joinNames_inj {xs ys : List String} (hx : ∀ s ∈ xs, IsName s) (hy : ∀ s ∈ ys, IsName s)
    (h : joinNames xs = joinNames ys) : xs = ys := by
  have hpaths : (⟨xs⟩ : ModulePath) = ⟨ys⟩ := by
    rw [← parse_joinNames hx, ← parse_joinNames hy, h]
  exact congrArg segments hpaths

end TypedId
