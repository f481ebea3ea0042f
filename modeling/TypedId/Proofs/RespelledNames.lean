import TypedId.Proofs.FirstOfKey
import TypedId.Proofs.Lexing
import TypedId.Proofs.MarkerDecision

/-!
Names written raw. Of a raw identifier and the plain one with the same text the scan makes two names, so what it
answers about a name may change when the name is respelled. It does not for the names that the scan does not
ask for: a reserved word has one spelling only (`Word.Respelled.spelling_eq_keyword`), and a trait, a type or a
member of which the asked-for names are kept is told as before (`Ty.Respelled.isInteger_eq`,
`Path.TraitRespelled.isEmpty_eq`).
-/
namespace TypedId

/-! ## Words -/

/-- The same name, written raw or not. One of the `fixed` names is written alike in both. -/
inductive Word.Respelled (fixed : List String) : Word → Word → Prop where
  | keyword (k : Keyword) : Respelled fixed (.keyword k) (.keyword k)
  | ident {i j : Ident} (text : i.text = j.text) (kept : i.text ∈ fixed → i = j) :
    Respelled fixed (.ident i) (.ident j)

theorem Keyword.hash_not_mem_spelling (k : Keyword) : '#' ∉ k.spelling.toList := by
  intro h
  exact absurd (k.mem_spelling '#' h) (by decide)

theorem Ident.spelling_eq_text {i : Ident} (h : '#' ∉ i.spelling.toList) : i.spelling = i.text ∧ i.raw = false := by
  cases hraw : i.raw with
  | true =>
    rw [i.toList_spelling, hraw] at h
    simp at h
  | false => exact ⟨by rw [Ident.spelling, hraw]; rfl, rfl⟩

theorem Keyword.ofString?_spelling (k : Keyword) : ofString? k.spelling = some k := by cases k <;> rfl

/-- No identifier is spelled as a reserved word is. -/
theorem Ident.spelling_ne_keyword (i : Ident) (k : Keyword) : i.spelling ≠ k.spelling := by
  intro h
  obtain ⟨htext, hraw⟩ := i.spelling_eq_text (h ▸ k.hash_not_mem_spelling)
  have hvalid := i.valid
  rw [hraw, isIdentText, ← htext, h, k.ofString?_spelling] at hvalid
  simp at hvalid

theorem Word.spelling_injective : Function.Injective Word.spelling := by
  intro w v h
  cases w with
  | ident i =>
    cases v with
    | ident j =>
      have hread := i.ofSpelling?_spelling
      rw [show i.spelling = j.spelling from h, j.ofSpelling?_spelling, Option.some.injEq] at hread
      rw [hread]
    | keyword k => exact absurd h (i.spelling_ne_keyword k)
  | keyword k =>
    cases v with
    | ident j => exact absurd h.symm (j.spelling_ne_keyword k)
    | keyword k' =>
      have hread := k.ofString?_spelling
      rw [show k.spelling = k'.spelling from h, k'.ofString?_spelling, Option.some.injEq] at hread
      rw [hread]

theorem isIdentifier_spelling (i : Ident) : isIdentifier i.spelling = true := by
  have hspelling : i.spelling = (Word.ident i).spelling := rfl
  have hmark : Token.dropMark i.spelling.toList = i.spelling.toList := by
    have hnot := (Word.ident i).not_mem_spelling (show (Text.isIdentContinue '\uFEFF' || _) = false by decide +kernel)
    rw [← hspelling] at hnot
    rw [Token.dropMark]
    intro rest heq
    rw [heq] at hnot
    exact hnot List.mem_cons_self
  have hends : Lexeme.EndsWord [] := by
    intro c hc
    cases hc
  have hcut := (Lexeme.cuts_word (.ident i) hends).ofText?
  rw [List.append_nil, ← hspelling, Lexeme.ofText?] at hcut
  have hlex : Token.lex? i.spelling.toList = some [.word (.ident i)] := by
    rw [Token.lex?, hmark, hcut]
    rfl
  rw [isIdentifier, Ident.ofText?, hlex]
  rfl

namespace Word.Respelled

variable {fixed : List String} {w v : Word}

theorem unraw_spelling (h : Respelled fixed w v) : unraw w.spelling = unraw v.spelling := by
  cases h with
  | keyword k => rfl
  | ident text _ => rw [Word.spelling, Word.spelling, Ident.unraw_spelling, Ident.unraw_spelling, text]

theorem isIdentifier_eq (h : Respelled fixed w v) : isIdentifier w.spelling = isIdentifier v.spelling := by
  cases h with
  | keyword k => rfl
  | ident _ _ => rw [Word.spelling, Word.spelling, isIdentifier_spelling, isIdentifier_spelling]

/-- A name that is fixed is there in both spellings or in none. -/
theorem spelling_eq_iff (h : Respelled fixed w v) {s : String} (hs : s ∈ fixed) (hmark : '#' ∉ s.toList) :
    w.spelling = s ↔ v.spelling = s := by
  cases h with
  | keyword k => exact Iff.rfl
  | @ident i j text kept =>
    rw [Word.spelling, Word.spelling]
    constructor
    · rintro rfl
      rw [← kept ((i.spelling_eq_text hmark).1 ▸ hs)]
    · rintro rfl
      rw [kept (text ▸ (j.spelling_eq_text hmark).1 ▸ hs)]

/-- A reserved word is there in both spellings or in none. -/
theorem spelling_eq_keyword (h : Respelled fixed w v) (k : Keyword) :
    w.spelling = k.spelling ↔ v.spelling = k.spelling := by
  cases h with
  | keyword k' => exact Iff.rfl
  | @ident i j _ _ =>
    constructor
    · intro hi
      exact absurd hi (i.spelling_ne_keyword k)
    · intro hj
      exact absurd hj (j.spelling_ne_keyword k)

end Word.Respelled

/-- Spellings of words that are so related. -/
def Spelled (T : Word → Word → Prop) (s t : String) : Prop := ∃ w v, T w v ∧ w.spelling = s ∧ v.spelling = t

theorem Spelled.imp {T U : Word → Word → Prop} {s t : String} (hs : Spelled T s t) (h : ∀ w v, T w v → U w v) :
    Spelled U s t := by
  obtain ⟨w, v, hwv, rfl, rfl⟩ := hs
  exact ⟨w, v, h w v hwv, rfl, rfl⟩

theorem Spelled.unraw_eq {fixed : List String} {s t : String} (h : Spelled (Word.Respelled fixed) s t) :
    unraw s = unraw t := by
  obtain ⟨w, v, hwv, rfl, rfl⟩ := h
  exact hwv.unraw_spelling

theorem Spelled.isIdentifier_eq {fixed : List String} {s t : String} (h : Spelled (Word.Respelled fixed) s t) :
    isIdentifier s = isIdentifier t := by
  obtain ⟨w, v, hwv, rfl, rfl⟩ := h
  exact hwv.isIdentifier_eq

theorem forall₂_spelled {T : Word → Word → Prop} {ws vs : List Word} (h : List.Forall₂ T ws vs) :
    List.Forall₂ (Spelled T) (ws.map Word.spelling) (vs.map Word.spelling) := by
  refine List.forall₂_map_left_iff.mpr (List.forall₂_map_right_iff.mpr (h.imp ?_))
  intro w v hwv
  exact ⟨w, v, hwv, rfl, rfl⟩

/-- Names in a row are there in both spellings or in none if each of them is. -/
theorem spellings_eq_iff {T : Word → Word → Prop} {names : List String}
    (hnames : ∀ s ∈ names, ∀ w v, T w v → (w.spelling = s ↔ v.spelling = s)) {xs ys : List String}
    (h : List.Forall₂ (Spelled T) xs ys) : xs = names ↔ ys = names := by
  induction h generalizing names with
  | nil => exact Iff.rfl
  | cons hxy _ ih =>
    cases names with
    | nil => simp
    | cons s rest =>
      obtain ⟨w, v, hwv, rfl, rfl⟩ := hxy
      rw [List.cons.injEq, List.cons.injEq, hnames s List.mem_cons_self w v hwv,
        ih fun t ht => hnames t (List.mem_cons_of_mem s ht)]

/-! ## Names that the scan asks for -/

/-- The names of which the spellings of the integer consist. -/
def integerWords : List String := ["i64", "core", "std", "primitive"]

def traitWords : List String := GeneratedTrait.all.map GeneratedTrait.name

def memberWords : List String := GeneratedMember.all.map GeneratedMember.name

/-- The names of the marker's full path, which count as they are written if the policy asks for that path. -/
def markerWords : MarkerPolicy → List String
  | .strict => ["idgen_macros", "identifier"]
  | .permissive => []

theorem Word.Respelled.isTraitName_eq {fixed : List String} {w v : Word} (h : w.Respelled fixed v)
    (hfixed : ∀ s ∈ traitWords, s ∈ fixed) : GeneratedTrait.isName w.spelling = GeneratedTrait.isName v.spelling := by
  have hwords : ∀ t : GeneratedTrait, t.name ∈ traitWords ∧ '#' ∉ t.name.toList := by
    intro t
    cases t <;> decide
  rw [Bool.eq_iff_iff, GeneratedTrait.isName_iff, GeneratedTrait.isName_iff]
  exact exists_congr fun t => h.spelling_eq_iff (hfixed _ (hwords t).1) (hwords t).2

theorem Word.Respelled.isMemberName_eq {w v : Word} (h : w.Respelled memberWords v) :
    GeneratedMember.isName w.spelling = GeneratedMember.isName v.spelling := by
  have hwords : ∀ m : GeneratedMember, m.name ∈ memberWords ∧ '#' ∉ m.name.toList := by
    intro m
    cases m <;> decide
  rw [Bool.eq_iff_iff, GeneratedMember.isName_iff, GeneratedMember.isName_iff]
  exact exists_congr fun m => h.spelling_eq_iff (hwords m).1 (hwords m).2

/-! ## Paths and types -/

/-- Answers that are so related are both none, or both some. -/
theorem none_or_some_of_rel {α β : Type} {S : α → β → Prop} {a : Option α} {b : Option β} (h : Option.Rel S a b) :
    (a = none ∧ b = none) ∨ ∃ x y, a = some x ∧ b = some y ∧ S x y := by
  cases h with
  | none => exact Or.inl ⟨rfl, rfl⟩
  | some hxy => exact Or.inr ⟨_, _, rfl, rfl, hxy⟩

theorem any_eq_of_rel {α β : Type} {S : α → β → Prop} {p : α → Bool} {q : β → Bool} {a : Option α} {b : Option β}
    (h : Option.Rel S a b) (hpq : ∀ x y, S x y → p x = q y) : a.any p = b.any q := by
  cases h with
  | none => rfl
  | some hxy => exact hpq _ _ hxy

/-- The two names of a path are the same, and both have arguments or none. -/
structure Segment.Respelled (fixed : List String) (s t : Segment) : Prop where
  name : s.name.Respelled fixed t.name
  arguments : s.arguments.isNone = t.arguments.isNone

/-- The same type, as far as its names and its shape matter. -/
inductive Ty.Respelled (fixed : List String) : Ty → Ty → Prop where
  | path (qualified : Bool) {p q : Path} (leading : p.leading = q.leading)
    (segments : List.Forall₂ (Segment.Respelled fixed) p.segments q.segments) :
    Respelled fixed (.path qualified p) (.path qualified q)
  | parenthesized : Respelled fixed .parenthesized .parenthesized
  | bounds (single : Bool) : Respelled fixed (.bounds single) (.bounds single)
  | other : Respelled fixed .other .other

theorem Path.isName_of_mem_names {p : Path} : ∀ s ∈ p.names, IsName s := by
  intro s hs
  obtain ⟨segment, _, rfl⟩ := List.mem_map.mp hs
  exact segment.name.isName

/-- The names of two paths in which the spellings of the integer are kept name the integer in both or in none. -/
theorem Path.contains_integerPaths_eq {p q : Path}
    (h : List.Forall₂ (Segment.Respelled integerWords) p.segments q.segments) :
    integerPaths.contains (joinNames p.names) = integerPaths.contains (joinNames q.names) := by
  have hnames : List.Forall₂ (Spelled (Word.Respelled integerWords)) p.names q.names := by
    refine List.forall₂_map_left_iff.mpr (List.forall₂_map_right_iff.mpr (h.imp ?_))
    intro s t hst
    exact ⟨s.name, t.name, hst.name, rfl, rfl⟩
  have hwords : ∀ ns ∈ integerNames, ∀ s ∈ ns, s ∈ integerWords ∧ '#' ∉ s.toList := by decide
  have heach : ∀ ns ∈ integerNames, (p.names = ns ↔ q.names = ns) := by
    intro ns hns
    refine spellings_eq_iff (fun s hs w v hwv => ?_) hnames
    exact hwv.spelling_eq_iff (hwords ns hns s hs).1 (hwords ns hns s hs).2
  rw [Bool.eq_iff_iff, List.contains_iff_mem, List.contains_iff_mem, joinNames_mem_integerPaths p.isName_of_mem_names,
    joinNames_mem_integerPaths q.isName_of_mem_names]
  constructor
  · intro hmem
    rwa [(heach _ hmem).mp rfl]
  · intro hmem
    rwa [(heach _ hmem).mpr rfl]

theorem Ty.Respelled.isInteger_eq {t u : Ty} (h : t.Respelled integerWords u) : t.isInteger = u.isInteger := by
  cases h with
  | @path qualified p q _ segments =>
    cases qualified with
    | true => rfl
    | false =>
      have hplain : p.isPlain = q.isPlain := all_eq_of_forall₂ segments fun s t hst => hst.arguments
      rw [Ty.isInteger, Ty.isInteger, hplain, Path.contains_integerPaths_eq segments]
  | _ => rfl

/-- The last names of two paths are the same. -/
def Path.LastRespelled (fixed : List String) (p q : Path) : Prop :=
  Option.Rel (fun s t => s.name.Respelled fixed t.name) p.segments.getLast? q.segments.getLast?

theorem Path.LastRespelled.namesGeneratedTrait_eq {p q : Path} (h : p.LastRespelled traitWords q) :
    p.namesGeneratedTrait = q.namesGeneratedTrait :=
  any_eq_of_rel h fun _ _ hst => hst.isTraitName_eq fun _ hs => hs

/-! ## What a module supplies -/

/-- The last name in the path of a trait: what it names, and the type it converts from, are the same. -/
structure Segment.TraitRespelled (s t : Segment) : Prop where
  name : s.name.Respelled (conversionName :: traitWords) t.name
  converted : Option.Rel (Ty.Respelled integerWords) s.arguments.singleType? t.arguments.singleType?

/-- The same trait, as far as the scan looks at it. -/
def Path.TraitRespelled (p q : Path) : Prop :=
  Option.Rel Segment.TraitRespelled p.segments.getLast? q.segments.getLast?

inductive ImplMember.Respelled : ImplMember → ImplMember → Prop where
  | const {w v : Word} : w.Respelled memberWords v → Respelled (.const w) (.const v)
  | function {i j : Ident} : (Word.ident i).Respelled memberWords (.ident j) → Respelled (.function i) (.function j)
  | other : Respelled .other .other

theorem Path.TraitRespelled.isEmpty_eq {p q : Path} (h : p.TraitRespelled q) :
    (ImplBlock.suppliedTrait p).isEmpty = (ImplBlock.suppliedTrait q).isEmpty := by
  unfold ImplBlock.suppliedTrait
  rcases none_or_some_of_rel h with ⟨hp, hq⟩ | ⟨s, t, hp, hq, hst⟩
  · rw [hp, hq]
  · have hconversion : s.name.spelling = conversionName ↔ t.name.spelling = conversionName :=
      hst.name.spelling_eq_iff List.mem_cons_self (by decide)
    have htrait : GeneratedTrait.isName s.name.spelling = GeneratedTrait.isName t.name.spelling :=
      hst.name.isTraitName_eq fun _ => List.mem_cons_of_mem conversionName
    have hconverted : s.arguments.singleType?.any Ty.isInteger = t.arguments.singleType?.any Ty.isInteger :=
      any_eq_of_rel hst.converted fun _ _ htype => htype.isInteger_eq
    simp only [hp, hq, hconversion, htrait, hconverted]
    split
    · rfl
    · split <;> rfl

theorem ImplMember.Respelled.isEmpty_eq {m n : ImplMember} (h : m.Respelled n) :
    (ImplBlock.suppliedMember m).isEmpty = (ImplBlock.suppliedMember n).isEmpty := by
  have hfilter : ∀ w v : Word, w.Respelled memberWords v →
      ((some w.spelling).filter GeneratedMember.isName).toList.isEmpty =
        ((some v.spelling).filter GeneratedMember.isName).toList.isEmpty := by
    intro w v hwv
    have hname := hwv.isMemberName_eq
    cases hv : GeneratedMember.isName v.spelling <;> simp [Option.filter, hname, hv]
  cases h with
  | const hwv => exact hfilter _ _ hwv
  | function hij => exact hfilter _ _ hij
  | other => rfl

end TypedId
