import TypedId.Proofs.Lexing
import TypedId.Proofs.UnitItems

/-!
Printed lines read back. A line is apart if no part of it can be taken for the beginning of something longer;
the text of such lines is cut up into their lexemes again (`ofText?_linesText`). The lines of a unit are apart
wherever they break, whatever the name of the type is, so the code of a unit is read as the blocks that
it was laid out from (`GeneratedUnit.ofText?_code`).
-/
namespace TypedId

/-! ## Parts that stay apart -/

namespace Part

/-- The parts cannot go on with a word that stands before them. -/
def endsWord : List Part → Bool
  | [] => true
  | mark c :: _ => c != '#'
  | opening _ :: _ => true
  | closing _ :: _ => true
  | blank :: _ => true
  | _ => false

/-- The parts cannot go on with a number that stands before them. -/
def endsNumber : List Part → Bool
  | mark c :: _ => c != '.'
  | ps => endsWord ps

/-- The text can stand on a line of documentation. -/
def isDocText (text : List Char) : Bool :=
  !text.contains '\n' && !text.contains '\r' && text.head? != some '/'

/-- No part of the line can be taken for the beginning of something longer. -/
def apart : List Part → Bool
  | [] => true
  | mark c :: rest => Lexeme.plainMarks.contains c && apart rest
  | token (.word _) :: rest => endsWord rest && apart rest
  | token (.lifetime _) :: rest => endsWord rest && apart rest
  | token (.literal l) :: rest => l == ⟨.int, "0"⟩ && endsNumber rest && apart rest
  | token _ :: _ => false
  | opening _ :: rest => apart rest
  | closing _ :: rest => apart rest
  | doc text :: rest => rest.isEmpty && isDocText text
  | blank :: rest => apart rest

end Part

namespace Phrase

open Lexeme

@[simp]
theorem text_nil : text [] = [] := rfl

@[simp]
theorem text_cons (p : Part) (ps : Phrase) : text (p :: ps) = p.text ++ text ps := List.flatMap_cons

/-- A plain mark but `#` cannot go on with a word. -/
theorem endsWord_mark {c : Char} (hc : c ∈ plainMarks) (hmark : c ≠ '#') (rest : List Char) :
    EndsWord (c :: rest) := by
  have hall : ∀ d ∈ plainMarks, d ≠ '#' → Text.isIdentContinue d = false ∧ d ∉ LiteralText.quotes :=
    Text.forall_mem_of_all (by decide)
  intro d hd
  cases hd
  exact hall c hc hmark

theorem endsWord_text {ps : Phrase} (h : Part.endsWord ps = true) (hapart : Part.apart ps = true)
    (rest : List Char) : EndsWord (text ps ++ '\n' :: rest) := by
  cases ps with
  | nil => exact fun c hc => by cases hc; decide
  | cons p more =>
    cases p with
    | mark c =>
      simp only [Part.apart, Bool.and_eq_true, List.contains_iff_mem] at hapart
      exact endsWord_mark hapart.1 (by simpa [Part.endsWord] using h) _
    | opening d => exact fun c hc => by cases hc; cases d <;> decide
    | closing d => exact fun c hc => by cases hc; cases d <;> decide
    | blank => exact fun c hc => by cases hc; decide
    | _ => cases h

theorem endsNumber_text {ps : Phrase} (h : Part.endsNumber ps = true) (hapart : Part.apart ps = true)
    (rest : List Char) : EndsNumber (text ps ++ '\n' :: rest) := by
  have hmarks : ∀ d ∈ plainMarks, Text.isIdentContinue d = false := Text.forall_mem_of_all (by decide)
  cases ps with
  | nil => exact fun c hc => by cases hc; decide
  | cons p more =>
    cases p with
    | mark c =>
      simp only [Part.apart, Bool.and_eq_true, List.contains_iff_mem] at hapart
      intro d hd
      cases hd
      exact ⟨hmarks c hapart.1, by simpa [Part.endsNumber] using h⟩
    | opening d => exact fun c hc => by cases hc; cases d <;> decide
    | closing d => exact fun c hc => by cases hc; cases d <;> decide
    | blank => exact fun c hc => by cases hc; decide
    | _ => cases h

/-- A mark is joint in the text if it is in the parts. -/
theorem startsPunct_text {ps : Phrase} (hapart : Part.apart ps = true) (rest : List Char) :
    startsPunct (text ps ++ '\n' :: rest) = Part.goesOnPunct ps := by
  cases ps with
  | nil => rfl
  | cons p more =>
    rw [text_cons, List.append_assoc]
    cases p with
    | mark c =>
      simp only [Part.apart, Bool.and_eq_true, List.contains_iff_mem] at hapart
      exact startsPunct_of_plainMarks hapart.1 _
    | token t =>
      cases t with
      | word w =>
        obtain ⟨c, others, hw, hc⟩ := spelling_cons w
        rw [Part.text, Token.print, hw]
        exact startsPunct_eq_false hc _
      | lifetime w =>
        rw [Part.text, Token.print, String.toList_append]
        rfl
      | literal l =>
        simp only [Part.apart, Bool.and_eq_true, beq_iff_eq] at hapart
        obtain ⟨⟨rfl, _⟩, _⟩ := hapart
        rfl
      | _ => cases hapart
    | opening d => cases d <;> rfl
    | closing d => cases d <;> rfl
    | doc cs => rfl
    | blank => rfl

theorem ofText?_text {ps : Phrase} (h : Part.apart ps = true) (rest : List Char) :
    ofText? (text ps ++ '\n' :: rest) = (ofText? rest).map (Part.lexemes ps ++ ·) := by
  -- Part by part; what comes after a part tells where it ends.
  induction ps with
  | nil =>
    rw [text_nil, List.nil_append, ofText?_blank (by decide)]
    simp [Part.lexemes]
  | cons p more ih =>
    have hcut : ∀ l, Cuts p.text l (text more ++ '\n' :: rest) → Part.apart more = true →
        ofText? (text (p :: more) ++ '\n' :: rest) =
          (ofText? rest).map ((l :: Part.lexemes more) ++ ·) := by
      intro l hl hmore
      rw [text_cons, List.append_assoc, hl.ofText?, ih hmore, Option.map_map]
      rfl
    cases p with
    | mark c =>
      simp only [Part.apart, Bool.and_eq_true, List.contains_iff_mem] at h
      have hmark := cuts_mark h.1 (text more ++ '\n' :: rest)
      rw [startsPunct_text h.2] at hmark
      exact hcut _ hmark h.2
    | token t =>
      cases t with
      | word w =>
        simp only [Part.apart, Bool.and_eq_true] at h
        exact hcut _ (cuts_word w (endsWord_text h.1 h.2 rest)) h.2
      | lifetime w =>
        simp only [Part.apart, Bool.and_eq_true] at h
        refine hcut _ ?_ h.2
        rw [Part.text, Token.print, String.toList_append]
        exact cuts_lifetime w (endsWord_text h.1 h.2 rest)
      | literal l =>
        simp only [Part.apart, Bool.and_eq_true, beq_iff_eq] at h
        obtain ⟨⟨rfl, hends⟩, hmore⟩ := h
        exact hcut _ (cuts_zero (endsNumber_text hends hmore rest)) hmore
      | _ => cases h
    | opening d => exact hcut _ (cuts_opening d _) h
    | closing d => exact hcut _ (cuts_closing d _) h
    | blank =>
      rw [text_cons, List.append_assoc]
      exact (ofText?_blank (by decide) _).trans (ih h)
    | doc cs =>
      simp only [Part.apart, Part.isDocText, Bool.and_eq_true, List.isEmpty_iff] at h
      obtain ⟨rfl, ⟨hfeed, hreturn⟩, hslash⟩ := h
      exact hcut _ (cuts_doc (by simpa using hfeed) (by simpa using hreturn) (by simpa using hslash) rest) rfl

end Phrase

open Lexeme

theorem ofText?_replicate (n : Nat) (rest : List Char) :
    ofText? (List.replicate n ' ' ++ rest) = ofText? rest := by
  induction n with
  | zero => rfl
  | succ n ih => rw [List.replicate_succ, List.cons_append, ofText?_blank (by decide), ih]

/-- The text of lines whose parts stay apart is cut up into the lexemes of the lines. -/
theorem ofText?_linesText {ls : List Line} (h : ∀ l ∈ ls, Part.apart l.parts = true) :
    ofText? (linesText ls) = some (linesLexemes ls) := by
  induction ls with
  | nil => rw [linesText, List.flatMap_nil, ofText?]; rfl
  | cons l rest ih =>
    have hrest := ih fun m hm => h m (List.mem_cons_of_mem l hm)
    rw [linesText, List.flatMap_cons, Line.text, List.append_assoc, List.append_assoc, ofText?_replicate,
      List.singleton_append, Phrase.ofText?_text (h l List.mem_cons_self)]
    rw [linesText] at hrest
    rw [hrest]
    rfl

/-! ## The lines of a unit -/

namespace Template

open Phrase

/-- No part of a line can be taken for the beginning of something longer. -/
def apart (ls : List Line) : Bool := ls.all fun l => Part.apart l.parts

theorem apart_append (ls ms : List Line) : apart (ls ++ ms) = (apart ls && apart ms) := List.all_append

theorem apart_inherentBlock (n : Ident) : apart (inherentBlock (name n)) = true := by
  simp only [inherentBlock, method, functionHead]
  split <;> split <;> rfl

theorem apart_traitBlock (n : Ident) (t : GeneratedTrait) :
    apart (traitBlock t (name n) (traitMembers t)) = true := by
  cases t
  all_goals
    simp only [traitBlock, traitMembers, printing, method, functionHead, implHead]
    repeat' split
  all_goals rfl

theorem apart_conversionBlock (source target : Ident) (body : Phrase)
    (hbody : body = wrap (plain "value") ∨ body = stored (plain "value")) :
    apart (conversionBlock (name source) (name target) body) = true := by
  simp only [conversionBlock, method, functionHead, implHead]
  rcases hbody with rfl | rfl
  all_goals repeat' split
  all_goals rfl

theorem apart_lines (n : Ident) : ∀ l ∈ lines n, Part.apart l.parts = true := by
  have hall : apart (lines n) = true := by
    rw [lines, apart_append, apart_append, apart_append, apart_inherentBlock,
      show integer = name i64 from rfl, apart_conversionBlock i64 n _ (Or.inl rfl),
      apart_conversionBlock n i64 _ (Or.inr rfl)]
    simp only [apart, List.all_flatMap, Bool.true_and, Bool.and_true, List.all_eq_true]
    intro t _ l hl
    exact List.all_eq_true.mp (apart_traitBlock n t) l hl
  exact List.all_eq_true.mp hall

/-- A unit begins with the word `impl`. -/
theorem lines_cons (n : Ident) : ∃ rest, linesText (lines n) = 'i' :: rest := ⟨_, rfl⟩

theorem lexemes_cons (n : Ident) :
    ∃ rest, linesLexemes (lines n) = .leaf (.keyword .kwImpl) :: rest := ⟨_, rfl⟩

end Template

namespace GeneratedUnit

theorem toList_code (n : Ident) : (code n).toList = linesText (Template.lines n) := by
  rw [code, String.toList_ofList]

theorem lexemes_code (n : Ident) : Lexeme.ofText? (code n).toList = some (linesLexemes (Template.lines n)) := by
  rw [toList_code, ofText?_linesText (Template.apart_lines n)]

/-- The code of a unit has the tokens that it was laid out from. -/
theorem lex?_code (n : Ident) : Token.lex? (code n).toList = Template.tokens? n := by
  obtain ⟨rest, hrest⟩ := Template.lines_cons n
  have hmark : Token.dropMark (code n).toList = (code n).toList := by
    rw [toList_code, hrest]
    rfl
  rw [Token.lex?, hmark, lexemes_code, Option.bind_some, Template.tokens?]

/-- The code of a unit is read as the blocks of the unit. -/
theorem ofText?_code (n : Ident) :
    SourceTree.ofText? (code n) = some ⟨0, (Template.blocks n).map .impl⟩ := by
  obtain ⟨rest, hrest⟩ := Template.lines_cons n
  have hfront : dropInterpreterLine (Token.dropMark (code n).toList) = (code n).toList := by
    rw [toList_code, hrest]
    rfl
  rw [SourceTree.ofText?, hfront, lex?_code, Template.tokens?_reads]

end GeneratedUnit

end TypedId

