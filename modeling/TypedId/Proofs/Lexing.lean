import TypedId.Proofs.Identifiers

/-!
What is read at the front of a text. A word is read whole, and as the word it is, if what comes after it cannot
belong to it (`cuts_word`); the same holds of the number zero (`cuts_zero`). A mark, a bracket, a blank and a
line of comment are read for themselves. Cutting a text up is then a matter of its pieces
(`Cuts.ofText?`, `ofText?_skip`).
-/
namespace TypedId

/-! ## Blanks -/

namespace Text

/-- What holds of all characters of a list is found by going through the list. -/
theorem forall_mem_of_all {p : Char → Prop} [DecidablePred p] {cs : List Char}
    (h : (cs.all fun c => decide (p c)) = true) : ∀ c ∈ cs, p c :=
  fun c hc => of_decide_eq_true (List.all_eq_true.mp h c hc)

theorem mem_of_inRanges {ranges : List (Nat × Nat)} {c : Char} (h : inRanges ranges c = true) :
    ∃ n ∈ ranges.flatMap (fun r => List.range' r.1 (r.2 + 1 - r.1)), c = Char.ofNat n := by
  obtain ⟨r, hr, hin⟩ := List.any_eq_true.mp h
  simp only [Bool.and_eq_true, decide_eq_true_eq] at hin
  refine ⟨c.toNat, List.mem_flatMap.mpr ⟨r, hr, ?_⟩, (Char.ofNat_toNat c).symm⟩
  rw [List.mem_range'_1]
  omega

/-- No blank belongs to a word. -/
theorem isIdentContinue_of_isBlank {c : Char} (h : isBlank c = true) : isIdentContinue c = false := by
  have hall : ∀ ranges ∈ [[(0x9, 0xD), (0x20, 0x20), (0x85, 0x85), (0xA0, 0xA0), (0x1680, 0x1680),
        (0x2000, 0x200A), (0x2028, 0x2029), (0x202F, 0x202F), (0x205F, 0x205F), (0x3000, 0x3000)],
        [(0x200E, 0x200F)]],
      ∀ n ∈ ranges.flatMap (fun r : Nat × Nat => List.range' r.1 (r.2 + 1 - r.1)),
        isIdentContinue (Char.ofNat n) = false := by decide +kernel
  rcases Bool.or_eq_true_iff.mp h with h | h
  · obtain ⟨n, hn, rfl⟩ := mem_of_inRanges h
    exact hall _ List.mem_cons_self n hn
  · obtain ⟨n, hn, rfl⟩ := mem_of_inRanges h
    exact hall _ (List.mem_cons_of_mem _ List.mem_cons_self) n hn

theorem isBlank_eq_false {c : Char} (h : isIdentContinue c = true) : isBlank c = false := by
  rw [← Bool.not_eq_true]
  intro hblank
  rw [isIdentContinue_of_isBlank hblank] at h
  cases h

end Text

/-! ## Where words end -/

/-- The characters that would make a word before them part of a literal, or belong to its mark. -/
def LiteralText.quotes : List Char := ['"', '\'', '#']

namespace Lexeme

/-- The text cannot go on with a word that stands before it. -/
def EndsWord (cs : List Char) : Prop :=
  ∀ c ∈ cs.head?, Text.isIdentContinue c = false ∧ c ∉ LiteralText.quotes

/-- After the characters of a word at the front, the text cannot go on with it. -/
def Bare (cs : List Char) : Prop := ∀ c ∈ (cs.dropWhile Text.isIdentContinue).head?, c ∉ LiteralText.quotes

theorem EndsWord.bare {cs : List Char} (h : EndsWord cs) : Bare cs := by
  intro c hc
  cases cs with
  | nil => cases hc
  | cons d rest =>
    have hd := h d rfl
    rw [List.dropWhile_cons_of_neg (by simp [hd.1])] at hc
    cases hc
    exact hd.2

theorem bare_cons {c : Char} (hc : Text.isIdentContinue c = true) {cs : List Char} :
    Bare (c :: cs) ↔ Bare cs := by
  rw [Bare, Bare, List.dropWhile_cons_of_pos hc]

theorem bare_append {xs : List Char} (hx : ∀ c ∈ xs, Text.isIdentContinue c = true) {cs : List Char}
    (h : EndsWord cs) : Bare (xs ++ cs) := by
  rw [Bare, List.dropWhile_append_of_pos hx]
  exact h.bare

/-- No quote stands at the front of a bare text, and no mark. -/
theorem Bare.not_quote {c : Char} {cs : List Char} (h : Bare (c :: cs)) : c ∉ LiteralText.quotes := by
  intro hc
  have hquotes : ∀ q ∈ LiteralText.quotes, Text.isIdentContinue q = false := Text.forall_mem_of_all (by decide)
  rw [Bare, List.dropWhile_cons_of_neg (by simp [hquotes c hc])] at h
  exact h c rfl hc

end Lexeme

namespace LiteralText

open Lexeme

/-- After its marks a raw string has a quote. -/
theorem rawLength?_eq_none (kind : LiteralKind) {cs : List Char}
    (h : (cs.dropWhile (· == '#')).head? ≠ some '"') : rawLength? kind cs = none := by
  have hdrop : cs.drop (cs.takeWhile (· == '#')).length = cs.dropWhile (· == '#') := by
    have happend := List.takeWhile_append_dropWhile (p := (· == '#')) (l := cs)
    calc cs.drop (cs.takeWhile (· == '#')).length
        = (cs.takeWhile (· == '#') ++ cs.dropWhile (· == '#')).drop (cs.takeWhile (· == '#')).length := by
          rw [happend]
      _ = cs.dropWhile (· == '#') := List.drop_left
  unfold rawLength?
  dsimp only
  rw [hdrop]
  split
  · rfl
  · split
    · next heq =>
      rw [heq] at h
      exact absurd rfl h
    · rfl

theorem rawLength?_of_bare (kind : LiteralKind) {cs : List Char} (h : Bare cs) : rawLength? kind cs = none := by
  apply rawLength?_eq_none
  cases cs with
  | nil => simp
  | cons c rest =>
    have hc := h.not_quote
    simp only [quotes, List.mem_cons, List.not_mem_nil, or_false, not_or] at hc
    rw [List.dropWhile_cons_of_neg (by simpa using hc.2.2)]
    simpa using hc.1

theorem quotedLength?_eq_none {cs : List Char} (h : Bare cs) : quotedLength? cs = none := by
  have hb : ∀ {rest}, Bare ('b' :: rest) → Bare rest := fun h => (bare_cons (by decide)).mp h
  have hc : ∀ {rest}, Bare ('c' :: rest) → Bare rest := fun h => (bare_cons (by decide)).mp h
  have hr : ∀ {rest}, Bare ('r' :: rest) → Bare rest := fun h => (bare_cons (by decide)).mp h
  unfold quotedLength?
  split
  · exact absurd (by decide) h.not_quote
  · exact absurd (by decide) (hb h).not_quote
  · exact absurd (by decide) (hc h).not_quote
  · exact absurd (by decide) (hb h).not_quote
  · rw [rawLength?_of_bare _ (hr (hb h))]; rfl
  · rw [rawLength?_of_bare _ (hr (hc h))]; rfl
  · rw [rawLength?_of_bare _ (hr h)]; rfl
  · exact absurd (by decide) h.not_quote
  · rfl

end LiteralText

/-! ## Cutting off one piece -/

namespace Lexeme

/-- The text is cut off as this lexeme where `rest` comes after it. -/
structure Cuts (xs : List Char) (l : Lexeme) (rest : List Char) : Prop where
  ne_nil : xs ≠ []
  trivia : Trivia.length? (xs ++ rest) = none
  front : front? (xs ++ rest) = some (l, xs.length)

theorem Cuts.ofText? {xs rest : List Char} {l : Lexeme} (h : Cuts xs l rest) :
    ofText? (xs ++ rest) = (ofText? rest).map (l :: ·) := by
  obtain ⟨hne, htrivia, hfront⟩ := h
  obtain ⟨c, more, rfl⟩ := List.exists_cons_of_ne_nil hne
  rw [List.cons_append] at htrivia hfront ⊢
  rw [Lexeme.ofText?]
  simp only [htrivia, hfront, List.length_cons, Nat.add_sub_cancel, List.drop_left]

/-- A blank or a comment is passed over. -/
theorem ofText?_skip {xs rest : List Char} (hne : xs ≠ [])
    (h : Trivia.length? (xs ++ rest) = some xs.length) : ofText? (xs ++ rest) = ofText? rest := by
  obtain ⟨c, more, rfl⟩ := List.exists_cons_of_ne_nil hne
  rw [List.cons_append] at h ⊢
  rw [Lexeme.ofText?]
  simp only [h, List.length_cons, Nat.add_sub_cancel, List.drop_left]

theorem ofText?_blank {c : Char} (hc : Text.isBlank c = true) (rest : List Char) :
    ofText? (c :: rest) = ofText? rest := by
  have hslash : c ≠ '/' := by
    intro heq
    subst heq
    exact absurd hc (by decide)
  exact ofText?_skip (List.cons_ne_nil c []) (by
    rw [List.singleton_append, trivia_length?_cons hslash, if_pos hc]
    rfl)

/-- A character that begins neither a comment nor a bracket begins a token without content. -/
theorem front?_cons {c : Char} (hc : c ∉ ['/', '(', '[', '\x7b', ')', ']', '\x7d']) (rest : List Char) :
    front? (c :: rest) = (leaf? (c :: rest)).map fun found => (.leaf found.1, found.2) := by
  simp only [List.mem_cons, List.not_mem_nil, or_false, not_or] at hc
  have hdoc : Trivia.doc? (c :: rest) = none := by
    unfold Trivia.doc?
    split
    case h_8 => rfl
    all_goals
      next h =>
      cases h
      exact absurd rfl hc.1
  unfold front?
  rw [hdoc]
  dsimp only
  split
  case h_7 => rfl
  all_goals
    next h =>
    cases h
    simp at hc

/-! ## Words -/

/-- A character that may begin a word. -/
def startsWord (c : Char) : Bool := Text.isIdentStart c || c == '_'

theorem isIdentContinue_of_startsWord {c : Char} (h : startsWord c = true) : Text.isIdentContinue c = true := by
  rw [startsWord, Bool.or_eq_true, beq_iff_eq] at h
  rcases h with h | rfl
  · exact isIdentContinue_of_isIdentStart h
  · decide

/-- The decimal digits, one by one. -/
theorem mem_digits {c : Char} (h : c.isDigit = true) : ∃ n ∈ List.range' 48 10, c = Char.ofNat n := by
  simp only [Char.isDigit, ge_iff_le, Bool.and_eq_true, decide_eq_true_eq, UInt32.le_iff_toNat_le] at h
  refine ⟨c.toNat, ?_, (Char.ofNat_toNat c).symm⟩
  rw [List.mem_range'_1]
  exact ⟨h.1, Nat.lt_succ_of_le h.2⟩

theorem isDigit_of_startsWord {c : Char} (h : startsWord c = true) : c.isDigit = false := by
  have hdigits : ∀ n ∈ List.range' 48 10, startsWord (Char.ofNat n) = false := by decide
  rw [← Bool.not_eq_true]
  intro hdigit
  obtain ⟨n, hn, rfl⟩ := mem_digits hdigit
  rw [hdigits n hn] at h
  cases h

end Lexeme

namespace LiteralText

open Lexeme

/-- A number begins with a digit. -/
theorem floatLength?_eq_none {c : Char} (hc : c.isDigit = false) (rest : List Char) :
    floatLength? (c :: rest) = none := by
  simp [floatLength?, hc]

theorem hexValue_of_isHexDigit {c : Char} (hc : c.isDigit = false) (h : Text.isHexDigit c = true) :
    10 ≤ Text.hexValue c := by
  simp only [Text.isHexDigit, hc, Bool.false_or, Bool.or_eq_true] at h
  unfold Text.hexValue
  rw [hc, if_neg (by simp)]
  split
  · omega
  · next hlow =>
    rw [if_pos (h.resolve_left hlow)]
    omega

theorem intLength?_eq_none {c : Char} (hc : c.isDigit = false) (rest : List Char) :
    intLength? (c :: rest) = none := by
  have hbase : baseOf (c :: rest) = (10, 0) := by
    have hzero : c ≠ '0' := by
      intro heq
      subst heq
      cases hc
    unfold baseOf
    split
    case h_4 => rfl
    all_goals
      next h =>
      cases h
      exact absurd rfl hzero
  have hdigits : digitsLength? 10 true (c :: rest) = none := by
    rw [digitsLength?]
    split
    · rfl
    · rw [if_neg (by simp [hc]), if_neg, if_pos rfl]
      simp only [Bool.and_eq_true, decide_eq_true_eq, not_and, Nat.not_lt]
      exact hexValue_of_isHexDigit hc
  simp [intLength?, hbase, hdigits]

/-- Neither a quote nor a digit stands at the front, so there is no literal. -/
theorem length?_eq_none {c : Char} {rest : List Char} (hquoted : quotedLength? (c :: rest) = none)
    (hc : c.isDigit = false) : length? (c :: rest) = none := by
  rw [length?, hquoted]
  simp [floatLength?_eq_none hc, intLength?_eq_none hc]

end LiteralText

namespace Lexeme

theorem wordLength_append {word : List Char} (hword : isWord word = true) {rest : List Char}
    (h : EndsWord rest) : LiteralText.wordLength (word ++ rest) = word.length := by
  cases word with
  | nil => cases hword
  | cons c more =>
    simp only [isWord, Bool.and_eq_true, List.all_eq_true] at hword
    have hnone : rest.takeWhile Text.isIdentContinue = [] := by
      cases rest with
      | nil => rfl
      | cons d others => rw [List.takeWhile_cons_of_neg (by simp [(h d rfl).1])]
    rw [List.cons_append, LiteralText.wordLength, if_pos hword.1, List.takeWhile_append_of_pos hword.2, hnone]
    simp

/-- No beginning of a literal stands at the front of a bare text. -/
theorem not_literalMark {cs : List Char} (h : Bare cs) :
    (literalMarks.any fun mark => mark.isPrefixOf cs) = false := by
  have hmarks : ∀ mark ∈ literalMarks,
      (mark.dropWhile Text.isIdentContinue).head?.any (LiteralText.quotes.contains ·) = true := by
    decide +kernel
  rw [List.any_eq_false]
  intro mark hmark hprefix
  obtain ⟨rest, rfl⟩ := List.isPrefixOf_iff_prefix.mp hprefix
  obtain ⟨c, hc, hquote⟩ := (Option.any_eq_true _ _).mp (hmarks mark hmark)
  refine h c ?_ (by simpa using hquote)
  rw [List.dropWhile_append]
  split
  · next hnil =>
    rw [List.isEmpty_iff.mp hnil] at hc
    cases hc
  · rw [List.head?_append, hc]
    rfl

end Lexeme

namespace Word

/-- The word is written with a raw mark. -/
def marked : Word → Bool
  | ident i => i.raw
  | keyword _ => false

/-- The word without its raw mark. -/
def text : Word → String
  | ident i => i.text
  | keyword k => k.spelling

theorem toList_spelling (w : Word) :
    w.spelling.toList = (if w.marked then ['r', '#'] else []) ++ w.text.toList := by
  cases w with
  | ident i => exact i.toList_spelling
  | keyword k => rfl

theorem isWord_text (w : Word) : isWord w.text.toList = true := by
  cases w with
  | ident i => exact i.isWord_text
  | keyword k => cases k <;> decide +kernel

theorem ofText?_text (w : Word) : ofText? w.marked w.text = some w := by
  cases w with
  | ident i => exact dif_pos i.valid
  | keyword k => cases k <;> rfl

theorem text_cons (w : Word) : ∃ c more, w.text.toList = c :: more ∧ Lexeme.startsWord c = true := by
  have hword := w.isWord_text
  cases hw : w.text.toList with
  | nil =>
    rw [hw] at hword
    cases hword
  | cons c more =>
    rw [hw, isWord, Bool.and_eq_true] at hword
    exact ⟨c, more, rfl, hword.1⟩

end Word

namespace Lexeme

variable {rest : List Char}

theorem bare_text (w : Word) (h : EndsWord rest) : Bare (w.text.toList ++ rest) :=
  bare_append (isIdentContinue_of_isWord w.isWord_text) h

/-- A word without a raw mark does not look like one with it. -/
theorem take_text (w : Word) (h : EndsWord rest) :
    ((w.text.toList ++ rest).take 2 == ['r', '#']) = false := by
  have hbare := bare_text w h
  rw [beq_eq_false_iff_ne]
  intro htake
  rw [← List.take_append_drop 2 (w.text.toList ++ rest), htake] at hbare
  exact ((bare_cons (by decide)).mp hbare).not_quote (by decide)

theorem anyWord?_spelling (w : Word) (h : EndsWord rest) :
    anyWord? (w.spelling.toList ++ rest) = some (w, w.spelling.toList.length) := by
  have hlength := wordLength_append w.isWord_text h
  have hpos : w.text.toList.length ≠ 0 := by
    obtain ⟨c, more, hw, _⟩ := w.text_cons
    simp [hw]
  have hword := w.ofText?_text
  rw [w.toList_spelling]
  cases hmarked : w.marked with
  | true =>
    rw [hmarked] at hword
    simp [anyWord?, hlength, hpos, String.ofList_toList, hword]
  | false =>
    rw [hmarked] at hword
    simp [anyWord?, take_text w h, hlength, hpos, String.ofList_toList, hword]

theorem word?_spelling (w : Word) (h : EndsWord rest) :
    word? (w.spelling.toList ++ rest) = some (w, w.spelling.toList.length) := by
  rw [word?, if_neg, anyWord?_spelling w h]
  rw [Bool.not_eq_true, w.toList_spelling]
  cases hmarked : w.marked with
  | false => exact not_literalMark (bare_text w h)
  | true =>
    obtain ⟨c, more, hw, hc⟩ := w.text_cons
    have hbare := bare_text w h
    rw [hw] at hbare ⊢
    have hquote := hbare.not_quote
    simp only [LiteralText.quotes, List.mem_cons, List.not_mem_nil, or_false, not_or] at hquote
    simp [literalMarks, List.isPrefixOf, Ne.symm hquote.1, Ne.symm hquote.2.2]

/-- Where a word stands there is no literal. -/
theorem literal?_spelling (w : Word) (h : EndsWord rest) :
    LiteralText.length? (w.spelling.toList ++ rest) = none := by
  obtain ⟨c, more, hw, hc⟩ := w.text_cons
  have hbare := bare_text w h
  rw [w.toList_spelling]
  cases hmarked : w.marked with
  | false =>
    rw [hw] at hbare ⊢
    exact LiteralText.length?_eq_none (LiteralText.quotedLength?_eq_none hbare) (isDigit_of_startsWord hc)
  | true =>
    refine LiteralText.length?_eq_none ?_ rfl
    have hquote := hbare
    rw [hw] at hquote
    have hnot := hquote.not_quote
    simp only [LiteralText.quotes, List.mem_cons, List.not_mem_nil, or_false, not_or] at hnot
    have hraw : LiteralText.rawLength? .string ('#' :: (w.text.toList ++ rest)) = none := by
      apply LiteralText.rawLength?_eq_none
      rw [List.dropWhile_cons_of_pos (by simp), hw, List.cons_append,
        List.dropWhile_cons_of_neg (by simpa using hnot.2.2)]
      simpa using hnot.1
    simp [LiteralText.quotedLength?, hraw]

/-- No punctuation is a character of a word. -/
theorem startsPunct_eq_false {c : Char} (hc : Text.isIdentContinue c = true) (rest : List Char) :
    startsPunct (c :: rest) = false := by
  have hmarks : ∀ m ∈ "~!@#$%^&*-=+|;:,<.>/?'".toList, Text.isIdentContinue m = false :=
    Text.forall_mem_of_all (by decide)
  unfold startsPunct
  split
  · rfl
  · rfl
  · next d more _ _ heq =>
    cases heq
    rw [← Bool.not_eq_true, List.contains_iff_mem]
    intro hmem
    rw [hmarks c hmem] at hc
    cases hc
  · rfl

theorem spelling_cons (w : Word) :
    ∃ c more, w.spelling.toList = c :: more ∧ Text.isIdentContinue c = true := by
  obtain ⟨c, more, hw, hc⟩ := w.text_cons
  rw [w.toList_spelling]
  cases w.marked with
  | true => exact ⟨'r', '#' :: w.text.toList, rfl, by decide⟩
  | false => exact ⟨c, more, hw, isIdentContinue_of_startsWord hc⟩

/-- A word is cut off whole, and as the word it is, where what comes after it cannot go on with it. -/
theorem cuts_word (w : Word) (h : EndsWord rest) : Cuts w.spelling.toList (.leaf (.word w)) rest := by
  have hliteral := literal?_spelling w h
  have hword := word?_spelling w h
  obtain ⟨c, more, hw, hc⟩ := spelling_cons w
  rw [hw] at hliteral hword ⊢
  have hother : ∀ d ∈ ['/', '(', '[', '\x7b', ')', ']', '\x7d'], Text.isIdentContinue d = false :=
    Text.forall_mem_of_all (by decide)
  have hfront : c ∉ ['/', '(', '[', '\x7b', ')', ']', '\x7d'] := by
    intro hmem
    rw [hother c hmem] at hc
    cases hc
  have hslash : c ≠ '/' := fun heq => hfront (heq ▸ List.mem_cons_self)
  have hpunct : punct? (c :: more ++ rest) = none := by
    unfold punct?
    rw [List.cons_append, startsPunct_eq_false hc]
    rfl
  refine ⟨List.cons_ne_nil c more, ?_, ?_⟩
  · rw [List.cons_append, trivia_length?_cons hslash, Text.isBlank_eq_false hc]
    rfl
  · rw [List.cons_append, front?_cons hfront, ← List.cons_append, leaf?, hliteral, hpunct, hword]
    rfl

/-! ## Numbers, marks and brackets -/

/-- The marks that a text can be put together from without one of them being mistaken for the beginning of
something else. -/
def plainMarks : List Char := ['#', '&', '*', '-', '=', ',', '.', ':', ';', '<', '>']

theorem startsPunct_of_plainMarks {c : Char} (hc : c ∈ plainMarks) (rest : List Char) :
    startsPunct (c :: rest) = true := by
  have hmarks : ∀ d ∈ plainMarks, "~!@#$%^&*-=+|;:,<.>/?'".toList.contains d = true :=
    Text.forall_mem_of_all (by decide)
  unfold startsPunct
  split
  · next heq =>
    cases heq
    exact absurd hc (by decide)
  · next heq =>
    cases heq
    exact absurd hc (by decide)
  · next heq =>
    cases heq
    exact hmarks c hc
  · next heq => cases heq

theorem cuts_mark {c : Char} (hc : c ∈ plainMarks) (rest : List Char) :
    Cuts [c] (.leaf (.punct c (startsPunct rest))) rest := by
  have hother : ∀ d ∈ ['/', '(', '[', '\x7b', ')', ']', '\x7d'], d ∉ plainMarks :=
    Text.forall_mem_of_all (by decide)
  have hfront : c ∉ ['/', '(', '[', '\x7b', ')', ']', '\x7d'] := fun hmem => hother c hmem hc
  have hslash : c ≠ '/' := fun heq => hfront (heq ▸ List.mem_cons_self)
  have hblank : ∀ d ∈ plainMarks, Text.isBlank d = false := Text.forall_mem_of_all (by decide)
  have hdigit : ∀ d ∈ plainMarks, d.isDigit = false := Text.forall_mem_of_all (by decide)
  have hquoted : LiteralText.quotedLength? (c :: rest) = none := by
    unfold LiteralText.quotedLength?
    split
    case h_9 => rfl
    all_goals
      next heq =>
      cases heq
      exact absurd hc (by decide)
  have hpunct : punct? (c :: rest) = some (.punct c (startsPunct rest), 1) := by
    unfold punct?
    rw [startsPunct_of_plainMarks hc, if_neg (by decide)]
    split
    · next heq =>
      cases heq
      exact absurd hc (by decide)
    · next heq =>
      cases heq
      rfl
    · next heq => cases heq
  refine ⟨List.cons_ne_nil c [], ?_, ?_⟩
  · rw [List.singleton_append, trivia_length?_cons hslash, hblank c hc]
    rfl
  · rw [List.singleton_append, front?_cons hfront, leaf?,
      LiteralText.length?_eq_none hquoted (hdigit c hc), hpunct]
    rfl

theorem cuts_opening (d : Delimiter) (rest : List Char) : Cuts [Part.openingChar d] (.opening d) rest := by
  cases d <;> exact ⟨List.cons_ne_nil _ [], rfl, rfl⟩

theorem cuts_closing (d : Delimiter) (rest : List Char) : Cuts [Part.closingChar d] (.closing d) rest := by
  cases d <;> exact ⟨List.cons_ne_nil _ [], rfl, rfl⟩

/-- The text cannot go on with a number that stands before it. -/
def EndsNumber (cs : List Char) : Prop := ∀ c ∈ cs.head?, Text.isIdentContinue c = false ∧ c ≠ '.'

theorem isDigit_of_not_isIdentContinue {c : Char} (h : Text.isIdentContinue c = false) : c.isDigit = false := by
  have hdigits : ∀ n ∈ List.range' 48 10, Text.isIdentContinue (Char.ofNat n) = true := by decide
  rw [← Bool.not_eq_true]
  intro hdigit
  obtain ⟨n, hn, rfl⟩ := mem_digits hdigit
  rw [hdigits n hn] at h
  cases h

theorem ne_of_isIdentContinue {c d : Char} (hc : Text.isIdentContinue c = false)
    (hd : Text.isIdentContinue d = true) : c ≠ d := by
  intro heq
  rw [heq, hd] at hc
  cases hc

theorem floatLength?_zero {c : Char} (hc : Text.isIdentContinue c = false) (hpoint : c ≠ '.')
    (more : List Char) : LiteralText.floatLength? ('0' :: c :: more) = none := by
  have hwhole : ('0' :: c :: more).takeWhile LiteralText.isDigitOrGap = ['0'] := by
    rw [List.takeWhile_cons_of_pos (by decide), List.takeWhile_cons_of_neg]
    simp [LiteralText.isDigitOrGap, isDigit_of_not_isIdentContinue hc, ne_of_isIdentContinue hc (d := '_') (by decide)]
  have hexponent : LiteralText.exponentPart? (c :: more) = none := by
    rw [LiteralText.exponentPart?, if_neg]
    simpa using ⟨ne_of_isIdentContinue hc (d := 'e') (by decide), ne_of_isIdentContinue hc (d := 'E') (by decide)⟩
  rw [LiteralText.floatLength?, hwhole, if_neg (by simp)]
  dsimp only [List.length_singleton, List.drop_succ_cons, List.drop_zero]
  split
  · next heq =>
    cases heq
    exact absurd rfl hpoint
  · rw [List.drop_one, List.tail_cons, hexponent]
    rfl

theorem intLength?_zero {c : Char} (hc : Text.isIdentContinue c = false) (more : List Char) :
    LiteralText.intLength? ('0' :: c :: more) = some 1 := by
  have hdigit := isDigit_of_not_isIdentContinue hc
  have hgap : (c == '_') = false := by simpa using ne_of_isIdentContinue hc (d := '_') (by decide)
  have hbase : LiteralText.baseOf ('0' :: c :: more) = (10, 0) := by
    unfold LiteralText.baseOf
    split
    case h_4 => rfl
    all_goals
      next heq =>
      cases heq
      exact absurd hc (by decide)
  have hrest : LiteralText.digitsLength? 10 false (c :: more) = some 0 := by
    rw [LiteralText.digitsLength?, hgap, if_neg (by simp), hdigit, if_neg (by simp), if_neg, if_neg (by simp)]
    simp only [Bool.and_eq_true, decide_eq_true_eq, not_and, Nat.not_lt]
    exact LiteralText.hexValue_of_isHexDigit hdigit
  have hall : LiteralText.digitsLength? 10 true ('0' :: c :: more) = some 1 := by
    rw [LiteralText.digitsLength?, if_neg (by decide), if_pos (by decide), if_neg (by decide), hrest]
    rfl
  rw [LiteralText.intLength?, hbase]
  dsimp only
  rw [List.drop_zero, hall]
  rfl

/-- The number zero is cut off whole. -/
theorem cuts_zero (h : EndsNumber rest) : Cuts ['0'] (.leaf (.literal ⟨.int, "0"⟩)) rest := by
  have hlength : LiteralText.length? ('0' :: rest) = some (.int, 1) := by
    cases rest with
    | nil => decide
    | cons c more =>
      obtain ⟨hc, hpoint⟩ := h c rfl
      have hword : LiteralText.wordLength (c :: more) = 0 := by
        rw [LiteralText.wordLength, if_neg]
        intro hstart
        rw [isIdentContinue_of_startsWord hstart] at hc
        cases hc
      have hsuffix : LiteralText.withNumberSuffix? ('0' :: c :: more) 1 = some 1 := by
        simp [LiteralText.withNumberSuffix?, hword, hc]
      have hquoted : LiteralText.quotedLength? ('0' :: c :: more) = none := rfl
      rw [LiteralText.length?, hquoted]
      simp [floatLength?_zero hc hpoint, intLength?_zero hc, hsuffix]
  refine ⟨by simp, rfl, ?_⟩
  rw [List.singleton_append, front?_cons (by decide), leaf?, hlength]
  rfl

/-- After a quote, a word is no character: no other quote comes after its first character. -/
theorem quotedCharLength?_spelling (w : Word) (h : EndsWord rest) :
    LiteralText.quotedCharLength? .char (w.spelling.toList ++ rest) = none := by
  have hsecond : ∃ c more, w.spelling.toList ++ rest = c :: more ∧ Text.isIdentContinue c = true ∧
      more.head? ≠ some '\'' := by
    obtain ⟨c, more, hw, hc⟩ := w.text_cons
    have hcontinue := isIdentContinue_of_startsWord hc
    rw [w.toList_spelling]
    cases w.marked with
    | true => exact ⟨'r', '#' :: (w.text.toList ++ rest), rfl, by decide, by simp⟩
    | false =>
      have hbare := bare_text w h
      rw [hw, List.cons_append, bare_cons hcontinue] at hbare
      refine ⟨c, more ++ rest, by rw [hw]; rfl, hcontinue, fun hquote => ?_⟩
      obtain ⟨others, hothers⟩ := List.head?_eq_some_iff.mp hquote
      rw [hothers] at hbare
      exact hbare.not_quote (by decide)
  obtain ⟨c, more, heq, hc, hquote⟩ := hsecond
  rw [heq]
  unfold LiteralText.quotedCharLength?
  split
  · next hcons =>
    cases hcons
    exact absurd hc (by decide)
  · next hcons =>
    cases hcons
    exact absurd rfl hquote
  · rfl

/-- A lifetime is cut off whole. -/
theorem cuts_lifetime (w : Word) (h : EndsWord rest) :
    Cuts ('\'' :: w.spelling.toList) (.leaf (.lifetime w)) rest := by
  have hquoted : LiteralText.quotedLength? ('\'' :: (w.spelling.toList ++ rest)) = none := by
    rw [LiteralText.quotedLength?, quotedCharLength?_spelling w h]
    rfl
  have hafter : ∀ q ∈ LiteralText.quotes, (rest.head? == some q) = false := by
    intro q hq
    rw [beq_eq_false_iff_ne]
    exact fun hhead => (h q hhead).2 hq
  have htick : tick? (w.spelling.toList ++ rest) = some (.lifetime w, w.spelling.toList.length + 1) := by
    simp [tick?, anyWord?_spelling w h, literal?_spelling w h, word?_spelling w h, hafter '\'' (by decide),
      hafter '#' (by decide)]
  have hpunct : punct? ('\'' :: (w.spelling.toList ++ rest)) =
      some (.lifetime w, w.spelling.toList.length + 1) := htick
  refine ⟨by simp, rfl, ?_⟩
  rw [List.cons_append, front?_cons (by decide), leaf?, LiteralText.length?_eq_none hquoted rfl, hpunct]
  rfl

/-! ## Comments -/

theorem lineLength_cons {c : Char} (hc : c ≠ '\n') {cs : List Char} (h : c ≠ '\r' ∨ cs.head? ≠ some '\n') :
    Trivia.lineLength (c :: cs) = Trivia.lineLength cs + 1 := by
  rw [Trivia.lineLength]
  · exact hc
  · intro tail hreturn hfeed
    simp [hreturn, hfeed] at h

/-- A line reaches up to its end; a carriage return before the line feed belongs to the end. -/
theorem lineLength_append {text : List Char} (h : '\n' ∉ text) (rest : List Char) :
    Trivia.lineLength (text ++ '\n' :: rest) = text.length ∨
      ∃ before, text = before ++ ['\r'] ∧ Trivia.lineLength (text ++ '\n' :: rest) = before.length := by
  induction text with
  | nil => exact Or.inl rfl
  | cons c more ih =>
    rw [List.mem_cons, not_or] at h
    by_cases hend : c = '\r' ∧ more = []
    · obtain ⟨rfl, rfl⟩ := hend
      exact Or.inr ⟨[], rfl, rfl⟩
    · have hcons : Trivia.lineLength (c :: more ++ '\n' :: rest) =
          Trivia.lineLength (more ++ '\n' :: rest) + 1 := by
        refine lineLength_cons (Ne.symm h.1) (Classical.or_iff_not_imp_left.mpr fun hc => ?_)
        cases more with
        | nil => exact absurd ⟨Classical.not_not.mp hc, rfl⟩ hend
        | cons d others =>
          have hd := h.2
          rw [List.mem_cons, not_or] at hd
          simpa using Ne.symm hd.1
      rw [hcons]
      rcases ih h.2 with hlength | ⟨before, rfl, hlength⟩
      · exact Or.inl (by rw [hlength]; rfl)
      · exact Or.inr ⟨c :: before, rfl, by rw [hlength]; rfl⟩

theorem trivia_comment {text : List Char} (hdoc : ∀ c ∈ text.head?, c ≠ '/' ∧ c ≠ '!') :
    Trivia.length? ('/' :: '/' :: text) = some (Trivia.lineLength text + 2) := by
  have hstart : Trivia.isDocStart ('/' :: '/' :: text) = false := by
    cases text with
    | nil => rfl
    | cons c more =>
      obtain ⟨hslash, hmark⟩ := hdoc c rfl
      simp [Trivia.isDocStart, hslash, hmark]
  simp [Trivia.length?, hstart]

/-- A plain comment is passed over up to the end of its line. -/
theorem ofText?_comment {text : List Char} (h : '\n' ∉ text) (hdoc : ∀ c ∈ text.head?, c ≠ '/' ∧ c ≠ '!')
    (rest : List Char) : ofText? ('/' :: '/' :: (text ++ '\n' :: rest)) = ofText? rest := by
  have hdoc' : ∀ c ∈ (text ++ '\n' :: rest).head?, c ≠ '/' ∧ c ≠ '!' := by
    cases text with
    | nil => simp
    | cons c more => exact hdoc
  have htrivia := trivia_comment hdoc'
  rcases lineLength_append h rest with hlength | ⟨before, rfl, hlength⟩
  · rw [hlength] at htrivia
    rw [← List.cons_append, ← List.cons_append, ofText?_skip (by simp) htrivia, ofText?_blank (by decide)]
  · rw [hlength] at htrivia
    rw [List.append_assoc] at htrivia ⊢
    rw [← List.cons_append, ← List.cons_append, ofText?_skip (by simp) htrivia, List.singleton_append,
      ofText?_blank (by decide), ofText?_blank (by decide)]

theorem noBareReturn_of_not_mem {text : List Char} (h : '\r' ∉ text) : Trivia.noBareReturn text = true := by
  induction text with
  | nil => rfl
  | cons c more ih =>
    rw [List.mem_cons, not_or] at h
    have hc : c ≠ '\r' := Ne.symm h.1
    rw [Trivia.noBareReturn]
    · exact ih h.2
    · exact fun tail heq _ => hc heq
    · exact fun heq => hc heq

/-- A documentation comment is cut off up to the end of its line. -/
theorem cuts_doc {text : List Char} (h : '\n' ∉ text) (hreturn : '\r' ∉ text) (hslash : text.head? ≠ some '/')
    (rest : List Char) : Cuts ('/' :: '/' :: '/' :: text) (.doc false text) ('\n' :: rest) := by
  have hline : Trivia.lineLength (text ++ '\n' :: rest) = text.length := by
    refine (lineLength_append h rest).resolve_right fun hsome => ?_
    obtain ⟨before, rfl, _⟩ := hsome
    exact hreturn (List.mem_append_right before (List.mem_singleton_self _))
  have hnext : (text ++ '\n' :: rest).head? ≠ some '/' := by
    cases text with
    | nil => simp
    | cons c more => exact hslash
  have hdoc : Trivia.doc? ('/' :: '/' :: '/' :: (text ++ '\n' :: rest)) =
      some ⟨text.length + 3, false, text⟩ := by
    rw [Trivia.doc?]
    · simp [Trivia.lineDoc, hline]
    · intro tail heq
      rw [heq] at hnext
      exact hnext rfl
  have hstart : Trivia.isDocStart ('/' :: '/' :: '/' :: (text ++ '\n' :: rest)) = true := by
    rw [Trivia.isDocStart]
    intro tail heq
    rw [heq] at hnext
    exact hnext rfl
  refine ⟨by simp, ?_, ?_⟩
  · simp [Trivia.length?, hstart]
  · simp [front?, hdoc, noBareReturn_of_not_mem hreturn]

end Lexeme

end TypedId

