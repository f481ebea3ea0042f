import TypedId.Proofs.Names
import TypedId.Unit.Basic

/-!
Texts that read as one identifier. Blanks may stand around the identifier, but without a slash no comment can,
so such a text holds nothing but blanks, a byte order mark and the characters of the identifier
(`spelling_of_isIdentifier`). Without its raw mark it is still a name of its own
(`isPlain_unraw_of_isIdentifier`).
-/
namespace TypedId

/-! ## Sizes of tokens and lexemes -/

namespace Token

theorem sizeAll_append (ts us : List Token) : sizeAll (ts ++ us) = sizeAll ts + sizeAll us := by
  induction ts with
  | nil => simp [sizeAll]
  | cons t rest ih =>
    simp only [List.cons_append, sizeAll, ih]
    omega

theorem sizeAll_reverse (ts : List Token) : sizeAll ts.reverse = sizeAll ts := by
  induction ts with
  | nil => rfl
  | cons t rest ih =>
    simp only [List.reverse_cons, sizeAll_append, sizeAll, ih]
    omega

theorem size_pos (t : Token) : 0 < t.size := by
  cases t <;> simp only [size] <;> omega

end Token

namespace Lexeme

/-- What a lexeme adds to the size of the tokens; a group takes as much as its two brackets. -/
def weight : Lexeme → Nat
  | leaf t => t.size
  | doc inner text => Token.sizeAll (docTokens inner text)
  | opening _ => 1
  | closing _ => 1

theorem weight_pos (l : Lexeme) : 0 < l.weight := by
  cases l with
  | leaf t => exact t.size_pos
  | doc inner text => cases inner <;> simp [weight, docTokens, Token.sizeAll, Token.size]
  | opening d => exact Nat.one_pos
  | closing d => exact Nat.one_pos

/-- What some lexemes add. -/
def weights : List Lexeme → Nat
  | [] => 0
  | l :: rest => l.weight + weights rest

/-- The size of the tokens before the brackets that are still open, and of these. -/
def openSize : List (Delimiter × List Token) → Nat
  | [] => 0
  | g :: outer => Token.sizeAll g.2 + 1 + openSize outer

/-- Matching brackets up loses no token. -/
theorem sizeAll_of_nestFrom {ls : List Lexeme} {done ts : List Token} {stack : List (Delimiter × List Token)}
    (h : nestFrom ls done stack = some ts) :
    Token.sizeAll ts = weights ls + Token.sizeAll done + openSize stack := by
  induction ls generalizing done stack with
  | nil =>
    cases stack with
    | nil =>
      cases h
      simp [weights, openSize, Token.sizeAll_reverse]
    | cons g rest => cases h
  | cons l rest ih =>
    cases l with
    | leaf t =>
      rw [ih h]
      simp only [weights, weight, Token.sizeAll]
      omega
    | doc inner text =>
      rw [ih h]
      simp only [weights, weight, Token.sizeAll_append, Token.sizeAll_reverse]
      omega
    | opening d =>
      rw [ih h]
      simp only [weights, weight, openSize, Token.sizeAll]
      omega
    | closing d =>
      cases stack with
      | nil => cases h
      | cons g outer =>
        obtain ⟨d', before⟩ := g
        rw [nestFrom] at h
        split at h
        · rw [ih h]
          simp only [weights, weight, openSize, Token.sizeAll, Token.size, Token.sizeAll_reverse]
          omega
        · cases h

/-- One word comes of nothing but its lexeme. -/
theorem eq_of_nest_word {ls : List Lexeme} {w : Word} (h : nest ls = some [.word w]) :
    ls = [.leaf (.word w)] := by
  -- Every lexeme weighs something and one word weighs one, so there is no second lexeme.
  have hsize := sizeAll_of_nestFrom h
  simp only [Token.sizeAll, Token.size, openSize] at hsize
  match ls, h, hsize with
  | [], h, _ => cases h
  | [leaf t], h, _ =>
    cases h
    rfl
  | [doc inner text], h, _ => cases inner <;> cases h
  | [opening d], h, _ => cases h
  | [closing d], h, _ => cases h
  | l :: l' :: rest, _, hsize =>
    have := l.weight_pos
    have := l'.weight_pos
    simp only [weights] at hsize
    omega

/-! ## A word in the text -/

theorem anyWord?_ident {cs : List Char} {i : Ident} {n : Nat} (h : anyWord? cs = some (.ident i, n)) :
    0 < n ∧ cs.take n = i.spelling.toList := by
  unfold anyWord? at h
  dsimp only at h
  generalize hmarked : (if (cs.take 2 == ['r', '#']) = true then 2 else 0) = marked at h
  split at h
  · cases h
  · next hpos =>
    obtain ⟨w, hw, heq⟩ := Option.map_eq_some_iff.mp h
    cases heq
    refine ⟨by omega, ?_⟩
    unfold Word.ofText? at hw
    split at hw
    · cases hw
      rw [Ident.toList_spelling, Nat.add_comm, List.take_add, String.toList_ofList]
      have hmark : cs.take marked = if (cs.take 2 == ['r', '#']) = true then ['r', '#'] else [] := by
        subst hmarked
        split
        · next hraw => exact beq_iff_eq.mp hraw
        · rfl
      rw [hmark]
    · split at hw
      · cases hw
      · obtain ⟨k, _, hk⟩ := Option.map_eq_some_iff.mp hw
        cases hk

theorem punct?_ne_word {cs : List Char} {w : Word} {n : Nat} : punct? cs ≠ some (.word w, n) := by
  intro h
  unfold punct? at h
  split at h
  · cases h
  · split at h
    · next rest =>
      unfold tick? at h
      split at h
      · cases h
      · dsimp only at h
        split at h
        · cases h
        · split at h
          · cases h
          · obtain ⟨_, _, heq⟩ := Option.map_eq_some_iff.mp h
            cases heq
    · cases h
    · cases h

theorem anyWord?_of_leaf? {cs : List Char} {w : Word} {n : Nat} (h : leaf? cs = some (.word w, n)) :
    anyWord? cs = some (w, n) := by
  unfold leaf? at h
  split at h
  · cases h
  · split at h
    · next found hfound =>
      cases h
      exact absurd hfound punct?_ne_word
    · obtain ⟨found, hfound, heq⟩ := Option.map_eq_some_iff.mp h
      cases heq
      unfold word? at hfound
      split at hfound
      · cases hfound
      · exact hfound

theorem leaf?_of_front? {cs : List Char} {t : Token} {n : Nat} (h : front? cs = some (.leaf t, n)) :
    leaf? cs = some (t, n) := by
  unfold front? at h
  split at h
  · split at h <;> cases h
  · split at h
    case h_7 =>
      obtain ⟨found, hfound, heq⟩ := Option.map_eq_some_iff.mp h
      cases heq
      exact hfound
    all_goals cases h

/-! ## A text without a slash -/

theorem trivia_length?_cons {c : Char} (hc : c ≠ '/') (rest : List Char) :
    Trivia.length? (c :: rest) = if Text.isBlank c then some 1 else none := by
  have hdoc : Trivia.isDocStart (c :: rest) = false := by
    unfold Trivia.isDocStart
    split <;> first | rfl | (next h => cases h; exact absurd rfl hc)
  unfold Trivia.length?
  rw [hdoc, if_neg (by decide)]
  split
  case h_4 h => cases h; rfl
  case h_5 h => cases h
  all_goals
    next h =>
    cases h
    exact absurd rfl hc

/-- A text without a slash has no lexeme only if it is blank. -/
theorem isBlank_of_ofText?_nil {cs : List Char} (hs : '/' ∉ cs) (h : ofText? cs = some []) :
    ∀ c ∈ cs, Text.isBlank c = true := by
  induction cs with
  | nil =>
    intro c hc
    cases hc
  | cons c rest ih =>
    rw [List.mem_cons, not_or] at hs
    rw [ofText?, trivia_length?_cons (Ne.symm hs.1)] at h
    split at h
    · next n hn =>
      split at hn
      · next hblank =>
        cases hn
        intro c' hc'
        rcases List.mem_cons.mp hc' with rfl | hc'
        · exact hblank
        · exact ih hs.2 h c' hc'
      · cases hn
    · split at h
      · obtain ⟨ls, _, heq⟩ := Option.map_eq_some_iff.mp h
        cases heq
      · cases h

/-- A text without a slash that is one identifier is its spelling with blanks around it. -/
theorem spelling_of_ofText? {cs : List Char} {i : Ident} (hs : '/' ∉ cs)
    (h : ofText? cs = some [.leaf (.word (.ident i))]) :
    ∃ before after, cs = before ++ i.spelling.toList ++ after ∧
      (∀ c ∈ before, Text.isBlank c = true) ∧ ∀ c ∈ after, Text.isBlank c = true := by
  -- Along the blanks before the identifier; once it is read, nothing but blanks can follow.
  induction cs with
  | nil => cases (ofText?.eq_1 ▸ h)
  | cons c rest ih =>
    have hs' := hs
    rw [List.mem_cons, not_or] at hs'
    rw [ofText?, trivia_length?_cons (Ne.symm hs'.1)] at h
    split at h
    · next n hn =>
      split at hn
      · next hblank =>
        cases hn
        obtain ⟨before, after, hrest, hbefore, hafter⟩ := ih hs'.2 h
        refine ⟨c :: before, after, by rw [show rest = _ from hrest]; rfl, ?_, hafter⟩
        intro c' hc'
        rcases List.mem_cons.mp hc' with rfl | hc'
        · exact hblank
        · exact hbefore c' hc'
      · cases hn
    · split at h
      · next l n hfront =>
        obtain ⟨ls, hls, heq⟩ := Option.map_eq_some_iff.mp h
        cases heq
        obtain ⟨hpos, htake⟩ := anyWord?_ident (anyWord?_of_leaf? (leaf?_of_front? hfront))
        have hdrop : rest.drop (n - 1) = (c :: rest).drop n := by
          obtain ⟨m, rfl⟩ := Nat.exists_eq_succ_of_ne_zero (Nat.ne_of_gt hpos)
          rfl
        refine ⟨[], rest.drop (n - 1), ?_, by simp, ?_⟩
        · rw [hdrop, ← htake, List.nil_append, List.take_append_drop]
        · exact isBlank_of_ofText?_nil (fun hmem => hs (List.mem_cons_of_mem c (List.mem_of_mem_drop hmem))) hls
      · cases h

end Lexeme

/-! ## Texts that read as an identifier -/

/-- A text that reads as an identifier, without a slash, is the identifier's spelling with blanks around it
and perhaps a byte order mark before them. -/
theorem spelling_of_isIdentifier {s : String} (hs : '/' ∉ s.toList) (h : isIdentifier s = true) :
    ∃ i : Ident, ∃ before after, s.toList = before ++ i.spelling.toList ++ after ∧
      (∀ c ∈ before, Text.isBlank c = true ∨ c = '\uFEFF') ∧ ∀ c ∈ after, Text.isBlank c = true := by
  obtain ⟨i, hi⟩ := Option.isSome_iff_exists.mp h
  unfold Ident.ofText? at hi
  split at hi
  · next j hlex =>
    cases hi
    obtain ⟨ls, hls, hnest⟩ := Option.bind_eq_some_iff.mp hlex
    rw [Lexeme.eq_of_nest_word hnest] at hls
    unfold Token.dropMark at hls
    split at hls
    · next rest hrest =>
      rw [hrest] at hs
      obtain ⟨before, after, heq, hbefore, hafter⟩ :=
        Lexeme.spelling_of_ofText? (fun hmem => hs (List.mem_cons_of_mem _ hmem)) hls
      refine ⟨i, '\uFEFF' :: before, after, by rw [hrest, heq]; rfl, ?_, hafter⟩
      intro c hc
      rcases List.mem_cons.mp hc with rfl | hc
      · exact Or.inr rfl
      · exact Or.inl (hbefore c hc)
    · obtain ⟨before, after, heq, hbefore, hafter⟩ := Lexeme.spelling_of_ofText? hs hls
      exact ⟨i, before, after, heq, fun c hc => Or.inl (hbefore c hc), hafter⟩
  · cases hi

/-- A text either begins with a raw mark, which `unraw` leaves out, or stays as it is. -/
theorem unraw_cases (s : String) :
    (s.toList.take 2 = ['r', '#'] ∧ "r#" ++ unraw s = s) ∨ (s.toList.take 2 ≠ ['r', '#'] ∧ unraw s = s) := by
  unfold unraw
  split
  · next rest hs =>
    refine Or.inl ⟨by rw [hs]; rfl, ?_⟩
    apply String.toList_inj.mp
    rw [String.toList_append, hs]
    simp
  · next hne =>
    refine Or.inr ⟨fun htake => hne (s.toList.drop 2) ?_, rfl⟩
    rw [← List.take_append_drop 2 s.toList, htake]
    simp

theorem mem_of_mem_unraw {s : String} {c : Char} (h : c ∈ (unraw s).toList) : c ∈ s.toList := by
  rcases unraw_cases s with ⟨_, hs⟩ | ⟨_, hs⟩
  · rw [← hs, String.toList_append]
    exact List.mem_append_right _ h
  · rwa [hs] at h

theorem count_unraw {c : Char} (hc : c ≠ 'r' ∧ c ≠ '#') (s : String) :
    (unraw s).toList.count c = s.toList.count c := by
  rcases unraw_cases s with ⟨_, hs⟩ | ⟨_, hs⟩
  · have hmark : "r#".toList.count c = 0 := by
      rw [List.count_eq_zero]
      simp [hc.1, hc.2]
    have hcount := congrArg (List.count c) (congrArg String.toList hs)
    rwa [String.toList_append, List.count_append, hmark, Nat.zero_add] at hcount
  · rw [hs]

/-- The identifier that a text spells is spelled as the text. -/
theorem Ident.spelling_of_ofSpelling? {s : String} {n : Ident} (h : ofSpelling? s = some n) :
    n.spelling = s := by
  unfold ofSpelling? at h
  dsimp only at h
  split at h
  · cases h
    rcases unraw_cases s with ⟨htake, hs⟩ | ⟨htake, hs⟩
    · simp [spelling, htake, hs]
    · simp [spelling, htake, hs]
  · cases h

theorem Ident.unraw_spelling (i : Ident) : unraw i.spelling = i.text := by
  have hword := isIdentContinue_of_isWord i.isWord_text
  have hlist := i.toList_spelling
  apply String.toList_inj.mp
  rcases unraw_cases i.spelling with ⟨htake, hs⟩ | ⟨htake, hs⟩
  · -- A mark at the front is that of the raw spelling, since no word holds its second character.
    have hmark : '#' ∈ i.spelling.toList := List.mem_of_mem_take (htake ▸ (by simp : '#' ∈ ['r', '#']))
    cases hraw : i.raw with
    | true =>
      rw [← hs, String.toList_append, hraw] at hlist
      exact List.append_cancel_left hlist
    | false =>
      rw [hlist, hraw] at hmark
      exact absurd (hword '#' hmark) (by decide)
  · cases hraw : i.raw with
    | true =>
      rw [hlist, hraw] at htake
      exact absurd rfl htake
    | false =>
      rw [hs, hlist, hraw]
      rfl

/-! ## Plain names -/

/-- A text that can be a name of a directory without being mistaken for anything else: it is not empty, and
holds no point and no slash. -/
def IsPlain (s : String) : Prop := s ≠ "" ∧ '.' ∉ s.toList ∧ '/' ∉ s.toList

theorem Ident.isPlain_text (i : Ident) : IsPlain i.text := by
  have hword := isIdentContinue_of_isWord i.isWord_text
  refine ⟨fun hempty => ?_, fun h => absurd (hword _ h) (by decide), fun h => absurd (hword _ h) (by decide)⟩
  have := i.isWord_text
  rw [hempty] at this
  cases this

/-- What is left of a text that reads as an identifier when its raw mark is left out. -/
theorem isPlain_unraw_of_isIdentifier {s : String} (hs : '/' ∉ s.toList) (h : isIdentifier s = true) :
    IsPlain (unraw s) := by
  obtain ⟨i, before, after, heq, hbefore, hafter⟩ := spelling_of_isIdentifier hs h
  refine ⟨fun hempty => ?_, fun hpoint => ?_, fun hslash => hs (mem_of_mem_unraw hslash)⟩
  · -- A mark alone is no identifier: there is no blank in it to be left out.
    have hmarks : ∀ c ∈ s.toList, c = 'r' ∨ c = '#' := by
      rcases unraw_cases s with ⟨_, hs⟩ | ⟨_, hs⟩
      · rw [← hs, hempty]
        simp
      · rw [← hs, hempty]
        simp
    have hnone : ∀ c ∈ s.toList, Text.isBlank c = false ∧ c ≠ '\uFEFF' := by
      intro c hc
      rcases hmarks c hc with rfl | rfl <;> decide
    have hbare : s.toList = i.spelling.toList := by
      cases before with
      | nil =>
        cases after with
        | nil => simpa using heq
        | cons c rest =>
          have := hnone c (by simp [heq])
          simp [hafter c List.mem_cons_self] at this
      | cons c rest =>
        have := hnone c (by simp [heq])
        rcases hbefore c List.mem_cons_self with hblank | rfl
        · simp [hblank] at this
        · exact absurd rfl this.2
    rw [String.toList_inj.mp hbare, i.unraw_spelling] at hempty
    exact i.isPlain_text.1 hempty
  · -- A point would be a blank, a byte order mark or a character of the identifier.
    have hmem : '.' ∈ before ++ i.spelling.toList ++ after := heq ▸ mem_of_mem_unraw hpoint
    simp only [List.mem_append] at hmem
    rcases hmem with (hmem | hmem) | hmem
    · rcases hbefore _ hmem with h | h
      · exact absurd h (by decide)
      · exact absurd h (by decide)
    · exact absurd hmem ((Word.ident i).not_mem_spelling (by decide))
    · exact absurd (hafter _ hmem) (by decide)

end TypedId
