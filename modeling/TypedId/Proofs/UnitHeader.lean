import TypedId.Proofs.PrintedLines
import TypedId.Proofs.WrittenUnits

/-!
The comment before the code of a unit. It names the type with its module path, and a name of a module may have
blanks around it; a line feed among them ends the comment. Where no name holds one, the comment adds nothing
to the code, and else it always does (`header_is_comment_iff`).
-/
namespace TypedId

/-! ## The first token -/

namespace Lexeme

/-- The tokens that have been read outside of all brackets come first, and after them the group of the
outermost bracket that is open. -/
theorem isPrefix_of_nestFrom {ls : List Lexeme} :
    (∀ done ts, nestFrom ls done [] = some ts → done.reverse <+: ts) ∧
      ∀ done stack d outer ts, nestFrom ls done (stack ++ [(d, outer)]) = some ts →
        ∃ content, outer.reverse ++ [.group d content] <+: ts := by
  induction ls with
  | nil =>
    constructor
    · intro done ts h
      cases h
      exact List.prefix_refl _
    · intro done stack d outer ts h
      cases stack <;> cases h
  | cons l rest ih =>
    obtain ⟨hflat, hopen⟩ := ih
    cases l with
    | leaf t =>
      constructor
      · intro done ts h
        refine List.IsPrefix.trans ?_ (hflat _ ts h)
        simp
      · intro done stack d outer ts h
        exact hopen _ stack d outer ts h
    | doc inner text =>
      constructor
      · intro done ts h
        refine List.IsPrefix.trans ?_ (hflat _ ts h)
        simp
      · intro done stack d outer ts h
        exact hopen _ stack d outer ts h
    | opening d' =>
      constructor
      · intro done ts h
        obtain ⟨content, hcontent⟩ := hopen [] [] d' done ts h
        exact (List.prefix_append _ _).trans hcontent
      · intro done stack d outer ts h
        exact hopen [] ((d', done) :: stack) d outer ts h
    | closing d' =>
      constructor
      · intro done ts h
        cases h
      · intro done stack d outer ts h
        cases stack with
        | nil =>
          rw [List.nil_append, nestFrom] at h
          split at h
          · next heq =>
            subst heq
            exact ⟨done.reverse, by simpa using hflat _ ts h⟩
          · cases h
        | cons g more =>
          rw [List.cons_append, nestFrom] at h
          split at h
          · exact hopen _ more d outer ts h
          · cases h

/-- Tokens that begin with a word come of lexemes that begin with it. -/
theorem word_of_nest {ls : List Lexeme} {w : Word} {ts : List Token} (h : nest ls = some (.word w :: ts)) :
    ∃ rest, ls = .leaf (.word w) :: rest := by
  cases ls with
  | nil => cases h
  | cons l rest =>
    cases l with
    | leaf t =>
      have hfirst := isPrefix_of_nestFrom.1 [t] _ h
      rw [List.reverse_singleton, List.cons_prefix_cons] at hfirst
      exact ⟨rest, by rw [hfirst.1]⟩
    | doc inner text =>
      have hfirst := isPrefix_of_nestFrom.1 ((docTokens inner text).reverse ++ []) _ h
      rw [List.append_nil, List.reverse_reverse, docTokens, List.append_assoc, List.singleton_append,
        List.cons_prefix_cons] at hfirst
      cases hfirst.1
    | opening d =>
      obtain ⟨content, hfirst⟩ := isPrefix_of_nestFrom.2 [] [] d [] _ h
      rw [List.reverse_nil, List.nil_append, List.cons_prefix_cons] at hfirst
      cases hfirst.1
    | closing d => cases h

end Lexeme

/-! ## Texts that displace the code -/

namespace Lexeme

/-- Before this text, no text is read as one that begins with `impl`. -/
def Displaces (xs : List Char) : Prop :=
  ∀ rest ls, ofText? (xs ++ rest) ≠ some (.leaf (.keyword .kwImpl) :: ls)

theorem displaces_colon (xs : List Char) : Displaces (':' :: xs) := by
  intro rest ls hls
  rw [List.cons_append, ← List.singleton_append, (cuts_mark (by decide) (xs ++ rest)).ofText?] at hls
  obtain ⟨more, _, heq⟩ := Option.map_eq_some_iff.mp hls
  cases heq

theorem displaces_ident (i : Ident) {xs : List Char} (hne : xs ≠ []) (h : EndsWord xs) :
    Displaces (i.spelling.toList ++ xs) := by
  intro rest ls hls
  have hends : EndsWord (xs ++ rest) := by
    obtain ⟨c, more, rfl⟩ := List.exists_cons_of_ne_nil hne
    exact h
  have hcut := (cuts_word (.ident i) hends).ofText?
  rw [Word.spelling] at hcut
  rw [List.append_assoc, hcut] at hls
  obtain ⟨more, _, heq⟩ := Option.map_eq_some_iff.mp hls
  cases heq

/-- A byte order mark is read only at the front of a whole text. -/
theorem ofText?_byteOrderMark (rest : List Char) : ofText? ('\uFEFF' :: rest) = none := by
  have hliteral : LiteralText.length? ('\uFEFF' :: rest) = none := LiteralText.length?_eq_none rfl rfl
  have hpunct : punct? ('\uFEFF' :: rest) = none := rfl
  have hword : word? ('\uFEFF' :: rest) = none := by
    have hends : EndsWord ('\uFEFF' :: rest) := by
      intro c hc
      cases hc
      decide +kernel
    have hstart : (Text.isIdentStart '\uFEFF' || '\uFEFF' == '_') = false := by decide +kernel
    have hlength : LiteralText.wordLength ('\uFEFF' :: rest) = 0 := by
      rw [LiteralText.wordLength, hstart, if_neg (by decide)]
    rw [word?, not_literalMark hends.bare, if_neg (by decide)]
    simp [anyWord?, hlength]
  have hfront : front? ('\uFEFF' :: rest) = none := by
    rw [front?_cons (by decide), leaf?, hliteral, hpunct, hword]
    rfl
  rw [ofText?, trivia_length?_cons (by decide), if_neg (by decide), hfront]

theorem Displaces.blanks {bs : List Char} (hbs : ∀ c ∈ bs, Text.isBlank c = true ∨ c = '\uFEFF')
    {xs : List Char} (h : Displaces xs) : Displaces (bs ++ xs) := by
  induction bs with
  | nil => exact h
  | cons c more ih =>
    have hmore := ih fun d hd => hbs d (List.mem_cons_of_mem c hd)
    intro rest ls hls
    rw [List.cons_append, List.cons_append] at hls
    rcases hbs c List.mem_cons_self with hblank | rfl
    · rw [ofText?_blank hblank] at hls
      exact hmore rest ls hls
    · rw [ofText?_byteOrderMark] at hls
      cases hls

/-- What comes after a line feed in a text that reads as an identifier is blank, or the identifier and blanks
around it. In both cases it displaces what comes after the next colon. -/
theorem displaces_of_isIdentifier {s : String} (hslash : '/' ∉ s.toList) (hs : isIdentifier s = true)
    {xs ys : List Char} (hsplit : s.toList = xs ++ '\n' :: ys) (zs : List Char) : Displaces (ys ++ ':' :: zs) := by
  obtain ⟨i, before, after, heq, hbefore, hafter⟩ := spelling_of_isIdentifier hslash hs
  have hword : '\n' ∉ i.spelling.toList := (Word.ident i).not_mem_spelling (by decide)
  have hblanks : ∀ bs : List Char, (∀ c ∈ bs, Text.isBlank c = true) → Displaces (bs ++ ':' :: zs) :=
    fun bs hbs => (displaces_colon zs).blanks fun c hc => Or.inl (hbs c hc)
  rw [hsplit, List.append_assoc] at heq
  rcases List.append_eq_append_iff.mp heq with ⟨as, hbefore', has⟩ | ⟨as, _, has⟩
  · cases as with
    | nil =>
      -- The line feed would be the first character of the identifier.
      obtain ⟨c, more, hcons, _⟩ := spelling_cons (.ident i)
      rw [Word.spelling] at hcons
      rw [List.nil_append, hcons] at has
      cases has
      exact absurd (hcons ▸ List.mem_cons_self) hword
    | cons c more =>
      rw [List.cons_append] at has
      obtain ⟨rfl, rfl⟩ := List.cons.inj has
      have hends : EndsWord (after ++ ':' :: zs) := by
        intro c hc
        cases after with
        | nil =>
          cases hc
          decide
        | cons d others =>
          cases hc
          have hblank := hafter c List.mem_cons_self
          refine ⟨Text.isIdentContinue_of_isBlank hblank, fun hquote => ?_⟩
          have hquotes : ∀ q ∈ LiteralText.quotes, Text.isBlank q = false := Text.forall_mem_of_all (by decide)
          rw [hquotes c hquote] at hblank
          cases hblank
      rw [List.append_assoc, List.append_assoc]
      refine (displaces_ident i (by simp) hends).blanks fun c hc => hbefore c ?_
      rw [hbefore']
      exact List.mem_append_right xs (List.mem_cons_of_mem _ hc)
  · rcases List.append_eq_append_iff.mp has with ⟨bs, _, hafter'⟩ | ⟨bs, hspelling, hbs⟩
    · exact hblanks ys fun c hc => hafter c (hafter' ▸ List.mem_append_right bs (List.mem_cons_of_mem _ hc))
    · cases bs with
      | nil =>
        rw [List.nil_append] at hbs
        exact hblanks ys fun c hc => hafter c (hbs ▸ List.mem_cons_of_mem _ hc)
      | cons c more =>
        cases hbs
        exact absurd (hspelling ▸ List.mem_append_right as List.mem_cons_self) hword

end Lexeme

/-! ## The line with the name of the type -/

theorem QualifiedType.qualifiedName_eq (t : QualifiedType) :
    t.qualifiedName = joinNames (t.modulePath.segments ++ [t.typeName]) :=
  t.modulePath.qualify_eq_joinNames t.typeName

theorem mem_joinNames {names : List String} {c : Char} (hc : c ≠ ':') (h : c ∈ (joinNames names).toList) :
    ∃ s ∈ names, c ∈ s.toList := by
  induction names with
  | nil =>
    rw [joinNames_nil] at h
    cases h
  | cons s rest ih =>
    cases rest with
    | nil =>
      rw [joinNames_singleton] at h
      exact ⟨s, List.mem_cons_self, h⟩
    | cons next others =>
      rw [joinNames_cons s (List.cons_ne_nil next others), toList_around] at h
      simp only [List.mem_append, List.mem_cons, hc, false_or] at h
      rcases h with h | h
      · exact ⟨s, List.mem_cons_self, h⟩
      · obtain ⟨r, hr, hmem⟩ := ih h
        exact ⟨r, List.mem_cons_of_mem s hr, hmem⟩

open Lexeme in
/-- Where the name of a module holds a line feed, what comes after the first one displaces what comes after the
name of the type. -/
theorem displaces_of_line_feed {segments : List String} (name : String)
    (hsegments : ∀ s ∈ segments, '/' ∉ s.toList ∧ isIdentifier s = true)
    (h : ∃ s ∈ segments, '\n' ∈ s.toList) :
    ∃ before after, (joinNames (segments ++ [name])).toList = before ++ '\n' :: after ∧ '\n' ∉ before ∧
      Displaces after := by
  induction segments with
  | nil =>
    obtain ⟨s, hs, _⟩ := h
    cases hs
  | cons s rest ih =>
    obtain ⟨hslash, hidentifier⟩ := hsegments s List.mem_cons_self
    have hjoin : (joinNames (s :: rest ++ [name])).toList =
        s.toList ++ ':' :: ':' :: (joinNames (rest ++ [name])).toList := by
      rw [List.cons_append, joinNames_cons s (by simp), toList_around]
    rw [hjoin]
    by_cases hs : '\n' ∈ s.toList
    · obtain ⟨xs, ys, hsplit, hxs⟩ := List.eq_append_cons_of_mem hs
      refine ⟨xs, ys ++ ':' :: ':' :: (joinNames (rest ++ [name])).toList, by rw [hsplit]; simp, hxs, ?_⟩
      exact displaces_of_isIdentifier hslash hidentifier hsplit _
    · obtain ⟨before, after, heq, hbefore, hafter⟩ := ih (fun r hr => hsegments r (List.mem_cons_of_mem s hr)) (by
        obtain ⟨r, hr, hmem⟩ := h
        rcases List.mem_cons.mp hr with rfl | hr
        · exact absurd hmem hs
        · exact ⟨r, hr, hmem⟩)
      refine ⟨s.toList ++ ':' :: ':' :: before, after, by rw [heq]; simp, ?_, hafter⟩
      simp [hs, hbefore]

/-! ## The header -/

namespace GeneratedUnit

open Lexeme

/-- The first line of the header, without its marks. -/
def notice : List Char := " This code was automatically generated by idgen. Do not edit manually.".toList

/-- What comes before the name of the type on the second line. -/
def label : List Char := " Identifier: ".toList

theorem toList_content (t : QualifiedType) (n : Ident) :
    (header t ++ code n).toList = '/' :: '/' :: (notice ++ '\n' :: '/' :: '/' ::
      (label ++ (t.qualifiedName.toList ++ '\n' :: '\n' :: (code n).toList))) := by
  have hfront : "// This code was automatically generated by idgen. Do not edit manually.\n// Identifier: ".toList =
      '/' :: '/' :: (notice ++ '\n' :: '/' :: '/' :: label) := by decide +kernel
  have hend : "\n\n".toList = ['\n', '\n'] := by decide
  have happend : ∀ a b c d : String,
      (a ++ b ++ c ++ d).toList = a.toList ++ (b.toList ++ (c.toList ++ d.toList)) := by
    intro a b c d
    simp only [String.toList_append, List.append_assoc]
  refine (happend _ _ _ _).trans ?_
  rw [hfront, hend]
  simp only [List.append_assoc, List.cons_append, List.nil_append]

/-- Up to the name of the type the header is passed over. -/
theorem ofText?_content (t : QualifiedType) (n : Ident) : ofText? (header t ++ code n).toList =
    ofText? ('/' :: '/' :: (label ++ (t.qualifiedName.toList ++ '\n' :: '\n' :: (code n).toList))) := by
  rw [toList_content, ofText?_comment (by decide) fun c hc => by cases hc; decide]

theorem label_head (xs : List Char) : ∀ c ∈ (label ++ xs).head?, c ≠ '/' ∧ c ≠ '!' := by
  intro c hc
  cases hc
  decide

theorem lex?_content (t : QualifiedType) (n : Ident) :
    Token.lex? (header t ++ code n).toList = (ofText? (header t ++ code n).toList).bind nest := by
  rw [Token.lex?, toList_content]
  rfl

theorem lex?_of_no_line_feed {t : QualifiedType} (n : Ident) (h : '\n' ∉ t.qualifiedName.toList) :
    Token.lex? (header t ++ code n).toList = Token.lex? (code n).toList := by
  have hline : '\n' ∉ label ++ t.qualifiedName.toList := by
    rw [List.mem_append, not_or]
    exact ⟨by decide, h⟩
  rw [lex?_content, ofText?_content, ← List.append_assoc, ofText?_comment hline (label_head _),
    ofText?_blank (by decide), lexemes_code, lex?_code, Option.bind_some, Template.tokens?]

theorem lex?_of_displaces {t : QualifiedType} (n : Ident) {before after : List Char}
    (hname : t.qualifiedName.toList = before ++ '\n' :: after) (hbefore : '\n' ∉ before)
    (hafter : Displaces after) : Token.lex? (header t ++ code n).toList ≠ Token.lex? (code n).toList := by
  intro heq
  have hline : '\n' ∉ label ++ before := by
    rw [List.mem_append, not_or]
    exact ⟨by decide, hbefore⟩
  -- The tokens of the code begin with `impl`, but those of the content come of other lexemes.
  obtain ⟨ls, hls⟩ := Template.lexemes_cons n
  obtain ⟨tokens, htokens, _⟩ := Option.bind_eq_some_iff.mp (Template.tokens?_reads n)
  have hfirst : [Token.keyword .kwImpl] <+: tokens := by
    rw [Template.tokens?, hls] at htokens
    exact isPrefix_of_nestFrom.1 [.keyword .kwImpl] tokens htokens
  obtain ⟨more, rfl⟩ := hfirst
  rw [lex?_code, htokens, lex?_content, ofText?_content, hname, List.append_assoc, List.cons_append,
    ← List.append_assoc, ofText?_comment hline (label_head _)] at heq
  obtain ⟨found, hfound, hnest⟩ := Option.bind_eq_some_iff.mp heq
  obtain ⟨others, rfl⟩ := word_of_nest hnest
  exact hafter _ _ hfound

/-- The comment adds no token exactly if the name of no module holds a line feed. -/
theorem lex?_content_iff {t : QualifiedType} {n : Ident} (hn : n.spelling = t.typeName)
    (hmodules : ∀ s ∈ t.modulePath.segments, '/' ∉ s.toList ∧ isIdentifier s = true) :
    Token.lex? (header t ++ code n).toList = Token.lex? (code n).toList ↔
      ∀ s ∈ t.modulePath.segments, '\n' ∉ s.toList := by
  constructor
  · intro heq s hs hfeed
    obtain ⟨before, after, hname, hbefore, hafter⟩ :=
      displaces_of_line_feed t.typeName hmodules ⟨s, hs, hfeed⟩
    rw [← QualifiedType.qualifiedName_eq] at hname
    exact lex?_of_displaces n hname hbefore hafter heq
  · intro hfree
    refine lex?_of_no_line_feed n fun hmem => ?_
    rw [QualifiedType.qualifiedName_eq] at hmem
    obtain ⟨s, hs, hfeed⟩ := mem_joinNames (by decide) hmem
    rcases List.mem_append.mp hs with hs | hs
    · exact hfree s hs hfeed
    · rw [List.mem_singleton.mp hs, ← hn] at hfeed
      exact absurd hfeed ((Word.ident n).not_mem_spelling (by decide))

theorem ofText?_of_lex? {t : QualifiedType} {n : Ident}
    (h : Token.lex? (header t ++ code n).toList = Token.lex? (code n).toList) :
    SourceTree.ofText? (header t ++ code n) = some ⟨0, (Template.blocks n).map .impl⟩ := by
  have hfront : dropInterpreterLine (Token.dropMark (header t ++ code n).toList) =
      (header t ++ code n).toList := by
    rw [toList_content]
    rfl
  rw [SourceTree.ofText?, hfront, h, lex?_code, Template.tokens?_reads]

/-- A unit for a candidate of a scan is a header before the code for its type, and the names of the modules on
the way to it are identifiers without a slash. -/
theorem of_mem_scanned {d : Disk} (htree : d.IsTree) {inputs : Inputs} {policy : MarkerPolicy}
    {candidates : List Candidate} {units : List GeneratedUnit}
    (hscan : (d.scan inputs).result = .ok candidates) (hunits : (generate policy candidates).result = .ok units)
    {u : GeneratedUnit} (hu : u ∈ units) : ∃ n : Ident, n.spelling = u.typeName ∧
      u.content = header ⟨u.modulePath, u.typeName⟩ ++ code n ∧
      ∀ s ∈ u.modulePath.segments, '/' ∉ s.toList ∧ isIdentifier s = true := by
  obtain ⟨c, hc, t, ⟨_, hresolve, _⟩, hrender⟩ := mem_generate hunits hu
  obtain ⟨rfl, _, _, hmodules⟩ := Candidate.resolve?_eq_some.mp hresolve
  obtain ⟨n, hn, rfl⟩ := render_eq_ok.mp hrender
  exact ⟨n, Ident.spelling_of_ofSpelling? hn, rfl,
    fun s hs => ⟨Disk.no_slash_of_mem_scan htree hscan c hc s hs, hmodules s hs⟩⟩

end GeneratedUnit

/-- **The header of a unit is a comment exactly if the name of no module holds a line feed.** The units are
those for the candidates of a scan, of any files and modules. The code of each is read as the blocks for
its type. If the name of no module on the way to the type holds a line feed, the content has the tokens of
the code and is read as these blocks too, and else it never has these tokens. -/
theorem header_is_comment_iff {d : Disk} (htree : d.IsTree) {inputs : Inputs} {policy : MarkerPolicy}
    {candidates : List Candidate} {units : List GeneratedUnit}
    (hscan : (d.scan inputs).result = .ok candidates) (hunits : (generate policy candidates).result = .ok units) :
    ∀ u ∈ units, ∃ n : Ident, n.spelling = u.typeName ∧
      u.content = GeneratedUnit.header ⟨u.modulePath, u.typeName⟩ ++ GeneratedUnit.code n ∧
      SourceTree.ofText? (GeneratedUnit.code n) = some ⟨0, (Template.blocks n).map .impl⟩ ∧
      (Token.lex? u.content.toList = Token.lex? (GeneratedUnit.code n).toList ↔
        ∀ s ∈ u.modulePath.segments, '\n' ∉ s.toList) ∧
      ((∀ s ∈ u.modulePath.segments, '\n' ∉ s.toList) →
        SourceTree.ofText? u.content = some ⟨0, (Template.blocks n).map .impl⟩) := by
  intro u hu
  obtain ⟨n, hspelling, hcontent, hmodules⟩ := GeneratedUnit.of_mem_scanned htree hscan hunits hu
  have hiff := GeneratedUnit.lex?_content_iff (t := ⟨u.modulePath, u.typeName⟩) hspelling hmodules
  rw [hcontent]
  exact ⟨n, hspelling, rfl, GeneratedUnit.ofText?_code n, hiff,
    fun hfree => GeneratedUnit.ofText?_of_lex? (hiff.mpr hfree)⟩

theorem header_is_comment_iff_oneSource :
    oneSource.IsTree ∧ ∃ candidates units,
      (oneSource.scan ⟨[DiskPath.ofString "src"], none⟩).result = .ok candidates ∧
      (generate .permissive candidates).result = .ok units ∧ units.map GeneratedUnit.key = ["a/A.g.rs"] ∧
      ∀ u ∈ units, (∀ s ∈ u.modulePath.segments, '\n' ∉ s.toList) ∧ ∃ n : Ident, n.spelling = u.typeName ∧
        Token.lex? u.content.toList = Token.lex? (GeneratedUnit.code n).toList ∧
        SourceTree.ofText? u.content = some ⟨0, (Template.blocks n).map .impl⟩ := by
  have htree : oneSource.IsTree := Disk.isTree_of_entries (by decide) (by decide)
  have hrun : (oneSource.scan ⟨[DiskPath.ofString "src"], none⟩).result.toOption.any (fun candidates =>
      (generate .permissive candidates).result.toOption.any fun units =>
        units.map GeneratedUnit.key == ["a/A.g.rs"] &&
          units.all fun u => u.modulePath.segments.all fun s => !s.toList.contains '\n') = true := by
    decide +kernel
  obtain ⟨candidates, hcandidates, hgenerate⟩ := (Option.any_eq_true _ _).mp hrun
  obtain ⟨units, hunits, hkeys⟩ := (Option.any_eq_true _ _).mp hgenerate
  rw [Bool.and_eq_true, beq_iff_eq, List.all_eq_true] at hkeys
  have hscan := Except.eq_ok_of_toOption hcandidates
  have hok := Except.eq_ok_of_toOption hunits
  refine ⟨htree, candidates, units, hscan, hok, hkeys.1, fun u hu => ?_⟩
  have hfree : ∀ s ∈ u.modulePath.segments, '\n' ∉ s.toList := by
    intro s hs
    simpa using List.all_eq_true.mp (hkeys.2 u hu) s hs
  obtain ⟨n, hspelling, _, _, hiff, hread⟩ := header_is_comment_iff htree hscan hok u hu
  exact ⟨hfree, n, hspelling, hiff.mpr hfree, hread hfree⟩

/-- A disk with one source file, whose name begins with a line feed. -/
def lineFeedSource : Disk where
  entries :=
    let w := Text.encode "w"
    let src := Text.encode "src"
    [([w], .directory), ([w, src], .directory),
      ([w, src, Text.encode "\na.rs"], .file (Text.encode "#[identifier] pub struct OrderId(i64);"))]
  workplace := [Text.encode "w"]

/-- A line feed in the name of a file ends the comment, and what comes after it is read as tokens. -/
theorem line_feed_leaks :
    ∃ candidates units, (lineFeedSource.scan ⟨[DiskPath.ofString "src"], none⟩).result = .ok candidates ∧
      (generate .permissive candidates).result = .ok units ∧ units.map GeneratedUnit.key = ["\na/OrderId.g.rs"] ∧
      ∀ u ∈ units, ∃ n : Ident, n.spelling = u.typeName ∧
        u.content = GeneratedUnit.header ⟨u.modulePath, u.typeName⟩ ++ GeneratedUnit.code n ∧
        Token.lex? u.content.toList ≠ Token.lex? (GeneratedUnit.code n).toList := by
  have htree : lineFeedSource.IsTree := Disk.isTree_of_entries (by decide) (by decide)
  have hrun : (lineFeedSource.scan ⟨[DiskPath.ofString "src"], none⟩).result.toOption.any (fun candidates =>
      (generate .permissive candidates).result.toOption.any fun units =>
        units.map GeneratedUnit.key == ["\na/OrderId.g.rs"] &&
          units.all fun u => u.modulePath.segments.any fun s => s.toList.contains '\n') = true := by
    decide +kernel
  obtain ⟨candidates, hcandidates, hgenerate⟩ := (Option.any_eq_true _ _).mp hrun
  obtain ⟨units, hunits, hkeys⟩ := (Option.any_eq_true _ _).mp hgenerate
  rw [Bool.and_eq_true, beq_iff_eq, List.all_eq_true] at hkeys
  have hscan := Except.eq_ok_of_toOption hcandidates
  have hok := Except.eq_ok_of_toOption hunits
  refine ⟨candidates, units, hscan, hok, hkeys.1, fun u hu => ?_⟩
  obtain ⟨n, hspelling, hcontent, hmodules⟩ := GeneratedUnit.of_mem_scanned htree hscan hok hu
  refine ⟨n, hspelling, hcontent, fun heq => ?_⟩
  rw [hcontent] at heq
  obtain ⟨s, hs, hfeed⟩ := List.any_eq_true.mp (hkeys.2 u hu)
  refine (GeneratedUnit.lex?_content_iff (t := ⟨u.modulePath, u.typeName⟩) hspelling hmodules).mp heq s hs ?_
  simpa using hfeed

end TypedId
