import TypedId.Unit.Basic

/-!
A unit read back. Whatever the name of the type is, and wherever the lines of the unit break, its tokens
follow the grammar of a source file, and the items of that file are the `impl` blocks of
`Template.blocks` (`Template.tokens?_reads`).
-/
namespace TypedId

/-! ## Brackets of a text in parts -/

namespace Lexeme

/-- The tokens of the innermost open group and the groups around it, where those of `opened` were opened
inside a text that has `outside` before it and `stack` around it. -/
def inContext (outside : List Token) (stack : List (Delimiter × List Token)) (done : List Token) :
    List (Delimiter × List Token) → List Token × List (Delimiter × List Token)
  | [] => (done ++ outside, stack)
  | (d, outer) :: opened =>
    let around := inContext outside stack outer opened
    (done, (d, around.1) :: around.2)

theorem inContext_append (outside : List Token) (stack : List (Delimiter × List Token))
    (ts done : List Token) (opened : List (Delimiter × List Token)) :
    inContext outside stack (ts ++ done) opened =
      (ts ++ (inContext outside stack done opened).1, (inContext outside stack done opened).2) := by
  cases opened with
  | nil => simp [inContext]
  | cons group opened => rfl

/-- Lexemes whose brackets have their partners among themselves become their tokens in any context. -/
theorem nestFrom_append {xs : List Lexeme} (ys : List Lexeme) {ts : List Token} (outside : List Token)
    (stack : List (Delimiter × List Token)) (done : List Token) (opened : List (Delimiter × List Token))
    (h : nestFrom xs done opened = some ts) :
    nestFrom (xs ++ ys) (inContext outside stack done opened).1 (inContext outside stack done opened).2 =
      nestFrom ys (ts.reverse ++ outside) stack := by
  -- By induction on the lexemes, for any brackets that are open before them.
  induction xs generalizing done opened with
  | nil =>
    cases opened with
    | nil =>
      cases h
      simp [inContext]
    | cons group opened => cases h
  | cons x xs ih =>
    cases x with
    | leaf t =>
      have := ih (t :: done) opened h
      rwa [← List.singleton_append, inContext_append] at this
    | doc inner text =>
      have := ih ((docTokens inner text).reverse ++ done) opened h
      rwa [inContext_append] at this
    | opening d => exact ih [] ((d, done) :: opened) h
    | closing d =>
      cases opened with
      | nil => cases h
      | cons group opened =>
        obtain ⟨d', outer⟩ := group
        rw [nestFrom] at h
        split at h
        · next hd =>
          subst hd
          -- The group that is closed becomes a token of the one around it.
          have := ih (.group d done.reverse :: outer) opened h
          rw [← List.singleton_append, inContext_append] at this
          rw [List.cons_append, inContext, nestFrom, if_pos rfl]
          exact this
        · cases h

theorem nest_append {xs ys : List Lexeme} {ts us : List Token} (hx : nest xs = some ts)
    (hy : nest ys = some us) : nest (xs ++ ys) = some (ts ++ us) := by
  have first := nestFrom_append ys [] [] [] [] hx
  have second := nestFrom_append [] ts.reverse [] [] [] hy
  simp only [inContext, List.append_nil, List.nil_append] at first second
  rw [nest, first, second]
  simp [nestFrom]

end Lexeme

theorem Part.lexemes_append (ps : List Part) {qs : List Part} (h : goesOnPunct qs = false) :
    lexemes (ps ++ qs) = lexemes ps ++ lexemes qs := by
  induction ps with
  | nil => rfl
  | cons p rest ih =>
    cases p with
    | mark c =>
      have hgoes : goesOnPunct (rest ++ qs) = goesOnPunct rest := by
        cases rest with
        | nil => exact h
        | cons q more => cases q with
          | token t => cases t <;> rfl
          | _ => rfl
      simp only [List.cons_append, lexemes, ih, hgoes]
    | _ => simp only [List.cons_append, lexemes, ih]

/-! ## Reading block by block -/

namespace Grammar

theorem atKeyword_iff {k : Keyword} {ts : List Token} :
    atKeyword k ts = true ↔ ∃ rest, ts = .keyword k :: rest := by
  unfold atKeyword
  split
  · next k' rest => simp [Token.keyword, eq_comm]
  · next hne =>
    simp only [Bool.false_eq_true, false_iff, not_exists]
    intro rest h
    exact hne k rest h

theorem bind_of_eq_some {α β : Type} {p : Parser α} {f : α → Parser β} {ts rest : List Token} {a : α}
    (h : p ts = some (a, rest)) : (p >>= f) ts = f a rest := by
  change (p ts).bind (fun x => f x.1 x.2) = f a rest
  rw [h, Option.bind_some]

theorem repeatUpTo_stop {α : Type} {more : List Token → Bool} {p : Parser α} {bound : Nat}
    {ts : List Token} (hmore : more ts = false) : repeatUpTo more p (bound + 1) ts = some ([], ts) := by
  show (if more ts then _ else _ : Parser _) ts = _
  rw [hmore]
  rfl

theorem repeatUpTo_succ {α : Type} {more : List Token → Bool} {p : Parser α} {bound : Nat}
    {ts us vs : List Token} {a : α} {as : List α} (hmore : more ts = true) (hp : p ts = some (a, us))
    (hrest : repeatUpTo more p bound us = some (as, vs)) :
    repeatUpTo more p (bound + 1) ts = some (a :: as, vs) := by
  show (if more ts then _ else _ : Parser _) ts = _
  rw [if_pos hmore]
  show (p ts).bind _ = _
  rw [hp]
  show (repeatUpTo more p bound us).bind _ = _
  rw [hrest]
  rfl

end Grammar

/-- The lexemes form an `impl` block: their tokens begin with `impl` and are read as the item, whatever
comes after them. -/
def ReadsAs (ls : List Lexeme) (item : Item) : Prop :=
  ∃ ts, Lexeme.nest ls = some ts ∧ Grammar.atKeyword .kwImpl ts = true ∧
    ∀ budget rest, Grammar.anyItem (Grammar.read (budget + 64)) (ts ++ rest) = some (item, rest)

/-- Blocks in a row are read as their items in a row. -/
theorem ReadsAs.all {parts : List (List Lexeme × Item)} (h : ∀ p ∈ parts, ReadsAs p.1 p.2) :
    ∃ ts, Lexeme.nest (parts.flatMap Prod.fst) = some ts ∧ parts.length ≤ ts.length ∧
      Grammar.atInnerAttribute ts = false ∧
      ∀ budget bound, parts.length < bound →
        Grammar.repeatUpTo (fun ts => !ts.isEmpty) (Grammar.anyItem (Grammar.read (budget + 64))) bound ts =
          some (parts.map Prod.snd, []) := by
  -- By induction on the blocks. Each begins with `impl`, so there are no fewer tokens than blocks and the
  -- bound of the repetition is never reached.
  induction parts with
  | nil =>
    refine ⟨[], rfl, Nat.le_refl _, rfl, ?_⟩
    intro budget bound hbound
    obtain ⟨more, rfl⟩ := Nat.exists_eq_succ_of_ne_zero (Nat.ne_of_gt hbound)
    exact Grammar.repeatUpTo_stop rfl
  | cons p parts ih =>
    obtain ⟨us, hus, hlength, _, hread⟩ := ih fun q hq => h q (List.mem_cons_of_mem p hq)
    obtain ⟨ts, hts, himpl, hitem⟩ := h p List.mem_cons_self
    obtain ⟨rest, rfl⟩ := Grammar.atKeyword_iff.mp himpl
    refine ⟨.keyword .kwImpl :: rest ++ us, Lexeme.nest_append hts hus, ?_, rfl, ?_⟩
    · simp only [List.length_cons, List.length_append]
      omega
    · intro budget bound hbound
      obtain ⟨more, rfl⟩ := Nat.exists_eq_succ_of_ne_zero (Nat.ne_of_gt (Nat.zero_lt_of_lt hbound))
      exact Grammar.repeatUpTo_succ rfl (hitem budget us) (hread budget more (Nat.lt_of_succ_lt_succ hbound))

/-- Blocks in a row are a source file with their items. -/
theorem ReadsAs.sourceTree {parts : List (List Lexeme × Item)} (h : ∀ p ∈ parts, ReadsAs p.1 p.2) :
    (Lexeme.nest (parts.flatMap Prod.fst)).bind SourceTree.ofTokens? = some ⟨0, parts.map Prod.snd⟩ := by
  obtain ⟨ts, hts, hlength, hinner, hread⟩ := ReadsAs.all h
  have hattributes : Grammar.innerAttributes (Grammar.read (Grammar.budget ts)) ts = some ([], ts) :=
    Grammar.repeatUpTo_stop hinner
  have hitems : Grammar.repeatToEnd (Grammar.anyItem (Grammar.read (Grammar.budget ts))) ts =
      some (parts.map Prod.snd, []) :=
    hread (16 * Token.sizeAll ts) (ts.length + 1) (Nat.lt_succ_of_le hlength)
  rw [hts, Option.bind_some, SourceTree.ofTokens?, Grammar.readAll, Grammar.bind_of_eq_some hattributes,
    Grammar.bind_of_eq_some hitems]
  rfl

/-! ## The blocks of a unit -/

namespace Template

/-- The name as a type without arguments. -/
def typeNamed (n : Ident) : Ty := .path false (.mk false [.mk (.ident n) .none])

/-- A path from the root of names, where the last name has the arguments. -/
def rootPath (modules : List Ident) (last : Ident) (arguments : PathArguments) : Path :=
  .mk true (modules.map (fun i => .mk (.ident i) .none) ++ [.mk (.ident last) arguments])

/-- A plain identifier. -/
def plainIdent (s : String) (h : isIdentText false s = true := by exact .refl true) : Ident := ⟨false, s, h⟩

/-- The name of the integer type. -/
def i64 : Ident := plainIdent "i64"

/-- The module of a generated trait. -/
def moduleIdent : GeneratedTrait → Ident
  | .clone => plainIdent "clone"
  | .copy => plainIdent "marker"
  | .default => plainIdent "default"
  | .partialEq | .eq | .partialOrd | .ord => plainIdent "cmp"
  | .hash => plainIdent "hash"
  | .debug | .display => plainIdent "fmt"

/-- The functions of a generated trait that the unit defines. -/
def functions : GeneratedTrait → List Ident
  | .clone => [plainIdent "clone"]
  | .default => [plainIdent "default"]
  | .partialEq => [plainIdent "eq"]
  | .partialOrd => [plainIdent "partial_cmp"]
  | .ord => [plainIdent "cmp"]
  | .hash => [plainIdent "hash"]
  | .debug | .display => [plainIdent "fmt"]
  | .copy | .eq => []

/-- What the block with the members of the type itself is read as. -/
def inherentImpl (n : Ident) : ImplBlock where
  ofTrait := none
  selfType := typeNamed n
  members := [.const (.ident (plainIdent "EMPTY")), .function (plainIdent "empty"), .function (plainIdent "with")]

/-- What the block for a generated trait is read as. -/
def traitImpl (n : Ident) (t : GeneratedTrait) : ImplBlock where
  ofTrait := some (rootPath [plainIdent "core", moduleIdent t] t.ident .none)
  selfType := typeNamed n
  members := (functions t).map .function

/-- What the block for a conversion is read as. -/
def conversionImpl (source target : Ident) : ImplBlock where
  ofTrait := some (rootPath [plainIdent "core", plainIdent "convert"] (plainIdent "From")
    (.angle [.type (typeNamed source)]))
  selfType := typeNamed target
  members := [.function (plainIdent "from")]

/-- The `impl` blocks of the unit for a type with this name. -/
def blocks (n : Ident) : List ImplBlock :=
  [inherentImpl n] ++ traitOrder.map (traitImpl n) ++
    [conversionImpl i64 n, conversionImpl n i64]

open Phrase

theorem linesLexemes_append (ls ms : List Line) :
    linesLexemes (ls ++ ms) = linesLexemes ls ++ linesLexemes ms := List.flatMap_append

theorem linesLexemes_closedHere {ls : List Line} (h : ls ≠ []) :
    linesLexemes (closedHere ls) = linesLexemes ls ++ [.closing .brace] := by
  induction ls with
  | nil => exact absurd rfl h
  | cons l rest ih =>
    cases rest with
    | nil =>
      simp only [closedHere, linesLexemes, List.flatMap_cons, List.flatMap_nil, List.append_nil]
      exact Part.lexemes_append l.parts rfl
    | cons l' more =>
      have hrest := ih (List.cons_ne_nil l' more)
      simp only [linesLexemes, closedHere, List.flatMap_cons, List.append_assoc] at hrest ⊢
      rw [hrest]

/-- Where the head of a block for a trait breaks makes no difference to its lexemes. -/
theorem linesLexemes_implHead (path type : Phrase) :
    linesLexemes (implHead path none type) = Part.lexemes (word .kwImpl ++ gap ++ path) ++
      Part.lexemes (word .kwFor ++ gap ++ type ++ gap ++ [.opening .brace]) := by
  simp only [implHead]
  split
  · rw [linesLexemes, List.flatMap_singleton, Line.lexemes, List.append_assoc]
    exact Part.lexemes_append _ rfl
  · simp only [linesLexemes, Line.lexemes, List.flatMap_cons, List.flatMap_nil, List.append_nil]

/-- It makes none either if the brace of a block is closed on the line that opens it. -/
theorem linesLexemes_traitBlock (t : GeneratedTrait) (type : Phrase) (members : List Line) :
    linesLexemes (traitBlock t type members) =
      Part.lexemes (word .kwImpl ++ gap ++ traitPath t) ++
        Part.lexemes (word .kwFor ++ gap ++ type ++ gap ++ [.opening .brace]) ++
        linesLexemes members ++ [.closing .brace] := by
  rw [← linesLexemes_implHead, traitBlock]
  split
  · next hempty =>
    have hhead : implHead (traitPath t) none type ≠ [] := by
      simp only [implHead]
      split <;> exact List.cons_ne_nil _ _
    rw [List.isEmpty_iff.mp hempty, linesLexemes_closedHere hhead]
    simp [linesLexemes]
  · rw [linesLexemes_append, linesLexemes_append]
    rfl

section

-- A unit is read by computation, once its lines are lexemes and its brackets are matched up.
attribute [local simp] method functionHead implHead function documented plain name marks word gap number
  enclosed between comma step core selfType self borrowedSelf integer typed stored storedRef call wrap
  emptyValue ordering optional nameAttribute inlined mustUse answers publicConst otherSelf comparison
  formatter printing blockEnd closedHere conversion traitPath GeneratedTrait.module traitMembers
  linesLexemes Line.lexemes Part.lexemes Part.goesOnPunct Lexeme.nest Lexeme.nestFrom Lexeme.docTokens

set_option maxRecDepth 2000 in
theorem reads_inherentBlock (n : Ident) :
    ReadsAs (linesLexemes (inherentBlock (name n))) (.impl (inherentImpl n)) := by
  -- The cases are where the heads of the two functions break; each is read by computation.
  simp only [inherentBlock, method, functionHead]
  split <;> split
  all_goals
    simp [ReadsAs]
    exact ⟨rfl, fun _ _ => rfl⟩

set_option maxRecDepth 2000 in
theorem reads_traitBlock (n : Ident) (t : GeneratedTrait) :
    ReadsAs (linesLexemes (traitBlock t (name n) (traitMembers t))) (.impl (traitImpl n t)) := by
  rw [linesLexemes_traitBlock]
  cases t
  all_goals
    simp only [traitMembers, printing, method, functionHead]
    try split
  all_goals
    simp [ReadsAs]
    exact ⟨rfl, fun _ _ => rfl⟩

theorem reads_conversionBlock (source target : Ident) (body : Phrase)
    (hbody : body = wrap (plain "value") ∨ body = stored (plain "value")) :
    ReadsAs (linesLexemes (conversionBlock (name source) (name target) body))
      (.impl (conversionImpl source target)) := by
  simp only [conversionBlock, method, functionHead, implHead]
  rcases hbody with rfl | rfl
  all_goals repeat' split
  all_goals
    simp [ReadsAs]
    exact ⟨rfl, fun _ _ => rfl⟩

end

/-- **A unit is read as its blocks**, whatever the name of the type is. -/
theorem tokens?_reads (n : Ident) :
    (tokens? n).bind SourceTree.ofTokens? = some ⟨0, (blocks n).map .impl⟩ := by
  let parts : List (List Lexeme × Item) :=
    [(linesLexemes (inherentBlock (name n)), .impl (inherentImpl n))] ++
      traitOrder.map (fun t => (linesLexemes (traitBlock t (name n) (traitMembers t)), .impl (traitImpl n t))) ++
      [(linesLexemes (conversionBlock (name i64) (name n) (wrap (plain "value"))),
          .impl (conversionImpl i64 n)),
        (linesLexemes (conversionBlock (name n) (name i64) (stored (plain "value"))),
          .impl (conversionImpl n i64))]
  have hreads : ∀ p ∈ parts, ReadsAs p.1 p.2 := by
    intro p hp
    simp only [parts, List.mem_append, List.mem_cons, List.not_mem_nil, or_false, List.mem_map] at hp
    rcases hp with (rfl | ⟨t, _, rfl⟩) | rfl | rfl <;> dsimp only
    · exact reads_inherentBlock n
    · exact reads_traitBlock n t
    · exact reads_conversionBlock i64 n _ (Or.inl rfl)
    · exact reads_conversionBlock n i64 _ (Or.inr rfl)
  have hinteger : integer = name i64 := rfl
  have hlexemes : linesLexemes (lines n) = parts.flatMap Prod.fst := by
    simp only [lines, parts, hinteger, linesLexemes, List.flatMap_append, List.flatMap_cons, List.flatMap_nil,
      List.flatMap_assoc, List.flatMap_map, List.append_nil, List.append_assoc]
  have hitems : parts.map Prod.snd = (blocks n).map .impl := by
    simp [parts, blocks]
  rw [tokens?, hlexemes, ReadsAs.sourceTree hreads, hitems]

end Template

end TypedId
