import TypedId.Grammar.Items

/-!
The grammar closed into recognisers of whole texts: a source file, a single item, a list of paths, and an
identifier. Reading a category uses up one unit of a budget that is computed from the tokens; every chain
of categories that reads no token is shorter than what a token adds to the budget.
-/
namespace TypedId

namespace Grammar

/-- Reads one category, given a way to read every category below it. -/
def step (go : Reader) {α : Type} : Category α → Parser α
  | .path inExpr => path go inExpr
  | .type plus => type go plus
  | .bound captures marks => bound go captures marks
  | .pattern => pattern go
  | .operand structs => operand go structs
  | .operators left structs floor => operators go left structs floor
  | .rightSide structs operator => rightSide go structs operator
  | .early => early go
  | .statements => statements go
  | .attribute => attributeBody go
  | .item attributes => item go attributes
  | .useTree rootAllowed => useTree go rootAllowed

/-- Reads a category within a budget. -/
def read : Nat → Reader
  | 0, _, _ => failure
  | budget + 1, _, category => step (read budget) category

/-- The budget for reading these tokens. -/
def budget (ts : List Token) : Nat := 16 * Token.sizeAll ts + 64

/-- Reads all of the tokens with a parser that reads every category. -/
def readAll {α : Type} (p : Reader → Parser α) (ts : List Token) : Option α :=
  match p (read (budget ts)) ts with
  | some (a, []) => some a
  | _ => none

end Grammar

/-- The source file that the tokens form. -/
def SourceTree.ofTokens? (ts : List Token) : Option SourceTree :=
  Grammar.readAll (fun go => do
    let attributes ← Grammar.innerAttributes go
    let items ← Grammar.repeatToEnd (Grammar.anyItem go)
    return ⟨attributes.length, items⟩) ts

/-- The one item that the tokens form. -/
def Item.ofTokens? (ts : List Token) : Option Item := Grammar.readAll (fun go => Grammar.anyItem go) ts

/-- The paths that the tokens form, with commas between them. -/
def Path.listOfTokens? (ts : List Token) : Option (List Path) :=
  Grammar.readAll (fun go => Grammar.commaList (go (.path false))) ts

/-- The text without the line at its front that names an interpreter. A bracket after its mark begins an
attribute instead. -/
def dropInterpreterLine (cs : List Char) : List Char :=
  match cs with
  | '#' :: '!' :: rest =>
    if (skipTrivia rest).head? == some '[' then cs else cs.dropWhile (· != '\n')
  | _ => cs
where
  /-- The text without the blanks and comments at its front. -/
  skipTrivia (cs : List Char) : List Char :=
    match cs with
    | [] => []
    | c :: rest =>
      match Trivia.length? (c :: rest) with
      | some n => skipTrivia (rest.drop (n - 1))
      | none => c :: rest
  termination_by cs.length
  decreasing_by simp only [List.length_drop, List.length_cons]; omega

/-- The source file that a text holds, if the text follows the grammar. -/
def SourceTree.ofText? (text : String) : Option SourceTree :=
  (Token.lex? (dropInterpreterLine (Token.dropMark text.toList))).bind SourceTree.ofTokens?

/-- The identifier that a text holds. Blanks and comments may stand around it. -/
def Ident.ofText? (text : String) : Option Ident :=
  match Token.lex? text.toList with
  | some [.word (.ident i)] => some i
  | _ => none

/-- The text reads as one identifier. -/
def isIdentifier (text : String) : Bool := (Ident.ofText? text).isSome

end TypedId
