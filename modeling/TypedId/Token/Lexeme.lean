import TypedId.Text.Quoted
import TypedId.Token.Basic

/-!
Lexemes: what a text is cut into before brackets are matched. Matching them up gives the tokens.
-/
namespace TypedId

/-- A bracket, a token without content, or a documentation comment. -/
inductive Lexeme where
  | opening (d : Delimiter)
  | closing (d : Delimiter)
  | leaf (t : Token)
  | doc (inner : Bool) (text : List Char)
  deriving Repr

namespace Lexeme

/-- A documentation comment is an attribute named `doc` whose value is its text. -/
def docTokens (inner : Bool) (text : List Char) : List Token :=
  let doc : Word := .ident ⟨false, "doc", .refl true⟩
  [.punct '#' false] ++ (if inner then [.punct '!' false] else []) ++
    [.group .bracket
      [.word doc, .punct '=' false, .literal ⟨.string, String.ofList (Text.literalText text)⟩]]

/-- Matches brackets up. `done` holds the tokens of the innermost open group, last first, and `stack` the
groups around it. -/
def nestFrom : List Lexeme → List Token → List (Delimiter × List Token) → Option (List Token)
  | [], done, [] => some done.reverse
  | [], _, _ :: _ => none
  | .leaf t :: rest, done, stack => nestFrom rest (t :: done) stack
  | .doc inner text :: rest, done, stack =>
    nestFrom rest ((docTokens inner text).reverse ++ done) stack
  | .opening d :: rest, done, stack => nestFrom rest [] ((d, done) :: stack)
  | .closing d :: rest, done, (d', outer) :: stack =>
    if d = d' then nestFrom rest (.group d done.reverse :: outer) stack else none
  | .closing _ :: _, _, [] => none

/-- The tokens that the lexemes form, if every bracket has its partner. -/
def nest (lexemes : List Lexeme) : Option (List Token) := nestFrom lexemes [] []

end Lexeme

end TypedId
