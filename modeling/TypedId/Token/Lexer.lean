import TypedId.Token.Lexeme
import TypedId.Token.LiteralText
import TypedId.Token.Trivia

/-!
From text to tokens. The text is cut at the front, one lexeme or one piece of trivia at a time, and the
lexemes are then matched up into groups. The text `(/*ERROR*/)`, which elsewhere stands for a literal that could not be
read, is no literal here but an empty group.
-/
namespace TypedId

namespace Lexeme

/-- Punctuation stands at the front, and no comment. -/
def startsPunct : List Char → Bool
  | '/' :: '/' :: _ => false
  | '/' :: '*' :: _ => false
  | c :: _ => "~!@#$%^&*-=+|;:,<.>/?'".toList.contains c
  | [] => false

/-- The word at the front, raw or not, and its length. -/
def anyWord? (cs : List Char) : Option (Word × Nat) :=
  let raw := cs.take 2 == ['r', '#']
  let marked := if raw then 2 else 0
  let n := LiteralText.wordLength (cs.drop marked)
  if n = 0 then none
  else (Word.ofText? raw (String.ofList ((cs.drop marked).take n))).map fun w => (w, n + marked)

/-- Beginnings that belong to a literal alone, so that no word is read there. -/
def literalMarks : List (List Char) :=
  ["r\"", "r#\"", "r##", "b\"", "b'", "br\"", "br#", "c\"", "cr\"", "cr#"].map String.toList

/-- The word at the front, unless a literal was begun there. -/
def word? (cs : List Char) : Option (Word × Nat) :=
  if literalMarks.any fun mark => mark.isPrefixOf cs then none else anyWord? cs

/-- What a single quote begins when it begins no character: a lifetime, or, if what follows reads as a
literal, a mark of its own. -/
def tick? (rest : List Char) : Option (Token × Nat) :=
  match anyWord? rest with
  | none => none
  | some (_, n) =>
    let after := (rest.drop n).head?
    if after == some '\'' || (after == some '#' && rest.take 2 != ['r', '#']) then none
    else if (LiteralText.length? rest).isSome then some (.punct '\'' true, 1)
    else (word? rest).map fun (w, n) => (.lifetime w, n + 1)

/-- The punctuation at the front, or the lifetime. -/
def punct? (cs : List Char) : Option (Token × Nat) :=
  if !startsPunct cs then none
  else match cs with
    | '\'' :: rest => tick? rest
    | c :: rest => some (.punct c (startsPunct rest), 1)
    | [] => none

/-- The token without content at the front, and its length. -/
def leaf? (cs : List Char) : Option (Token × Nat) :=
  match LiteralText.length? cs with
  | some (kind, n) => some (.literal ⟨kind, String.ofList (cs.take n)⟩, n)
  | none =>
    match punct? cs with
    | some found => some found
    | none => (word? cs).map fun (w, n) => (.word w, n)

/-- The lexeme at the front, and its length. -/
def front? (cs : List Char) : Option (Lexeme × Nat) :=
  match Trivia.doc? cs with
  | some comment =>
    if Trivia.noBareReturn comment.text then some (.doc comment.inner comment.text, comment.length)
    else none
  | none =>
    match cs with
    | '(' :: _ => some (.opening .parenthesis, 1)
    | '[' :: _ => some (.opening .bracket, 1)
    | '\x7b' :: _ => some (.opening .brace, 1)
    | ')' :: _ => some (.closing .parenthesis, 1)
    | ']' :: _ => some (.closing .bracket, 1)
    | '\x7d' :: _ => some (.closing .brace, 1)
    | _ => (leaf? cs).map fun (t, n) => (.leaf t, n)

/-- The lexemes of a text, or nothing if the text cannot be cut up. -/
def ofText? (cs : List Char) : Option (List Lexeme) :=
  match cs with
  | [] => some []
  | c :: rest =>
    match Trivia.length? (c :: rest) with
    | some n => ofText? (rest.drop (n - 1))
    | none =>
      match front? (c :: rest) with
      | some (lexeme, n) => (ofText? (rest.drop (n - 1))).map (lexeme :: ·)
      | none => none
termination_by cs.length
decreasing_by all_goals simp only [List.length_drop, List.length_cons]; omega

end Lexeme

namespace Token

/-- The text without a byte order mark at its front. -/
def dropMark : List Char → List Char
  | '\uFEFF' :: rest => rest
  | cs => cs

/-- The tokens of a text. One byte order mark at the front is passed over. -/
def lex? (cs : List Char) : Option (List Token) :=
  (Lexeme.ofText? (dropMark cs)).bind Lexeme.nest

end Token

end TypedId
