import TypedId.Text.CharClass

/-!
What stands between tokens: blanks and plain comments. Comments that document the item after or around
them are not trivia; they are told apart here and read as tokens by the lexer.

Every function answers how many characters at the front of the text it speaks about.
-/
namespace TypedId.Trivia

/-- The characters up to the end of the line; a carriage return is part of the end only before a
line feed. -/
def lineLength : List Char → Nat
  | [] => 0
  | '\n' :: _ => 0
  | '\r' :: '\n' :: _ => 0
  | _ :: rest => lineLength rest + 1

/-- A block comment, its inner ones included, where `depth` of them are open already. -/
def blockLength? : Nat → List Char → Option Nat
  | depth, '/' :: '*' :: rest => (blockLength? (depth + 1) rest).map (· + 2)
  | depth, '*' :: '/' :: rest =>
    if depth ≤ 1 then some 2 else (blockLength? (depth - 1) rest).map (· + 2)
  | depth, _ :: rest => (blockLength? depth rest).map (· + 1)
  | _, [] => none

/-- A documentation comment: its length, whether it documents what is around it, and its text. -/
structure Doc where
  length : Nat
  inner : Bool
  text : List Char
  deriving DecidableEq, Repr

/-- The documentation comment on the rest of this line, after its three marks. -/
def lineDoc (inner : Bool) (rest : List Char) : Doc :=
  let n := lineLength rest
  ⟨n + 3, inner, rest.take n⟩

/-- The documentation comment in a block, after its three marks. -/
def blockDoc? (inner : Bool) (rest : List Char) : Option Doc :=
  (blockLength? 1 rest).map fun n => ⟨n + 3, inner, rest.take (n - 2)⟩

/-- The documentation comment at the front: `//!`, `/*!`, `///` or `/**`. A fourth slash or a third star
makes a plain comment, and so does a block that is closed at once. -/
def doc? : List Char → Option Doc
  | '/' :: '/' :: '!' :: rest => some (lineDoc true rest)
  | '/' :: '*' :: '!' :: rest => blockDoc? true rest
  | '/' :: '/' :: '/' :: '/' :: _ => none
  | '/' :: '/' :: '/' :: rest => some (lineDoc false rest)
  | '/' :: '*' :: '*' :: '/' :: _ => none
  | '/' :: '*' :: '*' :: '*' :: _ => none
  | '/' :: '*' :: '*' :: rest => blockDoc? false rest
  | _ => none

/-- The front looks like a documentation comment, closed or not. -/
def isDocStart : List Char → Bool
  | '/' :: '/' :: '!' :: _ => true
  | '/' :: '*' :: '!' :: _ => true
  | '/' :: '/' :: '/' :: '/' :: _ => false
  | '/' :: '/' :: '/' :: _ => true
  | '/' :: '*' :: '*' :: '/' :: _ => false
  | '/' :: '*' :: '*' :: '*' :: _ => false
  | '/' :: '*' :: '*' :: _ => true
  | _ => false

/-- The blank or the plain comment at the front. A block comment that is never closed is none. -/
def length? (cs : List Char) : Option Nat :=
  if isDocStart cs then none
  else match cs with
    | '/' :: '/' :: rest => some (lineLength rest + 2)
    | '/' :: '*' :: '*' :: '/' :: _ => some 4
    | '/' :: '*' :: rest => (blockLength? 1 rest).map (· + 2)
    | c :: _ => if Text.isBlank c then some 1 else none
    | [] => none

/-- Every carriage return stands before a line feed. -/
def noBareReturn : List Char → Bool
  | '\r' :: '\n' :: rest => noBareReturn rest
  | '\r' :: _ => false
  | _ :: rest => noBareReturn rest
  | [] => true

end TypedId.Trivia
