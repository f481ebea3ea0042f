import TypedId.Token.Lexer
import TypedId.Token.Printer

/-!
Source text laid out in lines. A line is a list of parts; its text and its lexemes are read off the same
list, so what is written and what is checked cannot come apart. Two constructions break when they do not
fit: the head of an `impl` block and the head of a function.
-/
namespace TypedId

/-- A part of a line. -/
inductive Part where
  | mark (c : Char)
  | token (t : Token)
  | opening (d : Delimiter)
  | closing (d : Delimiter)
  | doc (text : List Char)
  | blank

namespace Part

def openingChar : Delimiter → Char
  | .parenthesis => '('
  | .bracket => '['
  | .brace => '\x7b'

def closingChar : Delimiter → Char
  | .parenthesis => ')'
  | .bracket => ']'
  | .brace => '\x7d'

def text : Part → List Char
  | mark c => [c]
  | token t => t.print.toList
  | opening d => [openingChar d]
  | closing d => [closingChar d]
  | doc text => ['/', '/', '/'] ++ text
  | blank => [' ']

/-- The parts go on with a punctuation character. -/
def goesOnPunct : List Part → Bool
  | mark _ :: _ => true
  | token (.lifetime _) :: _ => true
  | _ => false

/-- The lexemes of a line. A mark is joint when another one follows directly. -/
def lexemes : List Part → List Lexeme
  | [] => []
  | mark c :: rest => .leaf (.punct c (goesOnPunct rest)) :: lexemes rest
  | token t :: rest => .leaf t :: lexemes rest
  | opening d :: rest => .opening d :: lexemes rest
  | closing d :: rest => .closing d :: lexemes rest
  | doc text :: rest => .doc false text :: lexemes rest
  | blank :: rest => lexemes rest

end Part

/-- Parts in a row. -/
abbrev Phrase := List Part

/-- A line: how far it is set in, and its parts. -/
structure Line where
  indent : Nat
  parts : Phrase

namespace Phrase

def text (ps : Phrase) : List Char := ps.flatMap Part.text

/-- How many bytes the parts take. -/
def width (ps : Phrase) : Nat := (text ps).foldl (fun n c => n + c.utf8Size) 0

end Phrase

namespace Line

def text (l : Line) : List Char := List.replicate l.indent ' ' ++ Phrase.text l.parts ++ ['\n']

def lexemes (l : Line) : List Lexeme := Part.lexemes l.parts

/-- The most bytes that a line takes if it can be broken. -/
def limit : Nat := 89

/-- The parts fit on a line that is set in this far. -/
def fits (indent : Nat) (ps : Phrase) : Bool := decide (indent + Phrase.width ps ≤ limit)

end Line

def linesText (ls : List Line) : List Char := ls.flatMap Line.text

def linesLexemes (ls : List Line) : List Lexeme := ls.flatMap Line.lexemes

/-! ## Words and marks -/

namespace Phrase

def word (k : Keyword) : Phrase := [.token (.word (.keyword k))]

def name (i : Ident) : Phrase := [.token (.word (.ident i))]

/-- A plain identifier with this text. -/
def plain (s : String) (h : isIdentText false s = true := by exact .refl true) : Phrase :=
  name ⟨false, s, h⟩

def marks (cs : List Char) : Phrase := cs.map .mark

def number (s : String) : Phrase := [.token (.literal ⟨.int, s⟩)]

def gap : Phrase := [.blank]

/-- A row in brackets. -/
def enclosed (d : Delimiter) (ps : Phrase) : Phrase := [.opening d] ++ ps ++ [.closing d]

/-- Rows with something between them. -/
def between (separator : Phrase) : List Phrase → Phrase
  | [] => []
  | [p] => p
  | p :: rest => p ++ separator ++ between separator rest

def comma : Phrase := marks [','] ++ gap

end Phrase

/-! ## Constructions that break -/

/-- The head of a function: what stands before its parameters, the parameters, and what stands after
them. When it does not fit, each parameter has a line of its own, with a comma after it. -/
def functionHead (indent : Nat) (before : Phrase) (parameters : List Phrase) (after : Phrase) :
    List Line :=
  let whole := before ++ Phrase.enclosed .parenthesis (Phrase.between Phrase.comma parameters) ++ after
  if Line.fits indent whole then [⟨indent, whole⟩]
  else
    [⟨indent, before ++ [.opening .parenthesis]⟩] ++
      parameters.map (fun p => ⟨indent + 4, p ++ Phrase.marks [',']⟩) ++
      [⟨indent, [.closing .parenthesis] ++ after⟩]

/-- The head of an `impl` block for a trait: the trait's path, its argument if it has one, and the type,
with the brace that opens the block. It breaks before `for`, and around the argument if the trait alone
does not fit. -/
def implHead (path : Phrase) (argument : Option Phrase) (selfType : Phrase) : List Line :=
  let start := Phrase.word .kwImpl ++ Phrase.gap ++ path
  let forType := Phrase.word .kwFor ++ Phrase.gap ++ selfType ++ Phrase.gap ++ [.opening .brace]
  let ofTrait := match argument with
    | some a => start ++ Phrase.marks ['<'] ++ a ++ Phrase.marks ['>']
    | none => start
  if Line.fits 0 (ofTrait ++ Phrase.gap ++ forType) then [⟨0, ofTrait ++ Phrase.gap ++ forType⟩]
  else match argument with
    | some a =>
      if Line.fits 0 ofTrait then [⟨0, ofTrait⟩, ⟨0, forType⟩]
      else [⟨0, start ++ Phrase.marks ['<']⟩, ⟨4, a ++ Phrase.marks [',']⟩,
        ⟨0, Phrase.marks ['>'] ++ Phrase.gap ++ forType⟩]
    | none => [⟨0, ofTrait⟩, ⟨0, forType⟩]

end TypedId
