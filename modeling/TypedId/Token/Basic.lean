import TypedId.Text.CharClass
import TypedId.Token.Keyword

/-!
Tokens of the scanned language: words, punctuation, literals and bracketed groups. An identifier carries
the proof that it is one, so nothing built from tokens has to ask again.
-/
namespace TypedId

/-- The characters form one word. -/
def isWord : List Char → Bool
  | [] => false
  | c :: rest => (Text.isIdentStart c || c == '_') && rest.all Text.isIdentContinue

/-- The text of an identifier without its raw mark is a word, and is reserved only if it is written raw
and has a raw form. -/
def isIdentText (raw : Bool) (text : String) : Bool :=
  isWord text.toList && match Keyword.ofString? text with
    | none => true
    | some k => raw && k.hasRawForm

/-- An identifier, perhaps written raw (`r#type`). -/
structure Ident where
  raw : Bool
  text : String
  valid : isIdentText raw text = true
  deriving DecidableEq, Repr

/-- The identifier as it is written. A raw one is a name of its own, different from the plain one. -/
def Ident.spelling (i : Ident) : String := if i.raw then "r#" ++ i.text else i.text

/-- A word: an identifier or a reserved word. -/
inductive Word where
  | ident (i : Ident)
  | keyword (k : Keyword)
  deriving DecidableEq, Repr

namespace Word

def spelling : Word → String
  | ident i => i.spelling
  | keyword k => k.spelling

/-- The word with this text, if there is one: a raw word has to be an identifier. -/
def ofText? (raw : Bool) (text : String) : Option Word :=
  if h : isIdentText raw text = true then some (.ident ⟨raw, text, h⟩)
  else if raw then none
  else (Keyword.ofString? text).map .keyword

end Word

/-- The brackets around a group. No text has a group without them, though a compiler may hand one over; such groups are
left out. -/
inductive Delimiter where
  | parenthesis
  | bracket
  | brace
  deriving DecidableEq, Repr

/-- What a literal denotes. -/
inductive LiteralKind where
  | string | byteString | cString | byte | char | float | int
  deriving DecidableEq, Repr

/-- A literal as it is written, suffix included. -/
structure Literal where
  kind : LiteralKind
  text : String
  deriving DecidableEq, Repr

/-- A token. A punctuation character is joint when another one follows directly in the text. -/
inductive Token where
  | word (w : Word)
  | lifetime (w : Word)
  | punct (c : Char) (joint : Bool)
  | literal (l : Literal)
  | group (d : Delimiter) (content : List Token)
  deriving Repr

namespace Token

mutual

/-- How many tokens a token is, those inside its group included. -/
def size : Token → Nat
  | .group _ content => 2 + sizeAll content
  | _ => 1

/-- How many tokens a list of tokens is, those inside its groups included. -/
def sizeAll : List Token → Nat
  | [] => 0
  | t :: ts => t.size + sizeAll ts

end

def keyword (k : Keyword) : Token := .word (.keyword k)

end Token

end TypedId
