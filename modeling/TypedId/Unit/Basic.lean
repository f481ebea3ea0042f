import TypedId.Qualify
import TypedId.Unit.Template

/-!
Units: the source text that is generated for one type, under a key that no other type has. The text is
checked against the grammar before it is handed on.
-/
namespace TypedId

/-- The identifier that a text spells, with no blank or comment around it. -/
def Ident.ofSpelling? (s : String) : Option Ident :=
  let raw := s.toList.take 2 == ['r', '#']
  let text := unraw s
  if h : isIdentText raw text = true then some ⟨raw, text, h⟩ else none

/-- A generated source text, with the type it is for and the place where it goes. -/
structure GeneratedUnit where
  key : String
  modulePath : ModulePath
  typeName : String
  content : String
  deriving DecidableEq, Repr

namespace GeneratedUnit

/-- The comment that comes before the code of a unit. -/
def header (t : QualifiedType) : String :=
  "// This code was automatically generated by idgen. Do not edit manually.\n// Identifier: " ++
    t.qualifiedName ++ "\n\n"

/-- The code of a unit, laid out in lines. -/
def code (n : Ident) : String := String.ofList (linesText (Template.lines n))

/-- The tokens follow the grammar of a source file. -/
def validate (tokens : List Token) : Except Failure SourceTree :=
  match SourceTree.ofTokens? tokens with
  | some tree => .ok tree
  | none => .error .invalidCode

/-- The unit for a type. -/
def render (t : QualifiedType) : Except Failure GeneratedUnit :=
  match Ident.ofSpelling? t.typeName with
  | none => .error (.notAnIdentifier (unraw t.typeName))
  | some n =>
    match Template.tokens? n with
    | none => .error .invalidCode
    | some tokens =>
      match validate tokens with
      | .error e => .error e
      | .ok _ => .ok ⟨t.unitKey, t.modulePath, t.typeName, header t ++ code n⟩

/-- Where the unit lies below a directory: the pieces of its key between slashes, one below another. -/
def pathIn (key : String) (directory : DiskPath) : DiskPath :=
  (Text.split '/' key.toList).foldl
    (fun path piece => path.join (DiskPath.ofString (String.ofList piece))) directory

end GeneratedUnit

end TypedId
