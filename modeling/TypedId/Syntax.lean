import TypedId.Token.Basic

/-!
What the grammar keeps of a source text: the items of a module with their attributes, as far as a scan for
identifiers looks at them. Function bodies, expressions and patterns are recognised and then dropped.
-/
namespace TypedId

mutual

/-- A path, as in `::core::fmt::Display` or `Vec<u8>`. -/
inductive Path where
  | mk (leading : Bool) (segments : List Segment)

/-- One name of a path with the arguments after it. -/
inductive Segment where
  | mk (name : Word) (arguments : PathArguments)

/-- What stands after a name in a path: nothing, a list in angle brackets, or parameter types. -/
inductive PathArguments where
  | none
  | angle (arguments : List GenericArgument)
  | parenthesized

/-- An argument in angle brackets: a type, or anything else that may stand there. -/
inductive GenericArgument where
  | type (t : Ty)
  | other

/-- A type, told apart as far as the grammar or the scan needs. `bounds` is a sum of bounds without
`dyn`; it says whether it is one bound alone. -/
inductive Ty where
  | path (qualified : Bool) (p : Path)
  | parenthesized
  | bounds (single : Bool)
  | other

end

namespace Path

/-- The path begins with `::`. -/
def leading : Path → Bool
  | mk l _ => l

def segments : Path → List Segment
  | mk _ s => s

end Path

namespace Segment

def name : Segment → Word
  | mk n _ => n

def arguments : Segment → PathArguments
  | mk _ a => a

end Segment

/-- No arguments are written. -/
def PathArguments.isNone : PathArguments → Bool
  | .none => true
  | _ => false

/-- A path of plain names, as attributes and visibilities have it. -/
structure PlainPath where
  leading : Bool
  names : List Word
  deriving DecidableEq, Repr

/-- The path is this one name alone. -/
def PlainPath.isName (p : PlainPath) (name : String) : Bool :=
  !p.leading && p.names.map Word.spelling == [name]

/-- What follows the path in an attribute. -/
inductive AttributeArgument where
  | none
  | list (content : List Token)
  | value

structure Attribute where
  path : PlainPath
  argument : AttributeArgument

/-- Who may use what is declared. -/
inductive Visibility where
  | inherited
  | restricted (scope : PlainPath)
  | everywhere
  deriving DecidableEq, Repr

/-- A field without a name. -/
structure TupleField where
  visibility : Visibility
  type : Ty

inductive Fields where
  | named
  | tuple (fields : List TupleField)
  | unit

/-- A struct. It is generic if it has parameters or a `where` clause. -/
structure StructDecl where
  attributes : List Attribute
  name : Ident
  isGeneric : Bool
  fields : Fields

inductive UseTree where
  | path (name : Word) (rest : UseTree)
  | name (name : Word)
  | rename (name newName : Word)
  | glob
  | group (trees : List UseTree)

/-- A member of an `impl` block, as far as its name matters. -/
inductive ImplMember where
  | const (name : Word)
  | function (name : Ident)
  | other

structure ImplBlock where
  ofTrait : Option Path
  selfType : Ty
  members : List ImplMember

/-- An item of a module. A module in a file of its own has no content here. -/
inductive Item where
  | struct (declaration : StructDecl)
  | use (tree : UseTree)
  | impl (block : ImplBlock)
  | module (name : Word) (content : Option (List Item))
  | enum
  | union
  | other

/-- A source file: how many attributes it has of its own, and its items. -/
structure SourceTree where
  attributeCount : Nat
  items : List Item

end TypedId
