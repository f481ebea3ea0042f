import TypedId.Candidate
import TypedId.Generated
import TypedId.Syntax

/-!
What one module says about its structs besides their declarations: the names it imports, and what is
already implemented for its types. Modules inside it have a scope of their own.
-/
namespace TypedId

/-! ## Imports -/

def joinNames (names : List String) : String := String.intercalate "::" names

namespace UseTree

mutual

/-- The names that a tree of imports binds, each with the full path it stands for; `before` holds the
names on the way to the tree. Names bound by a star are not known. -/
def bindings (before : List String) : UseTree → List (String × String)
  | .path w rest => rest.bindings (before ++ [w.spelling])
  | .name w =>
    if w.spelling = "self" then
      match before.getLast? with
      | some last => [(last, joinNames before)]
      | none => []
    else [(w.spelling, joinNames (before ++ [w.spelling]))]
  | .rename w newName =>
    if newName.spelling = "_" then []
    else if w.spelling = "self" then [(newName.spelling, joinNames before)]
    else [(newName.spelling, joinNames (before ++ [w.spelling]))]
  | .group trees => bindingsAll before trees
  | .glob => []

/-- The names that the trees of a group bind. -/
def bindingsAll (before : List String) : List UseTree → List (String × String)
  | [] => []
  | tree :: rest => tree.bindings before ++ bindingsAll before rest

end

end UseTree

/-! ## Types and what is implemented for them -/

/-- The names of a path joined by `::`, without their arguments. -/
def Path.names (p : Path) : List String := p.segments.map fun s => s.name.spelling

/-- No name of the path has arguments. -/
def Path.isPlain (p : Path) : Bool := p.segments.all fun s => s.arguments.isNone

/-- The type is a spelling of the integer that an identifier stores. -/
def Ty.isInteger : Ty → Bool
  | .path false p => p.isPlain && integerPaths.contains (joinNames p.names)
  | _ => false

/-- The name of a type of this module: written alone or after `self`, without arguments. -/
def Ty.localName? : Ty → Option String
  | .path false (.mk false [s]) => if s.arguments.isNone then some s.name.spelling else none
  | .path false (.mk false [first, s]) =>
    if first.name.spelling = "self" && s.arguments.isNone then some s.name.spelling else none
  | _ => none

/-- The one type in angle brackets. -/
def PathArguments.singleType? : PathArguments → Option Ty
  | .angle [.type t] => some t
  | _ => Option.none

namespace ImplBlock

/-- The generated trait that the block implements, if it does. -/
def suppliedTrait (p : Path) : List String :=
  match p.segments.getLast? with
  | none => []
  | some last =>
    let name := last.name.spelling
    if name = conversionName then
      if last.arguments.singleType?.any Ty.isInteger then ["From<i64>"] else []
    else if GeneratedTrait.isName name then [name]
    else []

/-- The generated member that a member of a block defines, if it does. -/
def suppliedMember (m : ImplMember) : List String :=
  let name? := match m with
    | .const name => some name.spelling
    | .function name => some name.spelling
    | .other => none
  (name?.filter GeneratedMember.isName).toList

/-- What the block supplies of a unit. -/
def supplied (b : ImplBlock) : List String :=
  match b.ofTrait with
  | some p => suppliedTrait p
  | none => b.members.flatMap suppliedMember

end ImplBlock

/-! ## The scope of a module -/

/-- What a module imports, and for which of its types it already supplies something of a unit. -/
structure Scope where
  imports : List (String × String)
  authored : List (String × List String)
  deriving DecidableEq, Repr

namespace Scope

/-- What an item imports. -/
def importsOf : Item → List (String × String)
  | .use tree => tree.bindings []
  | _ => []

/-- What an item supplies, with the name of the type it supplies it for. -/
def authoredOf : Item → List (String × List String)
  | .impl b => (b.selfType.localName?.map fun name => (name, b.supplied)).toList
  | _ => []

/-- The scope of the module that holds these items. -/
def ofItems (items : List Item) : Scope :=
  ⟨items.flatMap importsOf, items.flatMap authoredOf⟩

/-- What a name was imported from; of several imports the last one counts. -/
def import? (scope : Scope) (name : String) : Option String :=
  (scope.imports.reverse.find? fun i => i.1 == name).map Prod.snd

/-- Something of a unit is already supplied for the type. -/
def supplies (scope : Scope) (typeName : String) : Bool :=
  scope.authored.any fun a => a.1 == typeName && !a.2.isEmpty

/-- The path of an attribute with its first name replaced by what it was imported from. A path from the
root of names stays as it is. -/
def resolve (scope : Scope) (path : PlainPath) : AttributeRef :=
  let names := path.names.map Word.spelling
  let written := joinNames names
  match names with
  | [] => ⟨written, written⟩
  | first :: rest =>
    if path.leading then ⟨written, written⟩
    else match scope.import? first with
      | some full => ⟨written, joinNames (full :: rest)⟩
      | none => ⟨written, written⟩

end Scope

end TypedId
