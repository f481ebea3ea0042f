import TypedId.Failure
import TypedId.Grammar.Source
import TypedId.Scope

/-!
The scan: which structs of a source text could receive the generated members. Modules inside the text are
entered, function bodies are not. Every struct that is reached is either a candidate or reported with
the obstacle in its way.
-/
namespace TypedId

/-! ## Whether a struct is extensible -/

/-- Nobody outside the module may use the field. -/
def Visibility.isPrivate : Visibility → Bool
  | .inherited => true
  | .restricted scope => scope.isName "self"
  | .everywhere => false

/-- The paths that the attribute derives; none if its content is no list of paths. -/
def Attribute.derivedPaths (a : Attribute) : List Path :=
  if a.path.isName "derive" then
    match a.argument with
    | .list content => (Path.listOfTokens? content).getD []
    | _ => []
  else []

/-- The path ends in the name of a generated trait. -/
def Path.namesGeneratedTrait (p : Path) : Bool :=
  p.segments.getLast?.any fun s => GeneratedTrait.isName s.name.spelling

namespace StructDecl

/-- A generated trait is derived. -/
def derivesGenerated (d : StructDecl) : Bool :=
  d.attributes.any fun a => a.derivedPaths.any Path.namesGeneratedTrait

/-- The first obstacle to extending the struct in this scope. -/
def obstacle? (d : StructDecl) (scope : Scope) : Option Obstacle :=
  match d.fields with
  | .tuple [field] =>
    if !field.visibility.isPrivate then some .fieldNotPrivate
    else if !field.type.isInteger then some .fieldNotInteger
    else if d.derivesGenerated then some .derivesGenerated
    else if scope.supplies d.name.spelling then some .implementsGenerated
    else none
  | .tuple _ => some .notOneField
  | _ => some .notTuple

end StructDecl

/-! ## Findings -/

/-- What the scan says of a struct. -/
inductive Finding where
  | candidate (c : Candidate)
  | rejected (name : String) (obstacle : Obstacle)
  deriving DecidableEq, Repr

namespace Finding

/-- The candidate, if the struct is one. -/
def candidate? : Finding → Option Candidate
  | candidate c => some c
  | rejected .. => none

/-- The event that tells why the struct is none. -/
def event? : Finding → Option Event
  | candidate _ => none
  | rejected name obstacle => some (.notExtensible name obstacle)

end Finding

/-- What the scan says of one struct. -/
def StructDecl.finding (d : StructDecl) (scope : Scope) (modulePath : ModulePath)
    (source : DiskPath) : Finding :=
  match d.obstacle? scope with
  | none =>
    .candidate {
      name := d.name.spelling
      modulePath
      isExtensible := true
      isGeneric := d.isGeneric
      attributes := d.attributes.map fun a => scope.resolve a.path
      source }
  | some obstacle => .rejected (modulePath.qualify d.name.spelling) obstacle

mutual

/-- What the scan says of an item in this scope. -/
def Item.findings (scope : Scope) (modulePath : ModulePath) (source : DiskPath) :
    Item → List Finding
  | .struct d => [d.finding scope modulePath source]
  | .module name (some items) =>
    findingsIn (Scope.ofItems items) (modulePath.child name.spelling) source items
  | _ => []

/-- What the scan says of several items in one scope. -/
def findingsIn (scope : Scope) (modulePath : ModulePath) (source : DiskPath) :
    List Item → List Finding
  | [] => []
  | item :: rest => item.findings scope modulePath source ++ findingsIn scope modulePath source rest

end

/-- What the scan says of the items of a module. -/
def findings (modulePath : ModulePath) (source : DiskPath) (items : List Item) : List Finding :=
  findingsIn (Scope.ofItems items) modulePath source items

/-- The candidates among the items of a module. -/
def scanItems (modulePath : ModulePath) (source : DiskPath) (items : List Item) :
    Outcome (List Candidate) :=
  let found := findings modulePath source items
  ⟨.ok (found.filterMap Finding.candidate?), found.filterMap Finding.event?⟩

/-- A source text with the module path of its items and the file it comes from. -/
structure SourceText where
  path : DiskPath
  modulePath : ModulePath
  text : String
  deriving DecidableEq, Repr

/-- The candidates in a source text. -/
def scanSource (s : SourceText) : Outcome (List Candidate) :=
  match SourceTree.ofText? s.text with
  | some tree => scanItems s.modulePath s.path tree.items
  | none => .fail (.unparsable s.path)

end TypedId
