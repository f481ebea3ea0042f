import TypedId.Failure
import TypedId.Candidate
import TypedId.Grammar.Source

/-!
Qualification: which candidates get a unit. A candidate qualifies if its type and its module can be named,
it has no parameters, and it carries the marker. The others are passed over without a failure.
-/
namespace TypedId

/-- A type that gets a unit. -/
structure QualifiedType where
  modulePath : ModulePath
  typeName : String
  deriving DecidableEq, Repr

/-- The name without a raw mark before it. -/
def unraw (s : String) : String :=
  match s.toList with
  | 'r' :: '#' :: rest => String.ofList rest
  | _ => s

namespace QualifiedType

/-- The name of the type with its module path. -/
def qualifiedName (t : QualifiedType) : String := t.modulePath.qualify t.typeName

/-- Where the unit lies below the output directory: a directory for each module, and a file for the type.
Raw marks are left out. -/
def unitKey (t : QualifiedType) : String :=
  String.intercalate "/" (t.modulePath.segments.map unraw ++ [unraw t.typeName ++ ".g.rs"])

end QualifiedType

namespace Candidate

/-- The type that the candidate declares, if it has no parameters and every name on the way to it is an
identifier. -/
def resolve? (c : Candidate) : Option QualifiedType :=
  if !c.isGeneric && isIdentifier c.name && c.modulePath.segments.all isIdentifier then
    some ⟨c.modulePath, c.name⟩
  else none

/-- The type that the candidate declares, if it gets a unit under this policy. -/
def qualify (policy : MarkerPolicy) (c : Candidate) : Outcome (Option QualifiedType) :=
  if !c.isExtensible then pure none
  else match c.resolve? with
    | none => do
      Outcome.tell (.unresolvable c.qualifiedName c.source)
      return none
    | some t =>
      if Marker.isMarked policy c.attributes then return some t
      else do
        Outcome.tell (.unmarked c.qualifiedName)
        return none

end Candidate

end TypedId
