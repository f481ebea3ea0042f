import TypedId.Files.DiskPath
import TypedId.Marker
import TypedId.ModulePath

/-!
Candidates: struct declarations that a unit could be generated for, before anybody asks for the marker.
-/
namespace TypedId

/-- A struct declaration that could receive the generated members. -/
structure Candidate where
  name : String
  modulePath : ModulePath
  isExtensible : Bool
  isGeneric : Bool
  attributes : List AttributeRef
  source : DiskPath
  deriving DecidableEq, Repr

/-- The name with its module path. -/
def Candidate.qualifiedName (c : Candidate) : String := c.modulePath.qualify c.name

end TypedId
