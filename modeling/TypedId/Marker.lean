/-!
The marker attribute. A declaration asks for a unit by carrying it; whether an attribute is the marker is
read off its path alone, strictly or by its last name.
-/
namespace TypedId

/-- The path of an attribute as it is written, and with its first name replaced by what it was imported
from. -/
structure AttributeRef where
  path : String
  resolved : String
  deriving DecidableEq, Repr

/-- How much of the path has to name the marker. -/
inductive MarkerPolicy where
  | permissive
  | strict
  deriving DecidableEq, Repr

namespace Marker

def name : String := "identifier"

def fullPath : String := "idgen_macros::identifier"

/-- The names that count as the marker's. -/
def spellings : List String := [name, "Identifier"]

/-- The ending that a name may have besides. -/
def ending : List Char := "Attribute".toList

/-- The text without the double colons it begins with. -/
def dropSeparators : List Char → List Char
  | ':' :: ':' :: rest => dropSeparators rest
  | cs => cs

/-- The text up to its first double colon. -/
def beforeSeparator : List Char → List Char
  | [] => []
  | ':' :: ':' :: _ => []
  | c :: rest => c :: beforeSeparator rest

/-- The text after its last double colon. -/
def lastName (cs : List Char) : List Char := (beforeSeparator cs.reverse).reverse

/-- The text without the raw marks it begins with. -/
def dropRawMarks : List Char → List Char
  | 'r' :: '#' :: rest => dropRawMarks rest
  | cs => cs

/-- The text without the tolerated ending. -/
def dropEnding (cs : List Char) : List Char :=
  if ending.isSuffixOf cs then cs.take (cs.length - ending.length) else cs

/-- The resolved path names the marker under this policy. -/
def namesMarker (policy : MarkerPolicy) (resolved : String) : Bool :=
  let path := dropSeparators resolved.toList
  match policy with
  | .strict => path == fullPath.toList
  | .permissive => spellings.contains (String.ofList (dropEnding (dropRawMarks (lastName path))))

def isMatch (policy : MarkerPolicy) (a : AttributeRef) : Bool := namesMarker policy a.resolved

def isMarked (policy : MarkerPolicy) (attributes : List AttributeRef) : Bool :=
  attributes.any (isMatch policy)

end Marker

end TypedId
