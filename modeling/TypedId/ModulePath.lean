/-!
Module paths: the names of the modules around a declaration, outermost first. Written out, the names are
joined by `::`.
-/
namespace TypedId

/-- A module path. The root of the sources has no names. -/
structure ModulePath where
  segments : List String
  deriving DecidableEq, Repr

namespace ModulePath

def root : ModulePath := ⟨[]⟩

def isRoot (p : ModulePath) : Bool := p.segments.isEmpty

/-- The pieces of a text between double colons, taken from the left. -/
def splitSeparators : List Char → List (List Char)
  | [] => [[]]
  | ':' :: ':' :: rest => [] :: splitSeparators rest
  | c :: rest =>
    match splitSeparators rest with
    | piece :: more => (c :: piece) :: more
    | [] => [[c]]

/-- The path that a text spells; empty pieces are passed over. -/
def parse (text : String) : ModulePath :=
  ⟨((splitSeparators text.toList).filter fun piece => !piece.isEmpty).map String.ofList⟩

def text (p : ModulePath) : String := String.intercalate "::" p.segments

/-- The path of a module inside this one. -/
def child (p : ModulePath) (name : String) : ModulePath := ⟨p.segments ++ [name]⟩

/-- The name of a declaration with the path before it. -/
def qualify (p : ModulePath) (name : String) : String :=
  if p.isRoot then name else p.text ++ "::" ++ name

/-- Paths are ordered name by name, and names by their characters. -/
protected def compare (p q : ModulePath) : Ordering := compareOfLessAndEq p.segments q.segments

end ModulePath

end TypedId
