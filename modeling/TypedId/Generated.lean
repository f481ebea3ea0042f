/-!
What a generated unit gives its type: the traits it implements and the members it defines. The scan looks
for these names in what is already written, and the template writes them.
-/
namespace TypedId

/-- A trait that the unit implements for its type. The conversions stand apart, since they depend on the
type they convert from. -/
inductive GeneratedTrait where
  | clone | copy | default | partialEq | eq | partialOrd | ord | hash | debug | display
  deriving DecidableEq, Repr

namespace GeneratedTrait

def all : List GeneratedTrait :=
  [clone, copy, default, partialEq, eq, partialOrd, ord, hash, debug, display]

def name : GeneratedTrait → String
  | clone => "Clone"
  | copy => "Copy"
  | default => "Default"
  | partialEq => "PartialEq"
  | eq => "Eq"
  | partialOrd => "PartialOrd"
  | ord => "Ord"
  | hash => "Hash"
  | debug => "Debug"
  | display => "Display"

def isName (s : String) : Bool := all.any fun t => t.name == s

end GeneratedTrait

/-- A member that the unit defines on its type. -/
inductive GeneratedMember where
  | emptyConstant | empty | with
  deriving DecidableEq, Repr

namespace GeneratedMember

def all : List GeneratedMember := [emptyConstant, empty, .with]

def name : GeneratedMember → String
  | emptyConstant => "EMPTY"
  | empty => "empty"
  | .with => "with"

def isName (s : String) : Bool := all.any fun m => m.name == s

end GeneratedMember

/-- The name of the conversion trait. -/
def conversionName : String := "From"

/-- The spellings of the type that an identifier stores. -/
def integerPaths : List String := ["i64", "core::primitive::i64", "std::primitive::i64"]

end TypedId
