import TypedId.Generated
import TypedId.Unit.Layout

/-!
The template: the `impl` blocks that make a one-field struct an identifier. Every path in it begins at the
root of names, so that a unit means the same wherever it is included.
-/
namespace TypedId

/-- The name of a generated trait as an identifier. -/
def GeneratedTrait.ident (t : GeneratedTrait) : Ident :=
  ⟨false, t.name, by cases t <;> decide +kernel⟩

/-- The module of the core library that holds the trait. -/
def GeneratedTrait.module : GeneratedTrait → Phrase
  | clone => Phrase.plain "clone"
  | copy => Phrase.plain "marker"
  | default => Phrase.plain "default"
  | partialEq | eq | partialOrd | ord => Phrase.plain "cmp"
  | hash => Phrase.plain "hash"
  | debug | display => Phrase.plain "fmt"

namespace Template

open Phrase

/-! ## Phrases -/

/-- A name after `::`. -/
def step (p : Phrase) : Phrase := marks [':', ':'] ++ p

/-- A name of a module of the core library. -/
def core (module name : Phrase) : Phrase := step (plain "core") ++ step module ++ step name

def traitPath (t : GeneratedTrait) : Phrase := core t.module (name t.ident)

/-- The path of the conversion trait. -/
def conversion : Phrase := core (plain "convert") (plain "From")

def selfType : Phrase := word .kwSelfType

def self : Phrase := word .kwSelf

def borrowedSelf : Phrase := marks ['&'] ++ self

def integer : Phrase := plain "i64"

def typed (n type : Phrase) : Phrase := n ++ marks [':'] ++ gap ++ type

/-- The stored integer of a value. -/
def stored (value : Phrase) : Phrase := value ++ marks ['.'] ++ number "0"

/-- A reference to the stored integer of a value. -/
def storedRef (value : Phrase) : Phrase := marks ['&'] ++ stored value

def call (function : Phrase) (arguments : List Phrase) : Phrase :=
  function ++ enclosed .parenthesis (between comma arguments)

def wrap (value : Phrase) : Phrase := call selfType [value]

def emptyValue : Phrase := selfType ++ step (plain "EMPTY")

def ordering : Phrase := core (plain "cmp") (plain "Ordering")

/-- A type of the core library with one argument. -/
def optional (type : Phrase) : Phrase :=
  core (plain "option") (plain "Option") ++ marks ['<'] ++ type ++ marks ['>']

/-- An attribute that is one name. -/
def nameAttribute (n : Phrase) : Phrase := marks ['#'] ++ enclosed .bracket n

def inlined : Phrase := nameAttribute (plain "inline")

def mustUse : Phrase := nameAttribute (plain "must_use")

/-- The end of a function's head: the type it answers, and the brace that opens its body. -/
def answers (type : Phrase) : Phrase :=
  gap ++ marks ['-', '>'] ++ gap ++ type ++ gap ++ [.opening .brace]

def publicConst : Phrase := word .kwPub ++ gap ++ word .kwConst

/-! ## Members and blocks -/

/-- A documentation line of a member. -/
def documented (text : String) : Line := ⟨4, [.doc text.toList]⟩

/-- A function with its attributes and its one line of body. -/
def method (attributes : List Phrase) (before : Phrase) (parameters : List Phrase) (after : Phrase)
    (body : Phrase) : List Line :=
  attributes.map (fun a => ⟨4, a⟩) ++ functionHead 4 before parameters after ++
    [⟨8, body⟩, ⟨4, [.closing .brace]⟩]

def function (n : Phrase) : Phrase := word .kwFn ++ gap ++ n

/-- The brace that closes a block. -/
def blockEnd : List Line := [⟨0, [.closing .brace]⟩]

/-- A block without members: its brace is closed on the line that opens it. -/
def closedHere : List Line → List Line
  | [] => []
  | [l] => [⟨l.indent, l.parts ++ [.closing .brace]⟩]
  | l :: rest => l :: closedHere rest

/-- A block that implements a generated trait for the type. -/
def traitBlock (t : GeneratedTrait) (type : Phrase) (members : List Line) : List Line :=
  let head := implHead (traitPath t) none type
  if members.isEmpty then closedHere head else head ++ members ++ blockEnd

/-- The block with the members of the type itself. -/
def inherentBlock (type : Phrase) : List Line :=
  [⟨0, word .kwImpl ++ gap ++ type ++ gap ++ [.opening .brace]⟩] ++
  [documented " The empty identifier, equal to the default value.",
    ⟨4, publicConst ++ gap ++ typed (plain "EMPTY") selfType ++ gap ++ marks ['='] ++ gap ++
      wrap (number "0") ++ marks [';']⟩] ++
  [documented " Returns the empty identifier."] ++
  method [mustUse] (publicConst ++ gap ++ function (plain "empty")) [] (answers selfType) emptyValue ++
  [documented " Wraps a raw value as an identifier."] ++
  method [mustUse] (publicConst ++ gap ++ function (plain "with")) [typed (plain "value") integer]
    (answers selfType) (wrap (plain "value")) ++
  blockEnd

def otherSelf : Phrase := typed (plain "other") (marks ['&'] ++ selfType)

/-- A call of the total comparison. -/
def comparison (a b : Phrase) : Phrase := call (traitPath .ord ++ step (plain "cmp")) [a, b]

/-- The formatter that a value is printed with. -/
def formatter : Phrase :=
  typed (plain "f") (marks ['&'] ++ word .kwMut ++ gap ++ core (plain "fmt") (plain "Formatter") ++
    marks ['<'] ++ [.token (.lifetime (.keyword .kwUnderscore))] ++ marks ['>'])

/-- The method that prints the stored integer. -/
def printing : List Line :=
  method [] (function (plain "fmt")) [borrowedSelf, formatter]
    (answers (core (plain "fmt") (plain "Result")))
    (call (traitPath .display ++ step (plain "fmt")) [storedRef self, plain "f"])

/-- The members of the block that implements a generated trait. -/
def traitMembers : GeneratedTrait → List Line
  | .clone =>
    method [inlined] (function (plain "clone")) [borrowedSelf] (answers selfType) (marks ['*'] ++ self)
  | .default => method [inlined] (function (plain "default")) [] (answers selfType) emptyValue
  | .partialEq =>
    method [inlined] (function (plain "eq")) [borrowedSelf, otherSelf] (answers (plain "bool"))
      (stored self ++ gap ++ marks ['=', '='] ++ gap ++ stored (plain "other"))
  | .partialOrd =>
    method [inlined] (function (plain "partial_cmp")) [borrowedSelf, otherSelf]
      (answers (optional ordering))
      (call (core (plain "option") (plain "Option") ++ step (plain "Some"))
        [comparison self (plain "other")])
  | .ord =>
    method [inlined] (function (plain "cmp")) [borrowedSelf, otherSelf] (answers ordering)
      (comparison (storedRef self) (storedRef (plain "other")))
  | .hash =>
    method [inlined]
      (function (plain "hash") ++ marks ['<'] ++
        typed (plain "H") (core (plain "hash") (plain "Hasher")) ++ marks ['>'])
      [borrowedSelf, typed (plain "state") (marks ['&'] ++ word .kwMut ++ gap ++ plain "H")]
      (gap ++ [.opening .brace])
      (call (traitPath .hash ++ step (plain "hash")) [storedRef self, plain "state"] ++ marks [';'])
  | .display | .debug => printing
  | .copy | .eq => []

/-- A block that converts one type into another. -/
def conversionBlock (source target : Phrase) (body : Phrase) : List Line :=
  implHead conversion (some source) target ++
    method [inlined] (function (plain "from")) [typed (plain "value") source] (answers selfType) body ++
    blockEnd

/-- The traits in the order in which the unit implements them. -/
def traitOrder : List GeneratedTrait :=
  [.clone, .copy, .default, .partialEq, .eq, .partialOrd, .ord, .hash, .display, .debug]

/-- The lines of the unit for a type with this name. -/
def lines (n : Ident) : List Line :=
  inherentBlock (name n) ++
  traitOrder.flatMap (fun t => traitBlock t (name n) (traitMembers t)) ++
  conversionBlock integer (name n) (wrap (plain "value")) ++
  conversionBlock (name n) integer (stored (plain "value"))

/-- The tokens of the unit for a type with this name. -/
def tokens? (n : Ident) : Option (List Token) := Lexeme.nest (linesLexemes (lines n))

end Template

end TypedId
