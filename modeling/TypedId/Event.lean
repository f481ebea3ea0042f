import TypedId.Files.DiskPath
import TypedId.ModulePath

/-!
What is worth telling while the work goes on. An event says what happened; its level, its message and its
fields are read off it.
-/
namespace TypedId

/-- Why a struct cannot receive the generated members. -/
inductive Obstacle where
  | notTuple
  | notOneField
  | fieldNotPrivate
  | fieldNotInteger
  | derivesGenerated
  | implementsGenerated
  deriving DecidableEq, Repr

def Obstacle.text : Obstacle → String
  | notTuple => "not a tuple struct"
  | notOneField => "does not have exactly one field"
  | fieldNotPrivate => "storage field is not private"
  | fieldNotInteger => "storage field is not i64"
  | derivesGenerated => "derives a generated trait"
  | implementsGenerated => "already implements a generated member"

/-- How loud an event is. -/
inductive Level where
  | error | warn | info | debug | trace
  deriving DecidableEq, Repr

namespace Level

/-- Louder levels have smaller ranks. -/
def rank : Level → Nat
  | error => 1
  | warn => 2
  | info => 3
  | debug => 4
  | trace => 5

def text : Level → String
  | error => "ERROR"
  | warn => "WARN"
  | info => "INFO"
  | debug => "DEBUG"
  | trace => "TRACE"

end Level

/-- Something that happened. -/
inductive Event where
  | discovered (path : DiskPath) (modulePath : ModulePath)
  | notExtensible (name : String) (obstacle : Obstacle)
  | scanned (path : DiskPath) (count : Nat)
  | unparsable (path : DiskPath)
  | unresolvable (name : String) (source : DiskPath)
  | unmarked (name : String)
  | duplicate (key : String) (source : DiskPath)
  | wrote (path : DiskPath)
  | scanFinished (count : Nat)
  deriving DecidableEq, Repr

/-- The value of a field: a text that is shown as it is, a text that is shown quoted, or a number. -/
inductive FieldValue where
  | shown (s : String)
  | quoted (s : String)
  | number (n : Nat)
  deriving DecidableEq, Repr

/-- The message for a source file that does not follow the grammar. -/
def unparsableMessage (path : DiskPath) : String := "Failed to parse `" ++ path.shown ++ "`"

namespace Event

def level : Event → Level
  | discovered .. | notExtensible .. | scanned .. | unresolvable .. | unmarked .. | scanFinished .. => .debug
  | unparsable .. | duplicate .. => .warn
  | wrote .. => .info

def message : Event → String
  | discovered .. => "discovered source"
  | notExtensible .. => "struct is not extensible"
  | scanned .. => "scanned source"
  | unparsable path => unparsableMessage path
  | unresolvable .. => "skipping unresolvable declaration"
  | unmarked .. => "skipping declaration without marker"
  | duplicate .. => "skipping duplicate identifier unit"
  | wrote .. => "wrote unit"
  | scanFinished .. => "scan finished"

/-- The fields of an event, in the order in which they are shown. -/
def fields : Event → List (String × FieldValue)
  | discovered path modulePath => [("path", .shown path.shown), ("namespace", .shown modulePath.text)]
  | notExtensible name obstacle => [("name", .shown name), ("reason", .quoted obstacle.text)]
  | scanned path count => [("path", .shown path.shown), ("count", .number count)]
  | unparsable _ => []
  | unresolvable name source => [("name", .shown name), ("source", .shown source.shown)]
  | unmarked name => [("name", .shown name)]
  | duplicate key source => [("key", .shown key), ("source", .shown source.shown)]
  | wrote path => [("path", .shown path.shown)]
  | scanFinished count => [("count", .number count)]

/-- The part of the program that tells of an event; log filters are matched against it. -/
def origin : Event → String
  | discovered .. => "idgen_lib::source"
  | notExtensible .. => "idgen_lib::scanner"
  | scanned .. | unparsable .. | duplicate .. => "idgen_lib::pipeline"
  | unresolvable .. | unmarked .. => "idgen_lib::qualifier"
  | wrote .. => "idgen_lib::output"
  | scanFinished .. => "idgen"

end Event

end TypedId
