import TypedId.Event
import TypedId.Text.CharClass
import TypedId.Text.Numeral
import TypedId.Text.Split

/-!
Which events are logged. A filter is a list of directives: each lets events of a part of the program through
up to a level. The directive with the longest name of a part decides.
-/
namespace TypedId

/-- Up to which level events are let through; the smallest number is for none. -/
abbrev LevelLimit := Nat

/-- A directive of a log filter. One without a target speaks of the whole program. -/
structure LogDirective where
  target : Option String
  limit : LevelLimit
  deriving DecidableEq, Repr

/-- A log filter. Later directives come first. -/
structure LogFilter where
  directives : List LogDirective
  deriving DecidableEq, Repr

namespace LogFilter

def limitNames : List (String × LevelLimit) :=
  [("off", 0), ("error", 1), ("warn", 2), ("info", 3), ("debug", 4), ("trace", 5)]

/-- The limit that a text spells, by its number or by its name in any case. Nothing at all stands for the
errors. -/
def limit? (cs : List Char) : Option LevelLimit :=
  match Text.natural? (Text.dropPlus cs) with
  | some n => if n ≤ 5 then some n else none
  | none =>
    if cs.isEmpty then some 1
    else (limitNames.find? fun l => l.1.toList == cs.map Char.toLower).map Prod.snd

/-- The character may begin a directive. -/
def isDirectiveStart (c : Char) : Bool :=
  c == '-' || c == ':' || c == '_' || c == '[' || Text.isIdentStart c || c.isDigit

/-- The directive that a text spells: a limit, a target, or both with an equals sign between them. A target
alone is let through at every level. White space before the directive moves the place where it is cut. -/
def directive? (cs : List Char) : Option LogDirective :=
  let trimmed := ((cs.dropWhile Text.isWhiteSpace).reverse.dropWhile Text.isWhiteSpace).reverse
  if !trimmed.head?.any isDirectiveStart then none
  else if trimmed.contains '=' then
    let n := (trimmed.takeWhile (· != '=')).length
    (limit? (cs.drop (n + 1))).map fun limit => ⟨some (String.ofList (cs.take n)), limit⟩
  else match limit? cs with
    | some limit => some ⟨none, limit⟩
    | none => some ⟨some (String.ofList cs), 5⟩

/-- The filter that a text spells: directives with commas between them. Without any, errors are let
through. -/
def ofText? (text : String) : Option LogFilter :=
  let pieces := (Text.split ',' text.toList).filter fun piece => !piece.isEmpty
  if pieces.isEmpty then some ⟨[⟨none, 1⟩]⟩
  else (pieces.mapM directive?).map fun directives => ⟨directives.reverse⟩

/-- The filter for a verbosity: warnings, and one level more for each step. -/
def ofVerbosity (n : Nat) : LogFilter := ⟨[⟨none, min (n + 2) 5⟩]⟩

/-- How closely a directive speaks of a part of the program; nothing if it does not. -/
def closeness? (origin : String) (d : LogDirective) : Option Nat :=
  match d.target with
  | none => some 0
  | some target =>
    if target.toList.isPrefixOf origin.toList then some (target.utf8ByteSize + 1) else none

/-- The limit for a part of the program: that of the closest directive, and of two as close the one that
comes first in the list. -/
def limitFor (f : LogFilter) (origin : String) : LevelLimit :=
  (f.directives.foldl (fun best d =>
    match closeness? origin d, best with
    | none, best => best
    | some n, none => some (n, d.limit)
    | some n, some (m, limit) => if m < n then some (n, d.limit) else some (m, limit))
    (none : Option (Nat × LevelLimit))).elim 0 Prod.snd

def admits (f : LogFilter) (e : Event) : Bool := e.level.rank ≤ f.limitFor e.origin

end LogFilter

/-- The value of a field in a line of the log. -/
def FieldValue.logText : FieldValue → String
  | shown s => s
  | quoted s => Text.quoted s
  | number n => toString n

/-- The line of the log for an event. -/
def Event.logLine (e : Event) : String :=
  e.fields.foldl (fun line field => line ++ " " ++ field.1 ++ "=" ++ field.2.logText)
    (e.level.text ++ " " ++ e.message)

end TypedId
