import TypedId.Qualify
import TypedId.Text.Json
import TypedId.Unit.Basic

/-!
Reports: what a run prints of its candidates and of its units, for a reader or as JSON.
-/
namespace TypedId

/-- How a piece of a report is coloured. -/
inductive Colour where
  | dimmed | plus | name | key | heading | wrote
  deriving DecidableEq, Repr

namespace Colour

/-- The codes of a terminal for the colour. -/
def codes : Colour → String
  | dimmed => "2"
  | plus => "32;1"
  | name => "35"
  | key => "36"
  | heading => "1"
  | wrote => "32"

/-- The text in the colour, if colours are on. -/
def paint (on : Bool) (c : Colour) (s : String) : String :=
  if on then "\x1b[" ++ c.codes ++ "m" ++ s ++ "\x1b[0m" else s

end Colour

/-- The lines, each with its end. -/
def linesOut (lines : List String) : String := String.join (lines.map (· ++ "\n"))

/-- The path as a JSON string, if it is a text. -/
def DiskPath.json? (p : DiskPath) : Except Failure Text.Json :=
  match Text.decode? p.bytes with
  | some s => .ok (.string s)
  | none => .error .pathNotText

/-- The names of the path as JSON. -/
def ModulePath.json (p : ModulePath) : Text.Json := .array (p.segments.map .string)

/-! ## Candidates -/

/-- A candidate, with the key of its unit if it gets one. -/
structure CandidateReport where
  candidate : Candidate
  key : Option String
  deriving DecidableEq, Repr

namespace CandidateReport

/-- The report on a candidate under this policy. -/
def of (policy : MarkerPolicy) (c : Candidate) : Outcome CandidateReport := do
  let qualified ← c.qualify policy
  return ⟨c, qualified.map QualifiedType.unitKey⟩

/-- The reports on several candidates. -/
def ofAll (policy : MarkerPolicy) : List Candidate → Outcome (List CandidateReport)
  | [] => return []
  | c :: rest => do
    let r ← of policy c
    let more ← ofAll policy rest
    return r :: more

/-- The line for a candidate. -/
def line (colours : Bool) (r : CandidateReport) : String :=
  let location := Colour.dimmed.paint colours ("[" ++ r.candidate.source.shown ++ "]")
  match r.key with
  | some key =>
    Colour.plus.paint colours "+" ++ " " ++ Colour.name.paint colours r.candidate.qualifiedName ++ " " ++
      Colour.key.paint colours ("-> " ++ key) ++ " " ++ location
  | none => Colour.dimmed.paint colours "-" ++ " " ++ r.candidate.qualifiedName ++ " " ++ location

/-- The text for the candidates of a scan. -/
def text (colours : Bool) (reports : List CandidateReport) : String :=
  if reports.isEmpty then linesOut [Colour.dimmed.paint colours "(no extensible declarations)"]
  else
    let qualified := reports.countP fun r => r.key.isSome
    linesOut <| reports.map (line colours) ++
      ["", toString qualified ++ " of " ++ toString reports.length ++ " declarations qualify"]

/-- An attribute as JSON. -/
def attributeJson (a : AttributeRef) : Text.Json :=
  .object [("path", .string a.path), ("resolved", .string a.resolved)]

/-- A report as JSON. -/
def json? (r : CandidateReport) : Except Failure Text.Json := do
  let source ← r.candidate.source.json?
  return .object [
    ("name", .string r.candidate.name),
    ("namespace", r.candidate.modulePath.json),
    ("is_extensible", .bool r.candidate.isExtensible),
    ("is_generic", .bool r.candidate.isGeneric),
    ("attributes", .array (r.candidate.attributes.map attributeJson)),
    ("source", source),
    ("qualified", .bool r.key.isSome),
    ("unit", r.key.elim .null .string)]

end CandidateReport

/-! ## Units -/

/-- A unit with its place. -/
structure UnitReport where
  unit : GeneratedUnit
  path : DiskPath
  deriving DecidableEq, Repr

namespace UnitReport

/-- The lines for a unit: its place and, in a dry run, its text. -/
def lines (colours dryRun : Bool) (r : UnitReport) : List String :=
  if dryRun then [Colour.heading.paint colours ("==> " ++ r.path.shown), r.unit.content]
  else [Colour.wrote.paint colours "wrote" ++ " " ++ r.path.shown]

/-- The text for the units of a run. -/
def text (colours dryRun : Bool) (reports : List UnitReport) : String :=
  if reports.isEmpty then linesOut [Colour.dimmed.paint colours "(no identifiers to generate)"]
  else
    let verb := if dryRun then "would write" else "wrote"
    linesOut <| reports.flatMap (lines colours dryRun) ++
      ["", verb ++ " " ++ toString reports.length ++ " identifier unit(s)"]

/-- A report as JSON. -/
def json? (dryRun : Bool) (r : UnitReport) : Except Failure Text.Json := do
  let path ← r.path.json?
  return .object [
    ("key", .string r.unit.key),
    ("namespace", r.unit.modulePath.json),
    ("type_name", .string r.unit.typeName),
    ("content", .string r.unit.content),
    ("path", path),
    ("written", .bool !dryRun)]

end UnitReport

/-- The JSON values of the reports as one text. -/
def jsonReport (reports : List (Except Failure Text.Json)) : Except Failure String :=
  (reports.mapM id).map fun values => linesOut [(Text.Json.array values).pretty 0]

end TypedId
