import TypedId.Scan
import TypedId.Unit.Basic

/-!
Generation: one unit for every type that qualifies. If two candidates have the same key, as when a file is
scanned twice, the first one gets the unit.
-/
namespace TypedId

/-- An outcome that only answers. -/
def Outcome.ofExcept {α : Type} (e : Except Failure α) : Outcome α := ⟨e, []⟩

/-- The units for the candidates, where the keys in `taken` have been given away. -/
def generateFrom (policy : MarkerPolicy) (taken : List String) :
    List Candidate → Outcome (List GeneratedUnit)
  | [] => return []
  | c :: rest => do
    match ← c.qualify policy with
    | none => generateFrom policy taken rest
    | some t =>
      if taken.contains t.unitKey then
        Outcome.tell (.duplicate t.unitKey c.source)
        generateFrom policy taken rest
      else
        let unit ← Outcome.ofExcept (GeneratedUnit.render t)
        let units ← generateFrom policy (t.unitKey :: taken) rest
        return unit :: units

/-- The units for the candidates, in their order. -/
def generate (policy : MarkerPolicy) (candidates : List Candidate) : Outcome (List GeneratedUnit) :=
  generateFrom policy [] candidates

/-- The candidates of several source texts. One that does not follow the grammar is passed over. -/
def scanAll : List SourceText → Outcome (List Candidate)
  | [] => return []
  | s :: rest =>
    let found := scanSource s
    match found.result with
    | .ok candidates => do
      let all : Outcome (List Candidate) := do
        Outcome.tell (.scanned s.path candidates.length)
        let more ← scanAll rest
        return candidates ++ more
      ⟨all.result, found.log ++ all.log⟩
    | .error _ => do
      Outcome.tell (.unparsable s.path)
      scanAll rest

end TypedId
