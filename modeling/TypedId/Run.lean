import TypedId.Files.Write
import TypedId.Generate
import TypedId.Sources.Discover

/-!
Whole runs on a disk: the scan of the sources below the inputs, and the generation that follows it.
-/
namespace TypedId

namespace Disk

/-- The candidates in the sources below the inputs. -/
def scan (d : Disk) (inputs : Inputs) : Outcome (List Candidate) := do
  let sources ← d.discover inputs
  scanAll sources

/-- The units for the candidates in the sources below the inputs. -/
def generateUnits (d : Disk) (inputs : Inputs) (policy : MarkerPolicy) : Outcome (List GeneratedUnit) := do
  let candidates ← d.scan inputs
  generate policy candidates

/-- Generates the units and puts them at their places; answers each unit with its place. -/
def generateAndWrite (d : Disk) (inputs : Inputs) (policy : MarkerPolicy) (directory : DiskPath)
    (dryRun : Bool) : DiskRun (List (GeneratedUnit × DiskPath)) :=
  let generated := d.generateUnits inputs policy
  match generated.result with
  | .error e => ⟨d, ⟨.error e, generated.log⟩⟩
  | .ok units =>
    let placed := d.placeUnits directory dryRun units
    ⟨placed.disk, do
      let units ← generated
      let paths ← placed.outcome
      return units.zip paths⟩

end Disk

end TypedId
