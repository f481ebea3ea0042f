import TypedId.Ignore.Walk
import TypedId.Scan
import TypedId.Sources.FileModule

/-!
Discovery: the source texts below the inputs that a run is given. A directory is walked for source files, a
file is taken whatever its name. The files come in the order of their paths, each path once.
-/
namespace TypedId

/-- Where a run looks for sources: what it is given, and the root that modules are counted from, if it is
not each input itself. -/
structure Inputs where
  paths : List DiskPath
  root : Option DiskPath
  deriving DecidableEq, Repr

/-- A source file that was found, with the root that its module is counted from. -/
structure FoundFile where
  path : DiskPath
  base : DiskPath
  deriving DecidableEq, Repr

namespace FoundFile

/-- Files are ordered by their paths, and then by their roots. -/
def atMost (a b : FoundFile) : Bool :=
  a.path.before b.path || (a.path.same b.path && !b.base.before a.base)

/-- A file and those after it, without those whose path is that of the file before. -/
def dropRepeatedAfter (f : FoundFile) : List FoundFile → List FoundFile
  | [] => [f]
  | g :: rest => if f.path.same g.path then f.dropRepeatedAfter rest else f :: g.dropRepeatedAfter rest

/-- The files without those whose path is that of the file before. -/
def dropRepeated : List FoundFile → List FoundFile
  | [] => []
  | f :: rest => f.dropRepeatedAfter rest

end FoundFile

namespace Disk

/-- The extension of source files. -/
def sourceExtension : FileName := Text.encode "rs"

/-- The entry is a source file. -/
def isSource (e : DiskPath × Entry) : Bool :=
  match e.2 with
  | .file _ => e.1.fileName?.bind FileName.extension? == some sourceExtension
  | _ => false

/-- The source files that one input stands for. -/
def filesOf (d : Disk) (root : Option DiskPath) (input : DiskPath) : Except Failure (List FoundFile) :=
  if !d.isPresent input then .error (.inputMissing input)
  else if d.isDirectory input then
    (d.walkDirectory input).map fun found =>
      (found.filter isSource).map fun e => ⟨e.1, root.getD input⟩
  else .ok [⟨input, root.getD (input.parent?.getD ⟨[]⟩)⟩]

/-- The source files that the inputs stand for, in the order of their paths, each path once. -/
def filesOfAll (d : Disk) (inputs : Inputs) : Except Failure (List FoundFile) :=
  (inputs.paths.mapM (d.filesOf inputs.root)).map fun found =>
    FoundFile.dropRepeated (found.flatten.mergeSort FoundFile.atMost)

/-- The text of a file that was found, under its module. -/
def readSource (d : Disk) (f : FoundFile) : Outcome SourceText :=
  match d.moduleOf? f.base f.path with
  | none => .fail (.outsideRoot f.path f.base)
  | some modulePath => do
    Outcome.tell (.discovered f.path modulePath)
    match d.readText f.path with
    | .ok text => return ⟨f.path, modulePath, text⟩
    | .error cause => .fail (.unreadable f.path cause)

/-- The texts of the files that were found. -/
def readSources (d : Disk) : List FoundFile → Outcome (List SourceText)
  | [] => return []
  | f :: rest => do
    let s ← d.readSource f
    let more ← d.readSources rest
    return s :: more

/-- The source texts below the inputs. -/
def discover (d : Disk) (inputs : Inputs) : Outcome (List SourceText) :=
  match d.filesOfAll inputs with
  | .ok files => d.readSources files
  | .error e => .fail e

end Disk

end TypedId
