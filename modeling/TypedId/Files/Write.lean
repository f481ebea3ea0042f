import TypedId.Files.Disk
import TypedId.Unit.Basic

/-!
Putting units on the disk. A text is written beside the place where it belongs and then moved there, so that
a reader sees the old text or the new one and never a part of either. What was done before a
failure stays.
-/
namespace TypedId

namespace Disk

/-- The extension of a text that has not been moved to its place. -/
def stagedExtension : FileName := Text.encode "tmp"

/-- The path of the directory that a path lies in, unless that is where relative paths begin. -/
def directoryOf? (path : DiskPath) : Option DiskPath :=
  path.parent?.filter fun directory => !directory.bytes.isEmpty

/-- Writes a text beside its place and moves it there. -/
def stage (d : Disk) (path : DiskPath) (content : List UInt8) : Disk × Except Failure Unit :=
  let staged := path.withExtension stagedExtension
  match d.write staged content with
  | .error cause => (d, .error (.unwritable staged cause))
  | .ok d =>
    match d.rename staged path with
    | .error cause => (d, .error (.unwritable path cause))
    | .ok d => (d, .ok ())

/-- Puts a text at a path; directories that are missing around it are made. -/
def replace (d : Disk) (path : DiskPath) (content : List UInt8) : Disk × Except Failure Unit :=
  match directoryOf? path with
  | none => d.stage path content
  | some directory =>
    match d.makeDirectories directory with
    | (d, .error cause) => (d, .error (.unwritable directory cause))
    | (d, .ok ()) => d.stage path content

end Disk

/-- A run that may change the disk: the disk afterwards, and what the run answers. -/
structure DiskRun (α : Type) where
  disk : Disk
  outcome : Outcome α

namespace Disk

/-- Puts the units at their places below a directory, one after another. -/
def writeUnits (d : Disk) (directory : DiskPath) : List GeneratedUnit → DiskRun (List DiskPath)
  | [] => ⟨d, return []⟩
  | unit :: rest =>
    let path := GeneratedUnit.pathIn unit.key directory
    match d.replace path (Text.encode unit.content) with
    | (d, .error e) => ⟨d, .fail e⟩
    | (d, .ok ()) =>
      let more := d.writeUnits directory rest
      ⟨more.disk, do
        Outcome.tell (.wrote path)
        let paths ← more.outcome
        return path :: paths⟩

/-- The places of the units below a directory, with nothing written. -/
def planUnits (directory : DiskPath) (units : List GeneratedUnit) : List DiskPath :=
  units.map fun unit => GeneratedUnit.pathIn unit.key directory

/-- Puts the units at their places below a directory, or, in a dry run, only says where those are. -/
def placeUnits (d : Disk) (directory : DiskPath) (dryRun : Bool) (units : List GeneratedUnit) :
    DiskRun (List DiskPath) :=
  if dryRun then ⟨d, return planUnits directory units⟩ else d.writeUnits directory units

end Disk

end TypedId
