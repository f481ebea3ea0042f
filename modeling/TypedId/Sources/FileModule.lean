import TypedId.Files.Disk
import TypedId.Grammar.Source

/-!
The module of a source file, read off where the file lies below the root of the sources. Directories are
modules, and the file is a module inside them unless its name says that it holds the module itself.
-/
namespace TypedId

namespace ModulePath

/-- The names of files that hold the module of their directory. -/
def directoryStems : List String := ["lib", "main", "mod"]

/-- Reserved words that cannot be written raw. -/
def neverRaw : List String := ["crate", "self", "super", "Self", "_"]

/-- The name of the module that a file or a directory with this name is: a reserved word becomes a raw
identifier, every other name stays as it is. -/
def segmentOf (name : String) : String :=
  if !neverRaw.contains name && !isIdentifier name && isIdentifier ("r#" ++ name) then "r#" ++ name
  else name

/-- The module of the file that these components lead to from the root of the sources. -/
def ofComponents? (components : List Component) : Option ModulePath :=
  match components.getLast? with
  | some (.name file) =>
    let directories := (components.filterMap Component.name?).dropLast
    let stem := Text.decodeLossy (FileName.stem file)
    let own := if directoryStems.contains stem then [] else [segmentOf stem]
    some ⟨directories.map (fun n => segmentOf (Text.decodeLossy n)) ++ own⟩
  | _ => none

end ModulePath

namespace Disk

/-- The components that lead from the root to the file. Where the one path does not begin with the other,
both are followed to the places that they lead to. -/
def relative? (d : Disk) (root file : DiskPath) : Option (List Component) :=
  match DiskPath.below? root file with
  | some components => some components
  | none =>
    match d.canonical root, d.canonical file with
    | .ok base, .ok place => if base.isPrefixOf place then some (place.drop base.length) else none
    | _, _ => none

/-- The module of a file below this root. -/
def moduleOf? (d : Disk) (root file : DiskPath) : Option ModulePath :=
  (d.relative? root file).bind ModulePath.ofComponents?

end Disk

end TypedId
