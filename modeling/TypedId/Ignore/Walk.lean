import TypedId.Files.Disk
import TypedId.Ignore.Rule

/-!
Walking a directory as the ignore files allow. For every entry the rules of the directories around it are
asked, the nearest first: the files `.ignore` everywhere, then the files `.gitignore` as far out as the
repository goes, then the excludes of the repository. An entry that no rule speaks of is passed over if
its name begins with a point. What is in a directory that is passed over is never looked at. All rules come from the
tree: the excludes that a user sets for every repository of a machine are left out.
-/
namespace TypedId

/-- The rules that one directory holds. -/
structure DirectoryRules where
  own : IgnoreFile
  versioned : IgnoreFile
  excluded : IgnoreFile
  isRepository : Bool
  faults : List (DiskPath × LineFault)

namespace DirectoryRules

/-- The path of the entry with this name. -/
def child (directory : DiskPath) (name : String) : DiskPath := directory.join (DiskPath.ofString name)

/-- The rules in a file, which need not exist. -/
def readFile (d : Disk) (file : DiskPath) : List IgnoreRule × List (DiskPath × LineFault) :=
  match d.read file with
  | .ok content =>
    let (rules, faults) := IgnoreFile.ofContent content
    (rules, faults.map fun fault => (file, fault))
  | .error _ => ([], [])

/-- The first line of a text file, which need not exist. -/
def firstLine? (d : Disk) (file : DiskPath) : Option String :=
  match d.read file with
  | .ok content => ((IgnoreFile.splitLines content).head?).bind Text.decode?
  | .error _ => none

/-- Where the repository that a file `.git` points to keeps what all its working trees share. -/
def sharedRepository? (d : Disk) (pointer : DiskPath) : Option DiskPath := do
  let line ← firstLine? d pointer
  let repository ←
    if line.startsWith "gitdir: " then
      some (DiskPath.ofString (String.ofList (line.toList.drop "gitdir: ".length)))
    else none
  let shared ← firstLine? d (child repository "commondir")
  if shared.startsWith "." then some (child repository shared) else some (DiskPath.ofString shared)

/-- Where the repository of a directory keeps its own files. -/
def repository? (d : Disk) (directory : DiskPath) : Option DiskPath :=
  match d.find (child directory ".git") with
  | .ok (_, .file _) => sharedRepository? d (child directory ".git")
  | .ok _ => some (child directory ".git")
  | .error _ => none

/-- Reads the rules of a directory. -/
def read (d : Disk) (directory : DiskPath) : DirectoryRules :=
  let own := readFile d (child directory ".ignore")
  let versioned := readFile d (child directory ".gitignore")
  let excluded := match repository? d directory with
    | some repository => readFile d (child (child repository "info") "exclude")
    | none => ([], [])
  {
    own := ⟨directory.bytes, own.1⟩
    versioned := ⟨directory.bytes, versioned.1⟩
    excluded := ⟨directory.bytes, excluded.1⟩
    isRepository := d.isPresent (child directory ".git")
    faults := own.2 ++ versioned.2 ++ excluded.2 }

end DirectoryRules

/-- The rules of a directory, with the bytes of the path that they are asked about. -/
structure PlacedRules where
  rules : DirectoryRules
  path : List UInt8

namespace PlacedRules

/-- The directories up to the first repository; none if there is no repository. -/
def upToRepository : List PlacedRules → List PlacedRules
  | [] => []
  | p :: rest =>
    if p.rules.isRepository then [p]
    else match upToRepository rest with
      | [] => []
      | more => p :: more

/-- What the rules of the directories, the nearest first, say of the entry. -/
def verdict? (chain : List PlacedRules) (isDirectory : Bool) : Option Verdict :=
  let repository := upToRepository chain
  (chain.findSome? fun p => p.rules.own.verdict? p.path isDirectory)
    <|> (repository.findSome? fun p => p.rules.versioned.verdict? p.path isDirectory)
    <|> (repository.findSome? fun p => p.rules.excluded.verdict? p.path isDirectory)

/-- An entry with this name is not passed over. -/
def admits (chain : List PlacedRules) (name : FileName) (isDirectory : Bool) : Bool :=
  match verdict? chain isDirectory with
  | some .ignored => false
  | some .admitted => true
  | none => name.head? != some FileName.dot

end PlacedRules

/-- The path of an entry that lies this many names below another one. -/
def DiskPath.joinNames (p : DiskPath) (names : Location) : DiskPath :=
  names.foldl (fun q n => q.join ⟨n⟩) p

/-- A directory that is walked: its path, the path of the same directory from the root of the disk, and
the rules of the directories around it, the nearest first. -/
structure WalkRoot where
  path : DiskPath
  absolute : DiskPath
  around : List DirectoryRules

namespace WalkRoot

/-- The path of an entry as the rules around the walked directory are asked about it. -/
def pathFromRoot (w : WalkRoot) (path : List UInt8) : List UInt8 :=
  let relative :=
    if w.path.components == [.here] then path
    else IgnoreFile.dropFront [FileName.slash]
      (IgnoreFile.dropFront (IgnoreFile.dropHere w.path.bytes) path)
  (w.absolute.join ⟨relative⟩).bytes

/-- The entry with these names below the directory is reached, where `inside` are the rules of the
directories on the way that was gone. -/
def reaches (d : Disk) (w : WalkRoot) (isDirectory : Bool) (inside : List DirectoryRules)
    (gone : Location) : Location → Bool
  | [] => true
  | name :: rest =>
    let inside := DirectoryRules.read d (w.path.joinNames gone) :: inside
    let path := IgnoreFile.dropHere (w.path.joinNames (gone ++ [name])).bytes
    let chain := (inside.map fun rules => PlacedRules.mk rules path)
      ++ w.around.map fun rules => PlacedRules.mk rules (w.pathFromRoot path)
    PlacedRules.admits chain name (isDirectory || !rest.isEmpty)
      && w.reaches d isDirectory inside (gone ++ [name]) rest

end WalkRoot

namespace Disk

/-- The places around a place, the nearest first. -/
def placesAround (l : Location) : List Location :=
  (List.range l.length).reverse.map fun n => l.take n

/-- The path of a place. -/
def pathOf (l : Location) : DiskPath := DiskPath.joinNames ⟨[FileName.slash]⟩ l

/-- What is found in a directory and below it, without what the ignore files pass over. -/
def walkDirectory (d : Disk) (path : DiskPath) : Except Failure (List (DiskPath × Entry)) :=
  match d.resolve true path with
  | .error _ => .ok []
  | .ok l =>
    let around := (placesAround l).map fun place => DirectoryRules.read d (pathOf place)
    match around.reverse.flatMap DirectoryRules.faults with
    | (file, fault) :: _ => .error (.badIgnoreFile file fault.line fault.text fault.fault.text)
    | [] =>
      let w : WalkRoot := ⟨path, pathOf l, around⟩
      .ok <| (d.below l).filterMap fun e =>
        if w.reaches d (e.2 == .directory) [] [] e.1 then some (path.joinNames e.1, e.2) else none

end Disk

end TypedId
