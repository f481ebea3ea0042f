import TypedId.CommandLine.Run

/-!
The program. It reads what a run can see of the file system into a disk, runs on that, prints the answer and
carries the changes back. A run sees the working directory with all below it, what the paths among the
arguments lead to, and the ignore files of the directories around these.
-/
namespace TypedId.Main

/-- The place that a path without points and links names. -/
def placeOf (path : String) : Location :=
  (DiskPath.ofString path).components.filterMap Component.name?

/-- The path of a place as the system takes it. -/
def systemPath (l : Location) : String := (Disk.pathOf l).shown

/-- Reads an entry of a directory with all below it. -/
partial def readEntry (e : IO.FS.DirEntry) : IO (List (Location × Entry)) := do
  let place := placeOf e.path.toString
  match (← e.path.symlinkMetadata).type with
  | .dir =>
    let inside ← (← e.path.readDir).toList.mapM readEntry
    return (place, .directory) :: inside.flatten
  | .file => return [(place, .file (← IO.FS.readBinFile e.path).toList)]
  | .symlink =>
    try
      let target ← IO.FS.realPath e.path
      return [(place, .link (DiskPath.ofString target.toString))]
    catch _ => return [(place, .link (DiskPath.ofString "nowhere"))]
  | .other => return []

/-- Reads what a path leads to, with all below it. -/
def readTree (path : String) : IO (List (Location × Entry)) := do
  try
    let real ← IO.FS.realPath path
    let place := placeOf real.toString
    if ← real.isDir then
      let inside ← (← real.readDir).toList.mapM readEntry
      return (place, .directory) :: inside.flatten
    else return [(place, .file (← IO.FS.readBinFile real).toList)]
  catch _ => return []

def isDirectory (path : String) : IO Bool := do
  try return ← (← IO.FS.realPath path).isDir
  catch _ => return false

/-- Reads the ignore files in the directories around a place. -/
def readAround (place : Location) : IO (List (Location × Entry)) := do
  let found ← (Disk.placesAround place).mapM fun l => do
    let files ← [".ignore", ".gitignore", ".git/info/exclude"].mapM fun name =>
      readTree (systemPath l ++ "/" ++ name)
    let repository : Location := l ++ [Text.encode ".git"]
    if ← isDirectory (systemPath repository) then return (repository, .directory) :: files.flatten
    else return files.flatten
  return found.flatten

/-- The entries with the directories around each, every place once. -/
def diskOf (workplace : Location) (entries : List (Location × Entry)) : Disk :=
  entries.foldl
    (fun d e =>
      let d := (Disk.placesAround e.1).foldl
        (fun d l => if (d.entry? l).isSome then d else d.set l .directory) d
      d.set e.1 e.2)
    ⟨[], workplace⟩

/-- Reads the disk that a run with these arguments can see. -/
def readDisk (arguments : List String) : IO Disk := do
  let here := placeOf (← IO.currentDir).toString
  let trees ← ((systemPath here) :: arguments).mapM readTree
  let around ← (here :: trees.filterMap fun tree => tree.head?.map Prod.fst).mapM readAround
  return diskOf here (around.flatten ++ trees.flatten)

/-- Carries a change of one place to the file system. A file is moved to its place as a whole. -/
def carry (d : Disk) (e : Location × Entry) : IO Unit := do
  if d.entry? e.1 != some e.2 then
    match e.2 with
    | .directory => IO.FS.createDirAll (systemPath e.1)
    | .file content =>
      let staged := systemPath e.1 ++ ".part"
      IO.FS.writeBinFile staged ⟨content.toArray⟩
      IO.FS.rename staged (systemPath e.1)
    | .link _ => return ()

/-- Removes a file that a run has moved away. -/
def discard (d : Disk) (e : Location × Entry) : IO Unit := do
  if (d.entry? e.1).isNone then
    match e.2 with
    | .file _ => IO.FS.removeFile (systemPath e.1)
    | _ => return ()

end TypedId.Main

open TypedId in
def main (arguments : List String) : IO UInt32 := do
  let disk ← Main.readDisk arguments
  let start : Start := {
    arguments := arguments.map Text.encode
    logSetting := ← IO.getEnv "RUST_LOG"
    noColour := (← IO.getEnv "NO_COLOR").isSome
    terminal := ← (← IO.getStdout).isTty }
  let (after, answer) := runProgram disk start
  after.entries.forM (Main.carry disk)
  disk.entries.forM (Main.discard after)
  answer.log.forM fun e => IO.eprintln e.logLine
  IO.print answer.output
  match answer.failure with
  | some e => IO.eprintln ("Error: " ++ e.record)
  | none => if answer.code = 2 then IO.eprint (Topic.usage .program)
  return answer.code.toUInt32
