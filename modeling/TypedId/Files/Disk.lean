import TypedId.Failure

/-!
A disk: a tree of directories with files and symbolic links, kept as a list of locations with what stands at
each. A location is the list of names on the way from the root. The operations answer with the error
that refused them, or with the disk as it is afterwards.

A file has one name: what is written under a name changes under no other one. There are no files but regular
ones, and nobody lacks the right to do anything. A write is refused before it changes anything or done as a whole, so no
disk is ever full.
-/
namespace TypedId

/-- A place on the disk: the names on the way from the root. -/
abbrev Location := List FileName

/-- What stands at a place. -/
inductive Entry where
  | file (content : List UInt8)
  | directory
  | link (target : DiskPath)
  deriving DecidableEq, Repr

/-- The places of the disk with what stands at each, and the place where relative paths begin. The root
itself is always a directory. -/
structure Disk where
  entries : List (Location × Entry)
  workplace : Location
  deriving DecidableEq, Repr

namespace Disk

/-- The disk with nothing on it but one directory under the root, where relative paths begin. -/
def bare (name : FileName) : Disk := ⟨[([name], .directory)], [name]⟩

/-- What stands at a place. -/
def entry? (d : Disk) (l : Location) : Option Entry :=
  if l.isEmpty then some .directory else (d.entries.find? fun e => e.1 == l).map Prod.snd

/-- The disk with `e` at a place. -/
def set (d : Disk) (l : Location) (e : Entry) : Disk :=
  { d with entries := (d.entries.filter fun x => x.1 != l) ++ [(l, e)] }

/-- The disk with nothing at a place or below it. -/
def erase (d : Disk) (l : Location) : Disk :=
  { d with entries := d.entries.filter fun x => !l.isPrefixOf x.1 }

def isDirectoryAt (d : Disk) (l : Location) : Bool := d.entry? l == some .directory

/-! ## Resolving paths -/

/-- The longest name. -/
def nameLimit : Nat := 255

/-- The length that no path reaches. -/
def pathLimit : Nat := 4096

/-- How many links are followed on the way to one place. -/
def linkLimit : Nat := 40

def herePiece : FileName := [FileName.dot]

def upPiece : FileName := [FileName.dot, FileName.dot]

/-- The steps of a path, walked one by one. A slash at the end asks for a directory, as a point does. -/
def steps (p : DiskPath) : List FileName :=
  p.pieces.filter (fun piece => !piece.isEmpty) ++
    if p.bytes.getLast? == some FileName.slash then [herePiece] else []

/-- Where a path begins, for one that is read at `here`. -/
def start (here : Location) (p : DiskPath) : Location := if p.isAbsolute then [] else here

/-- The error of a path that no system call takes. -/
def pathError? (p : DiskPath) : Option DiskError :=
  if p.bytes.contains 0 then some .nulInPath
  else if p.bytes.isEmpty then some .notFound
  else if pathLimit ≤ p.bytes.length then some .nameTooLong
  else none

/-- Walks the steps of a path up to a link. What is left of the way is then walked as `follow` says, from the
place where the link stands. A link that comes last is not followed if `followLast` is not set. -/
def walkSteps (d : Disk) (followLast : Bool)
    (follow : Location → DiskPath → List FileName → Except DiskError Location) (here : Location) :
    List FileName → Except DiskError Location
  | [] => .ok here
  | piece :: rest =>
    if !d.isDirectoryAt here then .error .notDirectory
    else if piece = herePiece then d.walkSteps followLast follow here rest
    else if piece = upPiece then d.walkSteps followLast follow here.dropLast rest
    else if nameLimit < piece.length then .error .nameTooLong
    else match d.entry? (here ++ [piece]) with
      | none => .error .notFound
      | some (.link target) =>
        if rest.isEmpty && !followLast then .ok (here ++ [piece]) else follow here target rest
      | some _ => d.walkSteps followLast follow (here ++ [piece]) rest

/-- Walks the steps of a path, and those of the links on the way as long as there are not too many. -/
def walk (d : Disk) (followLast : Bool) : Nat → Location → List FileName → Except DiskError Location
  | 0 => d.walkSteps followLast fun _ _ _ => .error .tooManyLinks
  | links + 1 => d.walkSteps followLast fun here target rest =>
    match pathError? target with
    | some e => .error e
    | none => d.walk followLast links (start here target) (steps target ++ rest)

/-- The place that a path leads to. -/
def resolve (d : Disk) (followLast : Bool) (p : DiskPath) : Except DiskError Location :=
  match pathError? p with
  | some e => .error e
  | none => d.walk followLast linkLimit (start d.workplace p) (steps p)

/-- What a path leads to, links followed. -/
def find (d : Disk) (p : DiskPath) : Except DiskError (Location × Entry) := do
  let l ← d.resolve true p
  match d.entry? l with
  | some e => .ok (l, e)
  | none => .error .notFound

/-- The path leads to something. -/
def isPresent (d : Disk) (p : DiskPath) : Bool :=
  match d.find p with
  | .ok _ => true
  | .error _ => false

def isDirectory (d : Disk) (p : DiskPath) : Bool :=
  match d.find p with
  | .ok (_, .directory) => true
  | _ => false

/-- The components of the path without links and points that leads to the same place. -/
def canonical (d : Disk) (p : DiskPath) : Except DiskError (List Component) := do
  return .root :: (← d.resolve true p).map .name

def read (d : Disk) (p : DiskPath) : Except DiskError (List UInt8) := do
  match ← d.find p with
  | (_, .file content) => .ok content
  | _ => .error .isDirectory

def readText (d : Disk) (p : DiskPath) : Except DiskError String := do
  match Text.decode? (← d.read p) with
  | some s => .ok s
  | none => .error .notText

/-! ## Changing the disk -/

/-- The last piece of a path: a name, whether slashes come after it, or a point or two. -/
inductive LastPiece where
  | name (n : FileName) (slashed : Bool)
  | points

/-- The directory that holds the last piece of a path, and that piece. -/
def resolveParent (d : Disk) (links : Nat) (here : Location) (p : DiskPath) :
    Except DiskError (Location × LastPiece) :=
  match pathError? p with
  | some e => .error e
  | none => do
    let named := p.pieces.filter fun piece => !piece.isEmpty
    let directory ← d.walk true links (start here p) named.dropLast
    if !d.isDirectoryAt directory then .error .notDirectory
    else match named.getLast? with
      | none => .ok (directory, .points)
      | some piece =>
        if piece = herePiece || piece = upPiece then .ok (directory, .points)
        else .ok (directory, .name piece (p.bytes.getLast? == some FileName.slash))

def makeDirectory (d : Disk) (p : DiskPath) : Except DiskError Disk := do
  match ← d.resolveParent linkLimit d.workplace p with
  | (_, .points) => .error .alreadyExists
  | (directory, .name n _) =>
    if nameLimit < n.length then .error .nameTooLong
    else match d.entry? (directory ++ [n]) with
      | some _ => .error .alreadyExists
      | none => .ok (d.set (directory ++ [n]) .directory)

/-- A path and those of the directories around it, innermost first. -/
def ancestors (p : DiskPath) : Nat → List DiskPath
  | 0 => []
  | limit + 1 =>
    if p.bytes.isEmpty then []
    else match p.parent? with
      | some up => p :: ancestors up limit
      | none => [p]

/-- Makes the first of some nested directories after the ones around it that are missing. What has been
made stays if one of them is refused. -/
def makeNested (d : Disk) : List DiskPath → Disk × Except DiskError Unit
  | [] => (d, .ok ())
  | p :: around =>
    match d.makeDirectory p with
    | .ok d' => (d', .ok ())
    | .error .notFound =>
      match d.makeNested around with
      | (d', .error e) => (d', .error e)
      | (d', .ok ()) =>
        match d'.makeDirectory p with
        | .ok d'' => (d'', .ok ())
        | .error e => (d', if d'.isDirectory p then .ok () else .error e)
    | .error e => (d, if d.isDirectory p then .ok () else .error e)

/-- Makes a directory and those around it that are missing. -/
def makeDirectories (d : Disk) (p : DiskPath) : Disk × Except DiskError Unit :=
  d.makeNested (ancestors p (p.bytes.length + 1))

/-- Writes a file at the place that a path leads to; links are followed, also to places where nothing
stands yet. -/
def writeFrom (d : Disk) (content : List UInt8) : Nat → Location → DiskPath → Except DiskError Disk
  | links, here, p => do
    match ← d.resolveParent links here p with
    | (_, .points) => .error .isDirectory
    | (directory, .name n slashed) =>
      if slashed then .error .isDirectory
      else if nameLimit < n.length then .error .nameTooLong
      else match d.entry? (directory ++ [n]) with
        | some .directory => .error .isDirectory
        | some (.link target) =>
          match links with
          | 0 => .error .tooManyLinks
          | more + 1 => d.writeFrom content more directory target
        | _ => .ok (d.set (directory ++ [n]) (.file content))

def write (d : Disk) (p : DiskPath) (content : List UInt8) : Except DiskError Disk :=
  d.writeFrom content linkLimit d.workplace p

/-- Moves a file or a link, and puts it in the place of what stands at the target. -/
def rename (d : Disk) (source target : DiskPath) : Except DiskError Disk := do
  let (oldDirectory, oldLast) ← d.resolveParent linkLimit d.workplace source
  let (newDirectory, newLast) ← d.resolveParent linkLimit d.workplace target
  match oldLast, newLast with
  | .name old oldSlashed, .name new newSlashed =>
    if nameLimit < old.length || nameLimit < new.length then .error .nameTooLong
    else match d.entry? (oldDirectory ++ [old]) with
      | none => .error .notFound
      | some e =>
        if oldSlashed || newSlashed then .error .notDirectory
        else if oldDirectory ++ [old] = newDirectory ++ [new] then .ok d
        else if d.isDirectoryAt (newDirectory ++ [new]) then .error .isDirectory
        else .ok ((d.erase (oldDirectory ++ [old])).set (newDirectory ++ [new]) e)
  | _, _ => .error .busy

/-! ## Listing -/

/-- The names come in the order of a listing: by bytes, and a directory before what is in it. -/
def listedBefore (a b : Location) : Bool := decide (a < b)

/-- What stands below a place, with the names on the way to it, in the order of a listing. -/
def below (d : Disk) (l : Location) : List (Location × Entry) :=
  (d.entries.filterMap fun e =>
    if l.isPrefixOf e.1 && l.length < e.1.length then some (e.1.drop l.length, e.2)
    else none).mergeSort fun a b => !listedBefore b.1 a.1

end Disk

end TypedId
