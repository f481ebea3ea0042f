import TypedId.Text.Split
import TypedId.Text.Utf8
import TypedId.Text.Quoted

/-!
Paths on disk as bytes. A path is taken apart into components: empty pieces and single points do not count,
except a point that comes first. Paths are compared by components, never by their bytes.
-/
namespace TypedId

/-- A name on disk: bytes without a slash. -/
abbrev FileName := List UInt8

/-- A path on disk. -/
structure DiskPath where
  bytes : List UInt8
  deriving DecidableEq, Repr

/-- A component of a path. -/
inductive Component where
  | root
  | here
  | up
  | name (n : FileName)
  deriving DecidableEq, Repr

namespace FileName

def slash : UInt8 := 47

def dot : UInt8 := 46

/-- The part of a name before its last point and the part after it. A name has none if its only
point comes first. -/
def splitAtDot? (n : FileName) : Option (FileName × FileName) :=
  let after := (n.reverse.takeWhile (· != dot)).reverse
  let before := n.take (n.length - after.length - 1)
  if before.isEmpty || n == [dot, dot] then none else some (before, after)

def stem (n : FileName) : FileName :=
  match splitAtDot? n with
  | some (before, _) => before
  | none => n

def extension? (n : FileName) : Option FileName := (splitAtDot? n).map Prod.snd

end FileName

namespace Component

/-- The order of kinds of components: the root, the point, the two points, names. -/
def rank : Component → Nat
  | root => 0
  | here => 1
  | up => 2
  | name _ => 3

/-- The bytes of a name; none for the other kinds. -/
def nameBytes : Component → List UInt8
  | name n => n
  | _ => []

/-- Components are ordered by kind and names by their bytes. -/
def before (a b : Component) : Bool :=
  a.rank < b.rank || (a.rank == b.rank && decide (a.nameBytes < b.nameBytes))

def name? : Component → Option FileName
  | name n => some n
  | _ => none

end Component

namespace DiskPath

open FileName

def ofString (s : String) : DiskPath := ⟨Text.encode s⟩

/-- The path as it is shown to a reader. -/
def shown (p : DiskPath) : String := Text.decodeLossy p.bytes

/-- The pieces of a path between its slashes; always at least one. -/
def pieces (p : DiskPath) : List (List UInt8) := Text.split slash p.bytes

def isAbsolute (p : DiskPath) : Bool := p.bytes.head? == some slash

/-- The component that a piece is, if it counts. -/
def component? (piece : List UInt8) : Option Component :=
  if piece.isEmpty || piece = [dot] then none
  else if piece = [dot, dot] then some .up
  else some (.name piece)

def components (p : DiskPath) : List Component :=
  if p.isAbsolute then .root :: p.pieces.filterMap component?
  else match p.pieces with
    | first :: rest =>
      (if first = [dot] then [.here] else (component? first).toList) ++ rest.filterMap component?
    | [] => []

/-- The first list of components comes before the second. -/
def componentsBefore : List Component → List Component → Bool
  | [], [] => false
  | [], _ :: _ => true
  | _ :: _, [] => false
  | a :: as, b :: bs => a.before b || (a == b && componentsBefore as bs)

/-- The two paths have the same components. -/
def same (p q : DiskPath) : Bool := p.components == q.components

/-- The first path comes before the second, component by component. -/
def before (p q : DiskPath) : Bool := componentsBefore p.components q.components

/-- The path that `rest` names from `base`. An absolute one stays as it is. -/
def join (base rest : DiskPath) : DiskPath :=
  if rest.isAbsolute then rest
  else match base.bytes.getLast? with
    | none => rest
    | some b => if b = slash then ⟨base.bytes ++ rest.bytes⟩ else ⟨base.bytes ++ slash :: rest.bytes⟩

/-- The pieces without those at the end that do not count; the first one stays. -/
def dropIdle : List (List UInt8) → List (List UInt8)
  | [] => []
  | first :: rest =>
    first :: (rest.reverse.dropWhile fun piece => (component? piece).isNone).reverse

/-- The path of these pieces; a lone empty one is the root if `absolute` says so. -/
def ofPieces (absolute : Bool) (pieces : List (List UInt8)) : DiskPath :=
  if absolute && pieces.length = 1 then ⟨[slash]⟩ else ⟨Text.join slash pieces⟩

/-- The path without its last component, unless it has none to lose. -/
def parent? (p : DiskPath) : Option DiskPath :=
  match p.components.getLast? with
  | none | some .root => none
  | some _ =>
    let pieces := dropIdle p.pieces
    if pieces.length = 1 then some ⟨[]⟩
    else some (ofPieces p.isAbsolute (dropIdle pieces.dropLast))

/-- The name that comes last. -/
def fileName? (p : DiskPath) : Option FileName := p.components.getLast?.bind Component.name?

/-- The path whose last name has the extension in place of its own. -/
def withExtension (p : DiskPath) (extension : FileName) : DiskPath :=
  match p.fileName? with
  | none => p
  | some n =>
    let pieces := dropIdle p.pieces
    ofPieces p.isAbsolute (pieces.dropLast ++ [FileName.stem n ++ dot :: extension])

/-- The components of `p` after those of `base`, if it begins with them. -/
def below? (base p : DiskPath) : Option (List Component) :=
  if base.components.isPrefixOf p.components then
    some (p.components.drop base.components.length)
  else none

/-- The path in double quotes, as it is shown in a record of a failure. A byte that belongs to no
character is written in two hexadecimal digits. -/
def quoted (p : DiskPath) : String :=
  String.ofList <| ['"'] ++ (Text.pieces p.bytes).flatMap shownPiece ++ ['"']
where
  /-- A character with its escape, or bytes by their numbers. -/
  shownPiece : Text.Piece → List Char
    | .char c => Text.escapeChar c
    | .broken bytes => bytes.flatMap fun b =>
      ['\\', 'x', (Nat.digitChar (b.toNat / 16)).toUpper, (Nat.digitChar (b.toNat % 16)).toUpper]

end DiskPath

end TypedId
