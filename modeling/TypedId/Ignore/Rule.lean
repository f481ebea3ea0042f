import TypedId.Ignore.Glob
import TypedId.Text.CharClass

/-!
Rules of ignore files. A line holds one glob with marks around it: an exclamation mark admits what it
stands for, a slash at the front binds it to the directory of the file, and a slash at the end makes it
speak of directories only. Of several rules that match a path, the last one decides.
-/
namespace TypedId

/-- A line of an ignore file. -/
structure IgnoreRule where
  glob : Glob
  admits : Bool
  onlyDirectories : Bool
  deriving Repr

/-- What the rules say of a path. -/
inductive Verdict where
  | ignored
  | admitted
  deriving DecidableEq, Repr

/-- A line that holds no glob: its number, its text and the fault. -/
structure LineFault where
  line : Nat
  text : String
  fault : GlobFault
  deriving DecidableEq, Repr

namespace IgnoreRule

/-- The line without white space at its end, unless a blank there is escaped. -/
def trim (line : List Char) : List Char :=
  if ['\\', ' '].isSuffixOf line then line
  else (line.reverse.dropWhile Text.isWhiteSpace).reverse

/-- The line without the mark at its front: whether it admits, whether it is bound to the directory of
the file, and the rest. A backslash takes the meaning from the mark that follows. -/
def frontMark : List Char → Bool × Bool × List Char
  | '\\' :: '!' :: rest => (false, false, '!' :: rest)
  | '\\' :: '#' :: rest => (false, false, '#' :: rest)
  | '!' :: '/' :: rest => (true, true, rest)
  | '!' :: rest => (true, false, rest)
  | '/' :: rest => (false, true, rest)
  | rest => (false, false, rest)

/-- The text without a slash at its end, and without the backslash that escapes it; and whether there was
one. -/
def endMark (cs : List Char) : Bool × List Char :=
  match cs.reverse with
  | '/' :: '\\' :: rest => (true, rest.reverse)
  | '/' :: rest => (true, rest.reverse)
  | _ => (false, cs)

/-- The text of a glob that matches at any depth. -/
def atAnyDepth (cs : List Char) : List Char :=
  if cs == ['*', '*'] || ['*', '*', '/'].isPrefixOf cs then cs else ['*', '*', '/'] ++ cs

/-- The text of a glob that stands for what is in a directory and not for the directory itself. -/
def belowOnly (cs : List Char) : List Char :=
  if ['/', '*', '*'].isSuffixOf cs then cs ++ ['/', '*'] else cs

/-- The rule on a line. An empty line and a comment hold none. -/
def ofLine? (line : List Char) : Except GlobFault (Option IgnoreRule) :=
  if line.head? == some '#' || (trim line).isEmpty then .ok none
  else
    let (admits, bound, cs) := frontMark (trim line)
    let (onlyDirectories, cs) := endMark cs
    let cs := if bound || cs.contains '/' then cs else atAnyDepth cs
    (Glob.ofText (belowOnly cs)).map fun glob => some ⟨glob, admits, onlyDirectories⟩

/-- The rule speaks of the path. -/
def isMatch (r : IgnoreRule) (path : List UInt8) (isDirectory : Bool) : Bool :=
  (!r.onlyDirectories || isDirectory) && r.glob.isMatch path

/-- What the rule says of what it matches. -/
def verdict (r : IgnoreRule) : Verdict := if r.admits then .admitted else .ignored

end IgnoreRule

/-! ## Files of rules -/

/-- The rules of a file, with the directory that they are bound to as the bytes of its path. -/
structure IgnoreFile where
  directory : List UInt8
  rules : List IgnoreRule
  deriving Repr

namespace IgnoreFile

/-- The byte that ends a line. -/
def lineFeed : UInt8 := 10

/-- The byte that may come before the end of a line. -/
def carriageReturn : UInt8 := 13

/-- The lines of a file. A carriage return before the end of a line is part of the end. -/
def splitLines (bytes : List UInt8) : List (List UInt8) := ended (Text.split lineFeed bytes)
where
  /-- The lines that the pieces between line feeds are. Nothing after the last feed is no line. -/
  ended : List (List UInt8) → List (List UInt8)
    | [] => []
    | [last] => if last.isEmpty then [] else [last]
    | line :: rest => (if line.getLast? == some carriageReturn then line.dropLast else line) :: ended rest

/-- The lines up to the first one that is no text. -/
def textLines : List (List UInt8) → List (List Char)
  | [] => []
  | line :: rest =>
    match Text.decode? line with
    | some s => s.toList :: textLines rest
    | none => []

/-- The lines without the byte order marks before the first one. -/
def dropMarks : List (List Char) → List (List Char)
  | [] => []
  | line :: rest => line.dropWhile (· == '\uFEFF') :: rest

/-- The rules on the lines from this number on, and the faults of the lines that hold none. -/
def ofLines (number : Nat) : List (List Char) → List IgnoreRule × List LineFault
  | [] => ([], [])
  | line :: rest =>
    let (rules, faults) := ofLines (number + 1) rest
    match IgnoreRule.ofLine? line with
    | .ok (some rule) => (rule :: rules, faults)
    | .ok none => (rules, faults)
    | .error fault => (rules, ⟨number, String.ofList (IgnoreRule.trim line), fault⟩ :: faults)

/-- The rules in the content of a file, and the faults of the lines that hold none. -/
def ofContent (content : List UInt8) : List IgnoreRule × List LineFault :=
  ofLines 1 (dropMarks (textLines (splitLines content)))

/-- The bytes without `front` before them. -/
def dropFront (front bytes : List UInt8) : List UInt8 :=
  if front.isPrefixOf bytes then bytes.drop front.length else bytes

/-- The bytes without a point and a slash before them. -/
def dropHere (bytes : List UInt8) : List UInt8 := dropFront [FileName.dot, FileName.slash] bytes

/-- The path as the globs are matched against it: from the directory of the file on. A bare name stays as
it is. -/
def pathBelow (f : IgnoreFile) (path : List UInt8) : List UInt8 :=
  let path := dropHere path
  let directory := dropHere f.directory
  if directory != [FileName.dot] && path.contains FileName.slash && directory.isPrefixOf path then
    dropFront [FileName.slash] (path.drop directory.length)
  else path

/-- What the file says of a path: the last rule that matches decides. -/
def verdict? (f : IgnoreFile) (path : List UInt8) (isDirectory : Bool) : Option Verdict :=
  (f.rules.reverse.find? fun r => r.isMatch (f.pathBelow path) isDirectory).map IgnoreRule.verdict

end IgnoreFile

end TypedId
