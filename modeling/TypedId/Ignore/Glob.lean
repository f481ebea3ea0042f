import TypedId.Files.DiskPath

/-!
Globs: patterns for the paths that an ignore file speaks of. A star stands for any part of a name, two stars
between slashes for any number of directories, and braces list alternatives. A glob is read from its text,
which may fail, and matched against the bytes of a whole path.
-/
namespace TypedId

inductive GlobPart where
  | literal (c : Char)
  | anyByte
  | anyInName
  | directoriesBefore
  | directoriesBetween
  | everythingBelow
  | oneOf (negated : Bool) (ranges : List (Char × Char))
  | choice (alternatives : List (List GlobPart))
  deriving Repr

structure Glob where
  parts : List GlobPart
  deriving Repr

/-- Why a text is no glob. -/
inductive GlobFault where
  | descendingRange (low high : Char)
  | unopened
  | unclosed
  | danglingEscape
  deriving DecidableEq, Repr

/-- The fault in words. -/
def GlobFault.text : GlobFault → String
  | descendingRange low high =>
    "invalid range; '" ++ String.singleton low ++ "' > '" ++ String.singleton high ++ "'"
  | unopened =>
    "unopened alternate group; missing '\x7b' (maybe escape '\x7d' with '[\x7d]'?)"
  | unclosed =>
    "unclosed alternate group; missing '\x7d' (maybe escape '\x7b' with '[\x7b]'?)"
  | danglingEscape => "dangling '\\'"

/-! ## Reading -/

namespace GlobClass

/-- The ranges that the characters between the brackets spell, after the range `last`. A hyphen between
two characters makes a range, and stands for itself at the end. -/
def ranges (last : Char × Char) : List Char → Except GlobFault (List (Char × Char))
  | [] => .ok [last]
  | ['-'] => .ok [last, ('-', '-')]
  | '-' :: high :: rest =>
    if high < last.1 then .error (.descendingRange last.1 high) else ranges (last.1, high) rest
  | c :: rest => (ranges (c, c) rest).map (last :: ·)

/-- The text after the mark that negates a class, if there is one. -/
def afterMark : List Char → Bool × List Char
  | '!' :: rest | '^' :: rest => (true, rest)
  | cs => (false, cs)

/-- A class after its opening bracket: whether it is negated, its ranges, and the text after it. Its first
character stands for itself, even a closing bracket. No class is answered if no bracket closes it. -/
def read? (cs : List Char) : Except GlobFault (Option (Bool × List (Char × Char) × List Char)) :=
  match afterMark cs with
  | (_, []) => .ok none
  | (negated, first :: rest) =>
    match ranges (first, first) (rest.takeWhile (· != ']')), rest.dropWhile (· != ']') with
    | .error fault, _ => .error fault
    | .ok _, [] => .ok none
    | .ok found, _ :: after => .ok (some (negated, found, after))

theorem length_afterMark_le (cs : List Char) : (afterMark cs).2.length ≤ cs.length := by
  unfold afterMark
  split <;> simp

theorem length_lt_of_read? {cs after : List Char} {negated : Bool} {found : List (Char × Char)}
    (h : read? cs = .ok (some (negated, found, after))) : after.length < cs.length := by
  have hmark := length_afterMark_le cs
  unfold read? at h
  split at h
  · simp at h
  · rename_i first rest hs
    have hdrop := (List.dropWhile_suffix (fun c => c != ']') (l := rest)).length_le
    rw [hs] at hmark
    split at h <;> simp_all
    omega

end GlobClass

namespace Glob

/-- A glob that is being read. The parts come last first; for each brace that is open there are the
alternatives before the present one and the parts before the brace. -/
structure Draft where
  parts : List GlobPart := []
  around : List (List (List GlobPart) × List GlobPart) := []

namespace Draft

/-- The draft with one more part. -/
def add (d : Draft) (part : GlobPart) : Draft := { d with parts := part :: d.parts }

/-- The draft after an opening brace. -/
def openBrace (d : Draft) : Draft := ⟨[], ([], d.parts) :: d.around⟩

/-- The draft after a comma, which only means something between braces. -/
def comma (d : Draft) : Draft :=
  match d.around with
  | [] => d.add (.literal ',')
  | (alternatives, before) :: more => ⟨[], (d.parts.reverse :: alternatives, before) :: more⟩

/-- The draft after a closing brace, if one is open. -/
def closeBrace? (d : Draft) : Option Draft :=
  match d.around with
  | [] => none
  | (alternatives, before) :: more =>
    some ⟨.choice (d.parts.reverse :: alternatives) :: before, more⟩

/-- The draft with `part` in the place of the slash, or of the double star, that comes last. -/
def merge (d : Draft) (part : GlobPart) : Draft :=
  match d.parts with
  | .directoriesBefore :: before => ⟨.directoriesBefore :: before, d.around⟩
  | .everythingBelow :: before => ⟨.everythingBelow :: before, d.around⟩
  | _ :: before => ⟨part :: before, d.around⟩
  | [] => ⟨[part], d.around⟩

/-- The draft after two stars with no meaning of their own. -/
def twoStars (d : Draft) : Draft := (d.add .anyInName).add .anyInName

/-- The parts, if no brace is open. -/
def finish (d : Draft) : Except GlobFault Glob :=
  if d.around.isEmpty then .ok ⟨d.parts.reverse⟩ else .error .unclosed

end Draft

/-- Reads on after the character `last`. Two stars only span directories where a slash, an end or the
edge of an alternative is on both sides. Once a bracket was found without its end, no bracket opens a
class. -/
def readOn (d : Draft) (classes : Bool) (last : Option Char) (cs : List Char) : Except GlobFault Glob :=
  match cs with
  | [] => d.finish
  | '*' :: '*' :: rest =>
    if d.parts.isEmpty then
      match rest with
      | [] => (d.add .directoriesBefore).finish
      | '/' :: after => readOn (d.add .directoriesBefore) classes (some '/') after
      | c :: after => readOn d.twoStars classes (some '*') (c :: after)
    else if last == some '/' || (!d.around.isEmpty && (last == some ',' || last == some '\x7b')) then
      match rest with
      | [] => (d.merge .everythingBelow).finish
      | '/' :: after => readOn (d.merge .directoriesBetween) classes (some '/') after
      | c :: after =>
        if !d.around.isEmpty && (c == ',' || c == '\x7d') then
          readOn (d.merge .everythingBelow) classes (some '*') (c :: after)
        else readOn d.twoStars classes (some '*') (c :: after)
    else readOn d.twoStars classes (some '*') rest
  | '*' :: rest => readOn (d.add .anyInName) classes (some '*') rest
  | '?' :: rest => readOn (d.add .anyByte) classes (some '?') rest
  | '\x7b' :: rest => readOn d.openBrace classes (some '\x7b') rest
  | '\x7d' :: rest =>
    match d.closeBrace? with
    | some d => readOn d classes (some '\x7d') rest
    | none => .error .unopened
  | ',' :: rest => readOn d.comma classes (some ',') rest
  | ['\\'] => .error .danglingEscape
  | '\\' :: c :: rest => readOn (d.add (.literal c)) classes (some c) rest
  | c :: rest =>
    if classes && c == '[' then
      match h : GlobClass.read? rest with
      | .error fault => .error fault
      | .ok (some (negated, ranges, after)) =>
        have : after.length < rest.length := GlobClass.length_lt_of_read? h
        readOn (d.add (.oneOf negated ranges)) classes (some ']') after
      | .ok none => readOn (d.add (.literal '[')) false (some '[') rest
    else readOn (d.add (.literal c)) classes (some c) rest
termination_by cs.length

/-- The glob that a text spells. -/
def ofText (cs : List Char) : Except GlobFault Glob := readOn {} true none cs

end Glob

/-! ## Matching -/

namespace GlobPart

open FileName (slash)

/-- The rest is accepted after some bytes that all pass the test. -/
def afterSome (test : UInt8 → Bool) (accept : List UInt8 → Bool) : List UInt8 → Bool
  | [] => accept []
  | b :: rest => accept (b :: rest) || (test b && afterSome test accept rest)

/-- The rest is accepted after one of the slashes. -/
def afterSlash (accept : List UInt8 → Bool) : List UInt8 → Bool
  | [] => false
  | b :: rest => (b == slash && accept rest) || afterSlash accept rest

/-- The bytes between the first and the last of a range; the bytes of longer characters count one by
one. -/
def byteRanges (range : Char × Char) : List (UInt8 × UInt8) :=
  let single (bytes : List UInt8) := bytes.map fun b => (b, b)
  let low := String.utf8EncodeChar range.1
  let high := String.utf8EncodeChar range.2
  if range.1 = range.2 then single low
  else match low.getLast?, high with
    | some a, b :: more => single low.dropLast ++ (a, b) :: single more
    | _, _ => []

/-- The byte lies in one of the ranges. -/
def inClass (ranges : List (Char × Char)) (b : UInt8) : Bool :=
  ranges.any fun range => (byteRanges range).any fun r => r.1 ≤ b && b ≤ r.2

mutual

/-- The part says nothing at all: a choice without an alternative that says something. -/
def isEmpty : GlobPart → Bool
  | choice alternatives => allAreEmpty alternatives
  | _ => false

/-- None of the parts says anything. -/
def areEmpty : List GlobPart → Bool
  | [] => true
  | part :: rest => part.isEmpty && areEmpty rest

/-- None of the alternatives says anything. -/
def allAreEmpty : List (List GlobPart) → Bool
  | [] => true
  | parts :: rest => areEmpty parts && allAreEmpty rest

end

mutual

/-- The part stands for some bytes at the front, and the rest is accepted. -/
def matchThen (accept : List UInt8 → Bool) : GlobPart → List UInt8 → Bool
  | literal c, s =>
    let bytes := String.utf8EncodeChar c
    bytes.isPrefixOf s && accept (s.drop bytes.length)
  | anyByte, b :: rest => b != slash && accept rest
  | anyByte, [] => false
  | anyInName, s => afterSome (· != slash) accept s
  | directoriesBefore, s => accept s || afterSlash accept s
  | directoriesBetween, b :: rest => b == slash && (accept rest || afterSlash accept rest)
  | directoriesBetween, [] => false
  | everythingBelow, b :: rest => b == slash && afterSome (fun _ => true) accept rest
  | everythingBelow, [] => false
  | oneOf negated ranges, b :: rest => inClass ranges b != negated && accept rest
  | oneOf _ _, [] => false
  | choice alternatives, s =>
    if allAreEmpty alternatives then accept s else matchAnyThen accept alternatives s

/-- The parts stand for some bytes at the front, one after another, and the rest is accepted. -/
def matchAllThen (accept : List UInt8 → Bool) : List GlobPart → List UInt8 → Bool
  | [], s => accept s
  | part :: rest, s => part.matchThen (fun t => matchAllThen accept rest t) s

/-- An alternative that says something stands for some bytes at the front, and the rest is accepted. -/
def matchAnyThen (accept : List UInt8 → Bool) : List (List GlobPart) → List UInt8 → Bool
  | [], _ => false
  | parts :: rest, s =>
    (!areEmpty parts && matchAllThen accept parts s) || matchAnyThen accept rest s

end

end GlobPart

/-- The glob stands for the whole path. Two stars alone stand for every path. -/
def Glob.isMatch (g : Glob) (path : List UInt8) : Bool :=
  match g.parts with
  | [.directoriesBefore] => true
  | parts => GlobPart.matchAllThen List.isEmpty parts path

end TypedId
