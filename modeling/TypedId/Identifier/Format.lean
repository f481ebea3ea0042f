import TypedId.Identifier.Basic

/-!
Identifiers printed in a given width. The value is padded as a whole, or, on demand, with zeros between its
sign and its digits.
-/
namespace TypedId

/-- Where a text stands in its width. -/
inductive Alignment where
  | left | center | right
  deriving DecidableEq, Repr

/-- How a value is printed. With `zeros` the fill and the alignment do not matter. -/
structure NumberFormat where
  width : Nat := 0
  fill : Char := ' '
  alignment : Alignment := .right
  plus : Bool := false
  zeros : Bool := false
  deriving DecidableEq, Repr

namespace NumberFormat

/-- The text in the width. An odd character of padding goes to the right when it is centered. -/
def pad (f : NumberFormat) (cs : List Char) : List Char :=
  let missing := f.width - cs.length
  let before := match f.alignment with
    | .left => 0
    | .center => missing / 2
    | .right => missing
  List.replicate before f.fill ++ cs ++ List.replicate (missing - before) f.fill

end NumberFormat

namespace Identifier

/-- The value printed in a format. -/
def format (f : NumberFormat) (a : Identifier) : List Char :=
  let sign := if a.value.toInt < 0 then ['-'] else if f.plus then ['+'] else []
  let digits := Nat.toDigits 10 a.value.toInt.natAbs
  if f.zeros then sign ++ List.replicate (f.width - sign.length - digits.length) '0' ++ digits
  else f.pad (sign ++ digits)

/-- The value printed in a format for the reader of the program: as for every other reader. -/
def debugFormat (f : NumberFormat) (a : Identifier) : List Char := format f a

end Identifier

end TypedId
