/-!
Decimal numerals: the text of an integer, and the integer that a text spells.
-/
namespace TypedId.Text

/-- The numeral of an integer: its digits, with a minus before them if it is negative. -/
def numeral (n : Int) : List Char :=
  if n < 0 then '-' :: Nat.toDigits 10 n.natAbs else Nat.toDigits 10 n.natAbs

/-- The number that digits spell; there has to be one. -/
def natural? (cs : List Char) : Option Nat :=
  if !cs.isEmpty && cs.all Char.isDigit then
    some (cs.foldl (fun n c => n * 10 + (c.toNat - '0'.toNat)) 0)
  else none

/-- The text without a plus before it. -/
def dropPlus : List Char → List Char
  | '+' :: cs => cs
  | cs => cs

/-- The integer that a numeral spells, with or without a sign. -/
def integer? : List Char → Option Int
  | '-' :: cs => (natural? cs).map fun n => -(n : Int)
  | cs => (natural? (dropPlus cs)).map fun n => (n : Int)

end TypedId.Text
