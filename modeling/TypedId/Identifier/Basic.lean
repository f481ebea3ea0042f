import TypedId.Text.Numeral

/-!
The values of a generated type: a 64-bit integer in a type of its own. Equality, order, hashing and text are
those of the integer, and every comparison is read off one order.
-/
namespace TypedId

/-- A value of a generated type. -/
structure Identifier where
  value : Int64
  deriving DecidableEq, Repr

namespace Identifier

/-- The value that stands for no identifier. -/
def empty : Identifier := ⟨0⟩

/-- The total order: that of the stored integers. -/
def order (a b : Identifier) : Ordering := compareOfLessAndEq a.value.toInt b.value.toInt

/-- The partial order, which never leaves two values undecided. -/
def partialOrder (a b : Identifier) : Option Ordering := some (order a b)

def equal (a b : Identifier) : Bool := a.value == b.value

def less (a b : Identifier) : Bool := partialOrder a b == some .lt

/-- The first value is less, or they are equal. -/
def atMost (a b : Identifier) : Bool := less a b || partialOrder a b == some .eq

def greater (a b : Identifier) : Bool := partialOrder a b == some .gt

/-- The first value is greater, or they are equal. -/
def atLeast (a b : Identifier) : Bool := greater a b || partialOrder a b == some .eq

/-- The greater of the two; the second if they are equal. -/
def larger (a b : Identifier) : Identifier := if less b a then a else b

/-- The lesser of the two; the first if they are equal. -/
def smaller (a b : Identifier) : Identifier := if less b a then b else a

/-- The value moved into the range from `low` to `high`, if there is such a range. -/
def clamp? (a low high : Identifier) : Option Identifier :=
  if atMost low high then
    some (if less a low then low else if greater a high then high else a)
  else none

/-- What a hash of the value is computed from. -/
def hashInput (a : Identifier) : List Int64 := [a.value]

/-! ## Text -/

def text (a : Identifier) : List Char := Text.numeral a.value.toInt

/-- The value that a numeral spells, if it is one of 64 bits. -/
def parse? (cs : List Char) : Option Identifier :=
  (Text.integer? cs).bind fun n =>
    if -0x8000000000000000 ≤ n ∧ n < 0x8000000000000000 then some ⟨Int64.ofInt n⟩ else none

end Identifier

end TypedId
