import TypedId.Text.IdentStart
import TypedId.Text.IdentExtra
import TypedId.Text.Extending
import TypedId.Text.Unprintable

/-!
Character classes that the lexer and the quoting rules ask about. Each class is a rule on ASCII, and a
table of ranges for the characters above it.
-/
namespace TypedId.Text

def inRanges (ranges : List (Nat × Nat)) (c : Char) : Bool :=
  ranges.any fun range => range.1 ≤ c.toNat && c.toNat ≤ range.2

/-- The character may begin an identifier; the underscore is treated apart. -/
def isIdentStart (c : Char) : Bool :=
  if c.toNat < 128 then c.isAlpha else inRanges identStartRanges c

/-- The character may follow in an identifier. -/
def isIdentContinue (c : Char) : Bool :=
  if c.toNat < 128 then c.isAlphanum || c == '_'
  else inRanges identStartRanges c || inRanges identExtraRanges c

/-- The Unicode property `White_Space`. -/
def isWhiteSpace (c : Char) : Bool :=
  inRanges [(0x9, 0xD), (0x20, 0x20), (0x85, 0x85), (0xA0, 0xA0), (0x1680, 0x1680), (0x2000, 0x200A),
    (0x2028, 0x2029), (0x202F, 0x202F), (0x205F, 0x205F), (0x3000, 0x3000)] c

/-- What separates tokens: white space and the two direction marks. -/
def isBlank (c : Char) : Bool := isWhiteSpace c || inRanges [(0x200E, 0x200F)] c

/-- The character has a visible form that does not join with the one before it. -/
def isPrintable (c : Char) : Bool :=
  if c.toNat < 128 then 0x20 ≤ c.toNat && c.toNat < 0x7F
  else !inRanges unprintableRanges c && !inRanges extendingRanges c

def isHexDigit (c : Char) : Bool :=
  c.isDigit || ('a' ≤ c && c ≤ 'f') || ('A' ≤ c && c ≤ 'F')

/-- The value of a hexadecimal digit; zero for any other character. -/
def hexValue (c : Char) : Nat :=
  if c.isDigit then c.toNat - '0'.toNat
  else if 'a' ≤ c && c ≤ 'f' then c.toNat - 'a'.toNat + 10
  else if 'A' ≤ c && c ≤ 'F' then c.toNat - 'A'.toNat + 10
  else 0

end TypedId.Text
