/-!
UTF-8: the bytes of a text, and the reading of bytes that may not be one. Bytes that encode no character
are kept in runs, each run the longest beginning of a character that is then broken off.
-/
namespace TypedId.Text

def encode (s : String) : List UInt8 := s.toList.flatMap String.utf8EncodeChar

/-- One piece of a byte string: a character, or bytes that encode none. -/
inductive Piece where
  | char (c : Char)
  | broken (bytes : List UInt8)
  deriving DecidableEq, Repr

/-- The character at the front of the bytes, if they begin with one. -/
def decodeChar? (bytes : List UInt8) : Option Char :=
  (bytes.take 4).toByteArray.utf8DecodeChar? 0

/-- A byte that continues a character. -/
def isContinuation (b : UInt8) : Bool := 0x80 ≤ b && b ≤ 0xBF

/-- The second byte may follow the first in a character of three or four bytes. -/
def mayFollow (first second : UInt8) : Bool :=
  if first = 0xE0 then 0xA0 ≤ second && second ≤ 0xBF
  else if first = 0xED then 0x80 ≤ second && second ≤ 0x9F
  else if first = 0xF0 then 0x90 ≤ second && second ≤ 0xBF
  else if first = 0xF4 then 0x80 ≤ second && second ≤ 0x8F
  else (0xE1 ≤ first && first ≤ 0xF3) && isContinuation second

/-- How many bytes at the front are the beginning of a character that breaks off there. -/
def brokenLength : List UInt8 → Nat
  | first :: second :: third :: _ =>
    if !mayFollow first second then 1
    else if 0xF0 ≤ first && isContinuation third then 3
    else 2
  | [first, second] => if mayFollow first second then 2 else 1
  | _ => 1

def pieces (bytes : List UInt8) : List Piece :=
  match bytes with
  | [] => []
  | b :: rest =>
    match decodeChar? (b :: rest) with
    | some c => .char c :: pieces (rest.drop (c.utf8Size - 1))
    | none =>
      .broken ((b :: rest).take (brokenLength (b :: rest)))
        :: pieces (rest.drop (brokenLength (b :: rest) - 1))
termination_by bytes.length
decreasing_by all_goals simp only [List.length_drop, List.length_cons]; omega

/-- The character of an unbroken piece. -/
def Piece.char? : Piece → Option Char
  | char c => some c
  | broken _ => none

/-- The character that a reader is shown: a broken run becomes one replacement character. -/
def Piece.shown : Piece → Char
  | char c => c
  | broken _ => '\uFFFD'

/-- The text that the bytes encode, if every byte is part of a character. -/
def decode? (bytes : List UInt8) : Option String :=
  ((pieces bytes).mapM Piece.char?).map String.ofList

/-- The text with one replacement character for each broken run. -/
def decodeLossy (bytes : List UInt8) : String :=
  String.ofList ((pieces bytes).map Piece.shown)

end TypedId.Text
