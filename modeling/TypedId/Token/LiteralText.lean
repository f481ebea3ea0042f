import TypedId.Token.Basic

/-!
The texts of literals. Every function answers how many characters at the front of the text form what it
speaks about, or nothing if none do.
-/
namespace TypedId.LiteralText

open Text

/-- The word at the front; zero if there is none. -/
def wordLength : List Char → Nat
  | [] => 0
  | c :: rest =>
    if isIdentStart c || c == '_' then (rest.takeWhile isIdentContinue).length + 1 else 0

def startsWord (cs : List Char) : Bool := wordLength cs != 0

/-- The digits of a code point up to the closing brace, of which `count` digits with value `value` have
been read: the number and how many characters it takes. Underscores may follow the first digit. -/
def codePoint? : Nat → Nat → List Char → Option (Nat × Nat)
  | _, _, [] => none
  | count, value, c :: rest =>
    if c == '\x7d' && count != 0 then some (value, 1)
    else if c == '_' && count != 0 then (codePoint? count value rest).map fun r => (r.1, r.2 + 1)
    else if isHexDigit c && count < 6 then
      (codePoint? (count + 1) (value * 16 + hexValue c) rest).map fun r => (r.1, r.2 + 1)
    else none

/-- Two hexadecimal digits may stand after `\x` in a literal of this kind. -/
def admitsByte (kind : LiteralKind) (high low : Char) : Bool :=
  isHexDigit high && isHexDigit low &&
    match kind with
    | .string | .char => '0' ≤ high && high ≤ '7'
    | .cString => high != '0' || low != '0'
    | _ => true

/-- What may stand after a backslash in a literal of this kind. -/
def escapeLength? (kind : LiteralKind) : List Char → Option Nat
  | 'x' :: high :: low :: _ => if admitsByte kind high low then some 3 else none
  | 'u' :: '\x7b' :: rest =>
    if kind == .byte || kind == .byteString then none
    else
      match codePoint? 0 0 rest with
      | some (value, n) =>
        if value.isValidChar && !(kind == .cString && value == 0) then some (n + 2) else none
      | none => none
  | c :: _ =>
    if ['n', 'r', 't', '\\', '\'', '"'].contains c || (c == '0' && kind != .cString) then some 1
    else none
  | [] => none

/-- The line end and the blanks after it that a backslash makes disappear. -/
def continuationLength? : List Char → Option Nat
  | '\r' :: '\n' :: rest => (continuationLength? rest).map (· + 2)
  | '\r' :: _ => none
  | c :: rest =>
    if c == ' ' || c == '\t' || c == '\n' then (continuationLength? rest).map (· + 1) else some 0
  | [] => none

/-- What may stand after a backslash in a string of this kind. -/
def stringEscapeLength? (kind : LiteralKind) (cs : List Char) : Option Nat :=
  match cs with
  | '\n' :: _ | '\r' :: _ => continuationLength? cs
  | _ => escapeLength? kind cs

/-- The character may stand for itself in a string of this kind. -/
def admits (kind : LiteralKind) (c : Char) : Bool :=
  match kind with
  | .byteString => c.toNat < 128
  | .cString => c != '\x00'
  | _ => true

/-- A string with escapes, from after its opening quote to its closing one. -/
def cookedLength? (kind : LiteralKind) (cs : List Char) : Option Nat :=
  match cs with
  | [] => none
  | '"' :: _ => some 1
  | '\r' :: '\n' :: rest => (cookedLength? kind rest).map (· + 2)
  | '\r' :: _ => none
  | '\\' :: rest =>
    match stringEscapeLength? kind rest with
    | some n => (cookedLength? kind (rest.drop n)).map (· + (n + 1))
    | none => none
  | c :: rest => if admits kind c then (cookedLength? kind rest).map (· + 1) else none
termination_by cs.length
decreasing_by all_goals simp only [List.length_drop, List.length_cons]; omega

/-- A raw string from after its opening quote to its closing one and the `hashes` marks after that. -/
def rawBodyLength? (kind : LiteralKind) (hashes : Nat) : List Char → Option Nat
  | [] => none
  | '\r' :: '\n' :: rest => (rawBodyLength? kind hashes rest).map (· + 2)
  | '\r' :: _ => none
  | c :: rest =>
    if c == '"' && (rest.take hashes == List.replicate hashes '#') then some (hashes + 1)
    else if admits kind c then (rawBodyLength? kind hashes rest).map (· + 1)
    else none

/-- A raw string from after its `r`. At most 255 marks may stand before the quote. -/
def rawLength? (kind : LiteralKind) (cs : List Char) : Option Nat :=
  let hashes := (cs.takeWhile (· == '#')).length
  if 255 < hashes then none
  else match cs.drop hashes with
    | '"' :: body => (rawBodyLength? kind hashes body).map (· + (hashes + 1))
    | _ => none

/-- A character or a byte from after its opening quote to its closing one. -/
def quotedCharLength? (kind : LiteralKind) : List Char → Option Nat
  | '\\' :: rest =>
    match escapeLength? kind rest with
    | some n => if (rest.drop n).head? == some '\'' then some (n + 2) else none
    | none => none
  | c :: '\'' :: _ => if kind == .byte && 128 ≤ c.toNat then none else some 2
  | _ => none

/-- A quoted literal without its suffix. -/
def quotedLength? : List Char → Option (LiteralKind × Nat)
  | '"' :: rest => (cookedLength? .string rest).map fun n => (.string, n + 1)
  | 'b' :: '"' :: rest => (cookedLength? .byteString rest).map fun n => (.byteString, n + 2)
  | 'c' :: '"' :: rest => (cookedLength? .cString rest).map fun n => (.cString, n + 2)
  | 'b' :: '\'' :: rest => (quotedCharLength? .byte rest).map fun n => (.byte, n + 2)
  | 'b' :: 'r' :: rest => (rawLength? .byteString rest).map fun n => (.byteString, n + 2)
  | 'c' :: 'r' :: rest => (rawLength? .cString rest).map fun n => (.cString, n + 2)
  | 'r' :: rest => (rawLength? .string rest).map fun n => (.string, n + 1)
  | '\'' :: rest => (quotedCharLength? .char rest).map fun n => (.char, n + 1)
  | _ => none

/-- A decimal digit or an underscore. -/
def isDigitOrGap (c : Char) : Bool := c.isDigit || c == '_'

/-- The exponent after its `e`: gaps, at most one sign before the first digit, and at least one digit. -/
def exponentLength? : (signed valued : Bool) → List Char → Option Nat
  | signed, valued, c :: rest =>
    if c == '+' || c == '-' then
      if valued then some 0
      else if signed then none
      else (exponentLength? true false rest).map (· + 1)
    else if c.isDigit then (exponentLength? signed true rest).map (· + 1)
    else if c == '_' then (exponentLength? signed valued rest).map (· + 1)
    else if valued then some 0
    else none
  | _, valued, [] => if valued then some 0 else none

/-- The exponent at the front, its `e` included. -/
def exponentPart? : List Char → Option Nat
  | c :: rest => if c == 'e' || c == 'E' then (exponentLength? false false rest).map (· + 1) else none
  | [] => none

/-- A number with a point or an exponent, without its suffix. The point may not be followed by another
one or by a word. -/
def floatLength? (cs : List Char) : Option Nat :=
  if !(cs.head?.any Char.isDigit) then none
  else
    let whole := (cs.takeWhile isDigitOrGap).length
    match cs.drop whole with
    | '.' :: rest =>
      if rest.head? == some '.' || startsWord rest then none
      else
        let n := whole + 1 + (rest.takeWhile isDigitOrGap).length
        some (n + (exponentPart? (cs.drop n)).getD 0)
    | rest => (exponentPart? rest).map (whole + ·)

/-- The digits of a number in this base, where `empty` says that none has been read: how many characters
they take. A decimal digit that is too large for the base is an error. -/
def digitsLength? (base : Nat) : (empty : Bool) → List Char → Option Nat
  | empty, c :: rest =>
    if c == '_' then
      if empty && base == 10 then none else (digitsLength? base empty rest).map (· + 1)
    else if c.isDigit then
      if base ≤ hexValue c then none else (digitsLength? base false rest).map (· + 1)
    else if isHexDigit c && hexValue c < base then (digitsLength? base false rest).map (· + 1)
    else if empty then none
    else some 0
  | empty, [] => if empty then none else some 0

/-- The base of a number and the characters that announce it. -/
def baseOf : List Char → Nat × Nat
  | '0' :: 'x' :: _ => (16, 2)
  | '0' :: 'o' :: _ => (8, 2)
  | '0' :: 'b' :: _ => (2, 2)
  | _ => (10, 0)

def intLength? (cs : List Char) : Option Nat :=
  let (base, announced) := baseOf cs
  (digitsLength? base true (cs.drop announced)).map (· + announced)

/-- The number with the word that may follow as its suffix; nothing more of a word may come after. -/
def withNumberSuffix? (cs : List Char) (n : Nat) : Option Nat :=
  let total := n + wordLength (cs.drop n)
  if (cs.drop total).head?.any isIdentContinue then none else some total

/-- The literal at the front, its suffix included. -/
def length? (cs : List Char) : Option (LiteralKind × Nat) :=
  match quotedLength? cs with
  | some (kind, n) => some (kind, n + wordLength (cs.drop n))
  | none =>
    match (floatLength? cs).bind (withNumberSuffix? cs) with
    | some n => some (.float, n)
    | none => ((intLength? cs).bind (withNumberSuffix? cs)).map fun n => (.int, n)

end TypedId.LiteralText
