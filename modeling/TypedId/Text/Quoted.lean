import TypedId.Text.CharClass

/-!
Texts between quotes with escapes. Three writers share the rule for one character: texts and paths as
they are shown to a reader, and the string literals that stand for documentation comments.
-/
namespace TypedId.Text

/-- The numeral of `n` in lower-case hexadecimal digits. -/
def hexNumeral (n : Nat) : List Char := Nat.toDigits 16 n

/-- A character by its code point, as in `\u{200e}`; the braces are written as numbers. -/
def codePointEscape (c : Char) : List Char :=
  ['\\', 'u', '\x7b'] ++ hexNumeral c.toNat ++ ['\x7d']

/-- A character as it stands between quotes: a short escape where there is one, itself when it is
printable, else its code point. -/
def escapeChar (c : Char) : List Char :=
  match c with
  | '\x00' => ['\\', '0']
  | '\t' => ['\\', 't']
  | '\r' => ['\\', 'r']
  | '\n' => ['\\', 'n']
  | '"' => ['\\', '"']
  | '\'' => ['\\', '\'']
  | '\\' => ['\\', '\\']
  | c => if isPrintable c then [c] else codePointEscape c

/-- As `escapeChar`, but a single quote needs no escape. -/
def escapeExceptSingle (c : Char) : List Char :=
  if c = '\'' then [c] else escapeChar c

/-- A text in double quotes, as it is shown to a reader. -/
def quoted (s : String) : String :=
  String.ofList (['"'] ++ s.toList.flatMap escapeExceptSingle ++ ['"'])

/-- The inside of a string literal. A NUL before an octal digit is written in two hexadecimal digits,
so that the digit is not read as part of the escape. -/
def literalBody : List Char → List Char
  | [] => []
  | c :: rest =>
    if c = '\x00' then
      (match rest with
        | d :: _ => if '0' ≤ d && d ≤ '7' then ['\\', 'x', '0', '0'] else ['\\', '0']
        | [] => ['\\', '0']) ++ literalBody rest
    else escapeExceptSingle c ++ literalBody rest

/-- The string literal for a text. -/
def literalText (cs : List Char) : List Char :=
  ['"'] ++ literalBody cs ++ ['"']

end TypedId.Text
