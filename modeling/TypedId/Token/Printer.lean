import TypedId.Token.Basic

/-!
Tokens printed in one line: separated by single blanks, except that nothing stands after a joint
punctuation character. Round and square brackets hug their content, braces do not.
-/
namespace TypedId.Token

/-- A blank goes after every token but a joint punctuation character. -/
def gapAfter : Token → String
  | .punct _ true => ""
  | _ => " "

mutual

/-- One token on a line. -/
def print : Token → String
  | .word w => w.spelling
  | .lifetime w => "'" ++ w.spelling
  | .punct c _ => String.singleton c
  | .literal l => l.text
  | .group .parenthesis content => "(" ++ printAll content ++ ")"
  | .group .bracket content => "[" ++ printAll content ++ "]"
  | .group .brace [] => "\x7b \x7d"
  | .group .brace (t :: ts) => "\x7b " ++ printAll (t :: ts) ++ " \x7d"

/-- A list of tokens on a line. -/
def printAll : List Token → String
  | [] => ""
  | [t] => print t
  | t :: u :: rest => print t ++ t.gapAfter ++ printAll (u :: rest)

end

end TypedId.Token
