import TypedId.Text.CharClass

/-!
JSON values and their text over several lines: two blanks for every level, and nothing between the brackets
of what is empty.
-/
namespace TypedId.Text

/-- A JSON value. Members of an object keep their order. -/
inductive Json where
  | null
  | bool (b : Bool)
  | string (s : String)
  | array (items : List Json)
  | object (members : List (String × Json))

namespace Json

/-- A character inside a JSON string. -/
def escape (c : Char) : List Char :=
  match c with
  | '"' => ['\\', '"']
  | '\\' => ['\\', '\\']
  | '\x08' => ['\\', 'b']
  | '\x0c' => ['\\', 'f']
  | '\n' => ['\\', 'n']
  | '\r' => ['\\', 'r']
  | '\t' => ['\\', 't']
  | c =>
    if c.toNat < 0x20 then
      ['\\', 'u', '0', '0', Nat.digitChar (c.toNat / 16), Nat.digitChar (c.toNat % 16)]
    else [c]

def quoted (s : String) : String := String.ofList (['"'] ++ s.toList.flatMap escape ++ ['"'])

/-- A new line at this level. -/
def newLine (level : Nat) : String := "\n" ++ String.ofList (List.replicate (2 * level) ' ')

mutual

/-- The text of a value whose brackets stand at this level. -/
def pretty (level : Nat) : Json → String
  | null => "null"
  | bool b => if b then "true" else "false"
  | string s => quoted s
  | array [] => "[]"
  | array (v :: vs) => "[" ++ prettyItems level (v :: vs) ++ newLine level ++ "]"
  | object [] => "\x7b\x7d"
  | object (m :: ms) => "\x7b" ++ prettyMembers level (m :: ms) ++ newLine level ++ "\x7d"

/-- The items of an array, each on a line. -/
def prettyItems (level : Nat) : List Json → String
  | [] => ""
  | [v] => newLine (level + 1) ++ pretty (level + 1) v
  | v :: w :: rest =>
    newLine (level + 1) ++ pretty (level + 1) v ++ "," ++ prettyItems level (w :: rest)

/-- The members of an object, each on a line. -/
def prettyMembers (level : Nat) : List (String × Json) → String
  | [] => ""
  | [(k, v)] => newLine (level + 1) ++ quoted k ++ ": " ++ pretty (level + 1) v
  | (k, v) :: m :: rest =>
    newLine (level + 1) ++ quoted k ++ ": " ++ pretty (level + 1) v ++ "," ++
      prettyMembers level (m :: rest)

end

end Json

end TypedId.Text
