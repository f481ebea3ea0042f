import TypedId.Token.Basic

/-!
A recogniser reads tokens from the front and answers what it read with the tokens that are left, or
nothing. Looking ahead is a plain function on the tokens: the second token is the first of the list
without its head, and so on, where a lifetime or a group counts as one.
-/
namespace TypedId.Grammar

/-- Reads tokens from the front of a list. -/
abbrev Parser := StateT (List Token) Option

/-! ## Looking ahead -/

def atKeyword (k : Keyword) : List Token → Bool
  | .word (.keyword k') :: _ => decide (k = k')
  | _ => false

def atAnyKeyword (ks : List Keyword) : List Token → Bool
  | .word (.keyword k) :: _ => ks.any fun k' => decide (k = k')
  | _ => false

def atIdent : List Token → Bool
  | .word (.ident _) :: _ => true
  | _ => false

/-- A word stands at the front, reserved or not. -/
def atWord : List Token → Bool
  | .word _ :: _ => true
  | _ => false

/-- An identifier with a meaning of its own in this place stands at the front, not written raw. -/
def atName (name : String) : List Token → Bool
  | .word (.ident i) :: _ => !i.raw && i.text == name
  | _ => false

def atLifetime : List Token → Bool
  | .lifetime _ :: _ => true
  | _ => false

/-- The punctuation characters stand at the front, joined to one another. What follows the last one is
not looked at, so `:` is found at the front of `::` as well. -/
def atPunct : List Char → List Token → Bool
  | [], _ => true
  | [c], .punct d _ :: _ => c == d && d != '\''
  | c :: cs, .punct d joint :: rest => c == d && joint && d != '\'' && atPunct cs rest
  | _ :: _, _ => false

/-- A group with these brackets stands at the front. -/
def atGroup (d : Delimiter) : List Token → Bool
  | .group d' _ :: _ => decide (d = d')
  | _ => false

def atNumber : List Token → Bool
  | .literal l :: _ => decide (l.kind = .int) || decide (l.kind = .float)
  | _ => false

/-- A literal stands at the front: `true`, `false`, and a number with a minus before it are literals. -/
def atLiteral : List Token → Bool
  | .literal _ :: _ => true
  | .word (.keyword .kwTrue) :: _ => true
  | .word (.keyword .kwFalse) :: _ => true
  | .punct '-' _ :: rest => atNumber rest
  | _ => false

def atString : List Token → Bool
  | .literal l :: _ => decide (l.kind = .string)
  | _ => false

/-! ## Reading -/

def keyword (k : Keyword) : Parser Unit := fun ts =>
  if atKeyword k ts then some ((), ts.drop 1) else none

def keyword? (k : Keyword) : Parser Bool := fun ts =>
  if atKeyword k ts then some (true, ts.drop 1) else some (false, ts)

def name? (name : String) : Parser Bool := fun ts =>
  if atName name ts then some (true, ts.drop 1) else some (false, ts)

def punct (cs : List Char) : Parser Unit := fun ts =>
  if atPunct cs ts then some ((), ts.drop cs.length) else none

def punct? (cs : List Char) : Parser Bool := fun ts =>
  if atPunct cs ts then some (true, ts.drop cs.length) else some (false, ts)

def ident : Parser Ident
  | .word (.ident i) :: rest => some (i, rest)
  | _ => none

/-- Reads a word, reserved or not. -/
def word : Parser Word
  | .word w :: rest => some (w, rest)
  | _ => none

/-- Reads an identifier or one of the reserved words. -/
def identOr (ks : List Keyword) : Parser Word := fun ts =>
  if atIdent ts || atAnyKeyword ks ts then word ts else none

def lifetime : Parser Unit
  | .lifetime _ :: rest => some ((), rest)
  | _ => none

def lifetime? : Parser Bool
  | .lifetime _ :: rest => some (true, rest)
  | ts => some (false, ts)

def literal : Parser Unit := fun ts =>
  if atLiteral ts then some ((), ts.drop (if atPunct ['-'] ts then 2 else 1)) else none

/-- Reads a group with these brackets and answers its content. -/
def group (d : Delimiter) : Parser (List Token)
  | .group d' content :: rest => if d = d' then some (content, rest) else none
  | _ => none

/-- Reads a group with any brackets and answers them. -/
def anyGroup : Parser Delimiter
  | .group d _ :: rest => some (d, rest)
  | _ => none

/-- Reads the whole of a content with `p`. -/
def inside {α : Type} (content : List Token) (p : Parser α) : Parser α := fun ts =>
  match p content with
  | some (a, []) => some (a, ts)
  | _ => none

/-- Reads a group with these brackets, its whole content with `p`. -/
def within {α : Type} (d : Delimiter) (p : Parser α) : Parser α := do
  inside (← group d) p

/-- Reads on only if the tokens at the front satisfy the test. -/
def require (test : List Token → Bool) : Parser Unit := fun ts =>
  if test ts then some ((), ts) else none

/-- Reads with `p` if the tokens at the front satisfy the test. -/
def whenAt {α : Type} (test : List Token → Bool) (p : Parser α) : Parser (Option α) := do
  if test (← get) then some <$> p else return none

/-! ## Repetition -/

/-- At most `bound` readings with `p`, as long as the tokens at the front satisfy `more`. -/
def repeatUpTo {α : Type} (more : List Token → Bool) (p : Parser α) : Nat → Parser (List α)
  | 0 => failure
  | bound + 1 => do
    if more (← get) then
      let a ← p
      let rest ← repeatUpTo more p bound
      return a :: rest
    else return []

/-- Reads with `p` as long as the tokens at the front satisfy `more`. -/
def repeatWhile {α : Type} (more : List Token → Bool) (p : Parser α) : Parser (List α) := do
  repeatUpTo more p ((← get).length + 1)

/-- Reads with `p` up to the end. -/
def repeatToEnd {α : Type} (p : Parser α) : Parser (List α) :=
  repeatWhile (fun ts => !ts.isEmpty) p

/-- At most `bound` readings with `p`, each followed by `separator` unless `stop` holds after it. -/
def separatedUpTo {α : Type} (stop : List Token → Bool) (separator : Parser Unit) (p : Parser α) :
    Nat → Parser (List α)
  | 0 => failure
  | bound + 1 => do
    if stop (← get) then return []
    let a ← p
    if stop (← get) then return [a]
    separator
    let rest ← separatedUpTo stop separator p bound
    return a :: rest

/-- Reads with `p` until `stop` holds, with the punctuation between two readings and perhaps after the
last. -/
def separated {α : Type} (stop : List Token → Bool) (mark : List Char) (p : Parser α) :
    Parser (List α) := do
  separatedUpTo stop (punct mark) p ((← get).length + 1)

/-- A list up to the end, with commas. -/
def commaList {α : Type} (p : Parser α) : Parser (List α) := separated List.isEmpty [','] p

/-- A list in angle brackets, with commas. -/
def angleList {α : Type} (p : Parser α) : Parser (List α) := do
  punct ['<']
  let found ← separated (atPunct ['>']) [','] p
  punct ['>']
  return found

/-- At most `bound` readings with `p` joined by a plus. It ends where `stop` holds or no plus
follows, so a plus may come last. -/
def sumUpTo {α : Type} (stop : List Token → Bool) (p : Parser α) : Nat → Parser (List α)
  | 0 => failure
  | bound + 1 => do
    if stop (← get) then return []
    let a ← p
    if atPunct ['+'] (← get) then
      punct ['+']
      let rest ← sumUpTo stop p bound
      return a :: rest
    else return [a]

/-- Reads with `p`, joined by a plus, until `stop` holds or no plus follows. -/
def sum {α : Type} (stop : List Token → Bool) (p : Parser α) : Parser (List α) := do
  sumUpTo stop p ((← get).length + 1)

end TypedId.Grammar
