import TypedId.Grammar.Types

/-!
Patterns. They are recognised and dropped, but a list of patterns has to know which of them are open
ranges, and parentheses which are the rest of a list.
-/
namespace TypedId.Grammar

def atBar (ts : List Token) : Bool :=
  atPunct ['|'] ts && !atPunct ['|', '|'] ts && !atPunct ['|', '='] ts

/-- A pattern with alternatives; a bar may stand before the first of them. -/
def alternatives (go : Reader) : Parser PatternKind := do
  let led ← punct? ['|']
  let first ← go .pattern
  let more ← repeatWhile atBar do
    punct ['|']
    go .pattern
  return if led || !more.isEmpty then .other else first

/-- The patterns of a list up to its end. -/
def patternList (go : Reader) : Parser (List PatternKind) := commaList (alternatives go)

/-- Which range operator is read, and whether it includes its end. The old three points do, where they
are allowed. -/
def rangeMark (old : Bool) : Parser Bool := do
  let ts ← get
  if atPunct ['.', '.', '='] ts then
    punct ['.', '.', '=']
    return true
  else if atPunct ['.', '.', '.'] ts then
    if old then
      punct ['.', '.', '.']
      return true
    else failure
  else
    punct ['.', '.']
    return false

def constBlock (go : Reader) : Parser Unit := do
  keyword .kwConst
  body go

/-- A bound of a range pattern, or nothing where the pattern ends. -/
def rangeBound (go : Reader) : Parser Bool := do
  let ts ← get
  if ts.isEmpty || atPunct ['|'] ts || atPunct ['='] ts || atColon ts || atPunct [','] ts ||
      atPunct [';'] ts || atKeyword .kwIf ts then
    return false
  else if atLiteral ts then literal
  else if atPathName ts || atPathSep ts || atPunct ['<'] ts then discard <| qualifiedPath go true
  else if atKeyword .kwConst ts then constBlock go
  else failure
  return true

/-- A range from its operator on, with or without a beginning. -/
def rangeFrom (go : Reader) (started : Bool) : Parser PatternKind := do
  let closed ← rangeMark started
  let ended ← rangeBound go
  if closed && !ended then failure
  return if started && ended then .other else if started || ended then .openRange else .rest

/-- The number of a tuple field: a whole number without a suffix, below `2 ^ 32`. -/
def tupleIndex? (l : Literal) : Option Nat :=
  match l.kind with
  | .int =>
    let cs := l.text.toList
    let (base, digits) := match cs with
      | '0' :: 'x' :: rest => (16, rest)
      | '0' :: 'o' :: rest => (8, rest)
      | '0' :: 'b' :: rest => (2, rest)
      | _ => (10, cs)
    let digits := digits.filter (· != '_')
    if digits.all fun c => Text.isHexDigit c && Text.hexValue c < base then
      let value := digits.foldl (fun n c => n * base + Text.hexValue c) 0
      if value < 0x100000000 then some value else none
    else none
  | _ => none

/-- Reads the name or the number of a field; says whether it is a name. -/
def member : Parser Bool
  | .word (.ident _) :: rest => some (true, rest)
  | .literal l :: rest => (tupleIndex? l).map fun _ => (false, rest)
  | _ => none

def fieldPattern (go : Reader) : Parser Unit := do
  let boxed ← keyword? .kwBox
  let byRef ← keyword? .kwRef
  let changeable ← keyword? .kwMut
  if boxed || byRef || changeable then discard ident
  else
    let named ← member
    if atPunct [':'] (← get) || !named then
      punct [':']
      discard <| alternatives go

/-- At most `limit` fields of a struct pattern; two points end them. -/
def fieldPatternsUpTo (go : Reader) : Nat → Parser Unit
  | 0 => failure
  | limit + 1 => do
    if (← get).isEmpty then return ()
    discard <| outerAttributes go
    if ← punct? ['.', '.'] then return ()
    fieldPattern go
    if (← get).isEmpty then return ()
    punct [',']
    fieldPatternsUpTo go limit

/-- A pattern that begins with a path: a macro, a struct, a tuple struct, a range, or the path alone. -/
def pathPattern (go : Reader) : Parser PatternKind := do
  let (qualified, p) ← qualifiedPath go true
  let ts ← get
  if !qualified && atPunct ['!'] ts && !atPunct ['!', '='] ts && isPlain p then
    punct ['!']
    discard anyGroup
    return .other
  else if atGroup .brace ts then
    within .brace do fieldPatternsUpTo go ((← get).length + 1)
    return .other
  else if atGroup .parenthesis ts then
    discard <| within .parenthesis (patternList go)
    return .other
  else if atPunct ['.', '.'] ts then rangeFrom go true
  else return .other

/-- A name that is bound, with the pattern it has to match as well. -/
def bindingPattern (go : Reader) : Parser Unit := do
  discard <| keyword? .kwRef
  discard <| keyword? .kwMut
  discard <| identOr [.kwSelf]
  if ← punct? ['@'] then discard <| go .pattern

def pattern (go : Reader) : Parser PatternKind := do
  let ts ← get
  let next := ts.drop 1
  if (atIdent ts && (atPathSep next || atPunct ['!'] next || atGroup .brace next ||
        atGroup .parenthesis next || atPunct ['.', '.'] next)) ||
      (atKeyword .kwSelf ts && atPathSep next) || atPathSep ts || atPunct ['<'] ts ||
      atAnyKeyword [.kwSelfType, .kwSuper, .kwCrate] ts then
    pathPattern go
  else if atKeyword .kwUnderscore ts then
    keyword .kwUnderscore
    return .other
  else if atKeyword .kwBox ts then
    keyword .kwBox
    discard <| go .pattern
    return .other
  else if atPunct ['-'] ts || atLiteral ts || atKeyword .kwConst ts then
    discard <| rangeBound go
    if atPunct ['.', '.'] (← get) then rangeFrom go true else return .other
  else if atAnyKeyword [.kwRef, .kwMut, .kwSelf] ts || atIdent ts then
    bindingPattern go
    return .other
  else if atPunct ['&'] ts then
    punct ['&']
    discard <| keyword? .kwMut
    discard <| go .pattern
    return .other
  else if atGroup .parenthesis ts then
    discard <| within .parenthesis (patternList go)
    return .other
  else if atGroup .bracket ts then
    let found ← within .bracket (patternList go)
    if found.any (· == .openRange) then failure
    return .other
  else if atPunct ['.', '.'] ts && !atPunct ['.', '.', '.'] ts then rangeFrom go false
  else failure

end TypedId.Grammar
