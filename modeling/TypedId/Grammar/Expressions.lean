import TypedId.Grammar.Patterns
import TypedId.Token.Lexer

/-!
Expressions and statements. They are recognised and dropped; what an expression is matters only for what
may come after it.
-/
namespace TypedId.Grammar

/-! ## Operators -/

namespace Precedence

def assignment : Precedence := 1

def range : Precedence := 2

def comparison : Precedence := 6

def cast : Precedence := 13

end Precedence

/-- The binary operators in the order in which they are tried, and how strongly they bind. -/
def binaryOperators : List (List Char × Precedence) := [
  (['+', '='], Precedence.assignment), (['-', '='], Precedence.assignment),
  (['*', '='], Precedence.assignment), (['/', '='], Precedence.assignment),
  (['%', '='], Precedence.assignment), (['^', '='], Precedence.assignment),
  (['&', '='], Precedence.assignment), (['|', '='], Precedence.assignment),
  (['<', '<', '='], Precedence.assignment), (['>', '>', '='], Precedence.assignment),
  (['&', '&'], 4), (['|', '|'], 3), (['<', '<'], 10), (['>', '>'], 10),
  (['=', '='], Precedence.comparison), (['<', '='], Precedence.comparison),
  (['!', '='], Precedence.comparison), (['>', '='], Precedence.comparison),
  (['+'], 11), (['-'], 11), (['*'], 12), (['/'], 12), (['%'], 12), (['^'], 8), (['&'], 9),
  (['|'], 7), (['<'], Precedence.comparison), (['>'], Precedence.comparison)]

def binaryOperator? (ts : List Token) : Option (List Char × Precedence) :=
  binaryOperators.find? fun op => atPunct op.1 ts

/-- An equals sign that assigns stands at the front. -/
def atAssign (ts : List Token) : Bool := atPunct ['='] ts && !atPunct ['=', '>'] ts

/-- How strongly the operator at the front binds; zero if there is none. -/
def nextPrecedence (ts : List Token) : Precedence :=
  match binaryOperator? ts with
  | some (_, p) => p
  | none =>
    if atAssign ts then Precedence.assignment
    else if atPunct ['.', '.'] ts then Precedence.range
    else if atKeyword .kwAs ts then Precedence.cast
    else 0

/-- A range without an end stops here. -/
def atRangeStop (structs : Bool) (ts : List Token) : Bool :=
  ts.isEmpty || atPunct [','] ts || atPunct [';'] ts || atDot ts || atPunct ['?'] ts ||
    atPunct ['=', '>'] ts || (!structs && atGroup .brace ts) || atPunct ['='] ts ||
    atPunct ['+'] ts || atPunct ['/'] ts || atPunct ['%'] ts || atPunct ['^'] ts ||
    atPunct ['>'] ts || atPunct ['<', '='] ts || atPunct ['!', '='] ts || atPunct ['-', '='] ts ||
    atPunct ['*', '='] ts || atPunct ['&', '='] ts || atPunct ['|', '='] ts ||
    atPunct ['<', '<', '='] ts || atKeyword .kwAs ts

/-- A range from its operator on. -/
def rangeEnd (go : Reader) (structs : Bool) : Parser Unit := do
  let closed ← rangeMark false
  if !closed && atRangeStop structs (← get) then return ()
  discard <| go (.rightSide structs Precedence.range)

/-- A conversion may not be followed by what would apply to its type. -/
def notAfterCast (ts : List Token) : Bool :=
  !(atDot ts || atPunct ['?'] ts || atGroup .bracket ts || atGroup .parenthesis ts)

/-- The operators after an operand, none weaker than `floor`. A range takes no operator after it, and
comparisons do not chain. -/
def operators (go : Reader) (left : ExprKind) (structs : Bool) (floor : Precedence) :
    Parser ExprKind := do
  if left = .range then return left
  let ts ← get
  match binaryOperator? ts with
  | some (op, precedence) =>
    if precedence < floor then return left
    if precedence = Precedence.comparison && left == .comparison then failure
    punct op
    discard <| go (.rightSide structs precedence)
    go (.operators (if precedence = Precedence.comparison then .comparison else .other) structs floor)
  | none =>
    if floor ≤ Precedence.assignment && atAssign ts then
      punct ['=']
      discard <| go (.rightSide structs Precedence.assignment)
      go (.operators .other structs floor)
    else if floor ≤ Precedence.range && atPunct ['.', '.'] ts then
      rangeEnd go structs
      go (.operators .range structs floor)
    else if floor ≤ Precedence.cast && atKeyword .kwAs ts then
      keyword .kwAs
      discard <| go (.type false)
      require notAfterCast
      go (.operators .other structs floor)
    else return left

/-- At most `limit` rounds of stronger operators on the right side of one. A round that reads nothing
ends them. -/
def strongerUpTo (go : Reader) (structs : Bool) (operator : Precedence) :
    Nat → ExprKind → Parser ExprKind
  | 0, _ => failure
  | limit + 1, right => do
    let ts ← get
    let next := nextPrecedence ts
    if operator < next || (next = operator && operator = Precedence.assignment) then
      let right ← go (.operators right structs next)
      if (← get).length = ts.length then return right
      else strongerUpTo go structs operator limit right
    else return right

def rightSide (go : Reader) (structs : Bool) (operator : Precedence) : Parser ExprKind := do
  let right ← go (.operand structs)
  strongerUpTo go structs operator ((← get).length + 1) right

/-! ## Operands -/

def callArguments (go : Reader) : Parser Unit :=
  discard <| within .parenthesis (commaList (expression go true))

def splitAtDots (cs : List Char) : List (List Char) :=
  cs.foldr (fun c pieces =>
    match pieces with
    | piece :: rest => if c = '.' then [] :: piece :: rest else (c :: piece) :: rest
    | [] => [[c]]) [[]]

/-- The text is the number of a tuple field. -/
def isIndexText (cs : List Char) : Bool :=
  match Token.lex? cs with
  | some [.literal l] => (tupleIndex? l).isSome
  | _ => false

/-- A number with points that selects through nested tuples, as `0.1` in `x.0.1`. Answers whether a
point comes last. -/
def nestedIndex? (text : String) : Option Bool :=
  let cs := text.toList
  let open_ := cs.getLast? == some '.'
  let cs := if open_ then cs.dropLast else cs
  if (splitAtDots cs).all isIndexText then some open_ else none

/-- A member after a point: a field, `await`, or a method with its arguments. -/
def memberAccess (go : Reader) : Parser Unit := do
  if ← keyword? .kwAwait then return ()
  let named ← member
  let generic := named && atPathSep (← get)
  if generic then
    punct [':', ':']
    discard <| angleArguments go
  if generic || (named && atGroup .parenthesis (← get)) then callArguments go

def afterDot (go : Reader) : Parser Unit := do
  match ← get with
  | .literal l :: rest =>
    if l.kind = .float then
      match nestedIndex? l.text with
      | some open_ =>
        set rest
        if open_ then memberAccess go
      | none => failure
    else memberAccess go
  | _ => memberAccess go

/-- At most `limit` calls, members, indices and question marks after an operand. -/
def postfixUpTo (go : Reader) : Nat → ExprKind → Parser ExprKind
  | 0, _ => failure
  | limit + 1, e => do
    let ts ← get
    if atGroup .parenthesis ts then
      callArguments go
      postfixUpTo go limit .other
    else if atDot ts && e != .range then
      punct ['.']
      afterDot go
      postfixUpTo go limit .other
    else if atGroup .bracket ts then
      discard <| within .bracket (expression go true)
      postfixUpTo go limit .other
    else if atPunct ['?'] ts && e != .range then
      punct ['?']
      postfixUpTo go limit .other
    else return e

/-- Calls, members, indices and question marks after an operand. -/
def postfixes (go : Reader) (e : ExprKind) : Parser ExprKind := do
  postfixUpTo go ((← get).length + 1) e

def fieldValue (go : Reader) : Parser Unit := do
  discard <| outerAttributes go
  let named ← member
  if atPunct [':'] (← get) || !named then
    punct [':']
    discard <| expression go true

/-- At most `limit` fields of a struct in braces; two points end them, with a struct to take the others
from or without. -/
def fieldValuesUpTo (go : Reader) : Nat → Parser Unit
  | 0 => failure
  | limit + 1 => do
    if (← get).isEmpty then return ()
    if ← punct? ['.', '.'] then
      if !(← get).isEmpty then discard <| expression go true
    else
      fieldValue go
      if (← get).isEmpty then return ()
      punct [',']
      fieldValuesUpTo go limit

/-- An operand that begins with a path: a macro, a struct, or the path alone. -/
def pathExpression (go : Reader) (structs : Bool) : Parser ExprKind := do
  let (qualified, p) ← qualifiedPath go true
  let ts ← get
  if !qualified && atPunct ['!'] ts && !atPunct ['!', '='] ts && isPlain p then
    punct ['!']
    return .invocation (← anyGroup)
  else if structs && atGroup .brace ts then
    within .brace do fieldValuesUpTo go ((← get).length + 1)
    return .other
  else return .other

/-- An array: a list, or one value repeated. -/
def array (go : Reader) : Parser Unit := do
  if (← get).isEmpty then return ()
  discard <| expression go true
  if ← punct? [';'] then discard <| expression go true
  else if !(← get).isEmpty then
    punct [',']
    discard <| commaList (expression go true)

/-- A tuple, or an expression in parentheses. -/
def tuple (go : Reader) : Parser Unit := discard <| commaList (expression go true)

def closureParameter (go : Reader) : Parser Unit := do
  discard <| outerAttributes go
  discard <| go .pattern
  if ← punct? [':'] then discard <| go (.type true)

/-- A closure. One with an arrow has a block as its body. -/
def closure (go : Reader) (structs : Bool) : Parser Unit := do
  discard <| boundLifetimes? go
  discard <| keyword? .kwConst
  discard <| keyword? .kwStatic
  discard <| keyword? .kwAsync
  discard <| keyword? .kwMove
  punct ['|']
  discard <| separated (atPunct ['|']) [','] (closureParameter go)
  punct ['|']
  if atPunct ['-', '>'] (← get) then
    punct ['-', '>']
    discard <| go (.type true)
    block go
  else discard <| expression go structs

def atExpression (ts : List Token) : Bool :=
  let plain := fun (c : Char) => atPunct [c] ts && !atPunct [c, '='] ts
  atWord ts || atGroup .parenthesis ts || atGroup .bracket ts || atGroup .brace ts || atLiteral ts ||
    plain '!' || (plain '-' && !atPunct ['-', '>'] ts) || plain '*' || plain '|' || plain '&' ||
    atPunct ['.', '.'] ts || (plain '<' && !atPunct ['<', '<', '='] ts) || atPathSep ts ||
    atLifetime ts || atPunct ['#'] ts

def expression? (go : Reader) : Parser Unit :=
  discard <| whenAt atExpression (expression go true)

/-- The value that a `break` hands on. -/
def breakValue (go : Reader) (structs : Bool) : Parser Unit := do
  if atLifetime (← get) then
    lifetime
    require fun ts => !atPunct [':'] ts
  let ts ← get
  if atExpression ts && (structs || !atGroup .brace ts) then discard <| expression go true

/-- At most `limit` conditions with their blocks. -/
def conditionsUpTo (go : Reader) : Nat → Parser Unit
  | 0 => failure
  | limit + 1 => do
    keyword .kwIf
    discard <| expression go false
    block go
    if ← keyword? .kwElse then
      if atKeyword .kwIf (← get) then conditionsUpTo go limit else block go

def conditional (go : Reader) : Parser Unit := do conditionsUpTo go ((← get).length + 1)

def whileLoop (go : Reader) : Parser Unit := do
  keyword .kwWhile
  discard <| expression go false
  body go

def forLoop (go : Reader) : Parser Unit := do
  keyword .kwFor
  discard <| alternatives go
  keyword .kwIn
  discard <| expression go false
  body go

/-- A loop without a condition. -/
def endlessLoop (go : Reader) : Parser Unit := do
  keyword .kwLoop
  body go

def matchArm (go : Reader) : Parser Unit := do
  discard <| outerAttributes go
  discard <| alternatives go
  if ← keyword? .kwIf then discard <| expression go true
  punct ['=', '>']
  let e ← go .early
  if e != .block && !(← get).isEmpty then punct [','] else discard <| punct? [',']

def matchCases (go : Reader) : Parser Unit := do
  keyword .kwMatch
  discard <| expression go false
  within .brace do
    discard <| innerAttributes go
    discard <| repeatToEnd (matchArm go)

/-- A loop or a block after its label. -/
def labelled (go : Reader) : Parser Unit := do
  lifetime
  punct [':']
  let ts ← get
  if atKeyword .kwWhile ts then whileLoop go
  else if atKeyword .kwFor ts then forLoop go
  else if atKeyword .kwLoop ts then endlessLoop go
  else body go

/-- A pattern that is matched as a condition. -/
def letCondition (go : Reader) (structs : Bool) : Parser Unit := do
  keyword .kwLet
  discard <| alternatives go
  punct ['=']
  let left ← go (.operand structs)
  discard <| go (.operators left structs Precedence.comparison)

/-- Parameters brought in by `for` follow, not a loop. -/
def atForClosure (ts : List Token) : Bool := atKeyword .kwFor ts && atGenerics (ts.drop 1)

def atClosure (ts : List Token) : Bool :=
  atPunct ['|'] ts || atKeyword .kwMove ts || atForClosure ts ||
    (atKeyword .kwConst ts && !atGroup .brace (ts.drop 1)) || atKeyword .kwStatic ts ||
    (atKeyword .kwAsync ts && (atPunct ['|'] (ts.drop 1) || atKeyword .kwMove (ts.drop 1)))

def atAsyncBlock (ts : List Token) : Bool :=
  atKeyword .kwAsync ts && (atGroup .brace (ts.drop 1) ||
    (atKeyword .kwMove (ts.drop 1) && atGroup .brace (ts.drop 2)))

/-- A block that may fail begins here. -/
def atTryBlock (ts : List Token) : Bool := atKeyword .kwTry ts && atGroup .brace (ts.drop 1)

/-- A path begins here, as an operand. -/
def atPathOperand (ts : List Token) : Bool :=
  atPathName ts || atPathSep ts || atPunct ['<'] ts ||
    (atKeyword .kwTry ts && (atPunct ['!'] (ts.drop 1) || atPathSep (ts.drop 1)))

/-- An expression that ends a statement by its closing brace, if one begins here. -/
def blockLike? (go : Reader) : Parser Bool := do
  let ts ← get
  if atKeyword .kwIf ts then conditional go
  else if atKeyword .kwWhile ts then whileLoop go
  else if atKeyword .kwFor ts && !atForClosure ts then forLoop go
  else if atKeyword .kwLoop ts then endlessLoop go
  else if atKeyword .kwMatch ts then matchCases go
  else if atTryBlock ts then
    keyword .kwTry
    block go
  else if atKeyword .kwUnsafe ts then
    keyword .kwUnsafe
    body go
  else if atKeyword .kwConst ts && atGroup .brace (ts.drop 1) then constBlock go
  else if atGroup .brace ts then body go
  else if atLifetime ts then labelled go
  else return false
  return true

/-- An operand without prefix and postfix operators. -/
def atom (go : Reader) (structs : Bool) : Parser ExprKind := do
  let ts ← get
  if atLiteral ts then
    literal
    return .other
  else if atAsyncBlock ts then
    keyword .kwAsync
    discard <| keyword? .kwMove
    block go
    return .other
  else if ← (if atClosure ts then pure false else blockLike? go) then return .block
  else if atClosure ts then
    closure go structs
    return .other
  else if atName "builtin" ts && atPunct ['#'] (ts.drop 1) then
    discard ident
    punct ['#']
    discard ident
    discard <| group .parenthesis
    return .other
  else if atPathOperand ts then pathExpression go structs
  else if atGroup .parenthesis ts then
    within .parenthesis (tuple go)
    return .other
  else if atGroup .bracket ts then
    within .bracket (array go)
    return .other
  else if ← keyword? .kwBreak then
    breakValue go structs
    return .other
  else if ← keyword? .kwContinue then
    discard lifetime?
    return .other
  else if ← keyword? .kwReturn then
    expression? go
    return .other
  else if ← keyword? .kwBecome then
    discard <| expression go true
    return .other
  else if atKeyword .kwLet ts then
    letCondition go structs
    return .other
  else if ← keyword? .kwYield then
    expression? go
    return .other
  else if atPunct ['.', '.'] ts then
    rangeEnd go structs
    return .range
  else if ← keyword? .kwUnderscore then return .other
  else failure

/-- An operand with its prefix and postfix operators. Attributes may not stand before a range that has
no beginning. -/
def operand (go : Reader) (structs : Bool) : Parser ExprKind := do
  let attributes ← outerAttributes go
  let ts ← get
  if atPunct ['&'] ts then
    punct ['&']
    let raw := atName "raw" (ts.drop 1) && atAnyKeyword [.kwMut, .kwConst] (ts.drop 2)
    if raw then discard ident
    let changeable ← keyword? .kwMut
    if raw && !changeable then keyword .kwConst
    discard <| go (.operand structs)
    return .other
  else if atPunct ['*'] ts || atPunct ['!'] ts || (atPunct ['-'] ts) then
    set (ts.drop 1)
    discard <| go (.operand structs)
    return .other
  else
    let e ← postfixes go (← atom go structs)
    if e == .range && !attributes.isEmpty then failure
    return e

/-- An expression at the place of a statement. One that ends in a block is over there, unless a point or
a question mark goes on with it. -/
def early (go : Reader) : Parser ExprKind := do
  discard <| outerAttributes go
  if ← blockLike? go then
    let ts ← get
    if atDot ts || atPunct ['?'] ts then
      let e ← postfixes go .other
      go (.operators e true 0)
    else return .block
  else
    let e ← go (.operand true)
    if e = .block then return e else go (.operators e true 0)

/-! ## Statements -/

/-- An item begins here, where a statement may stand. -/
def atItem (ts : List Token) : Bool :=
  let second := ts.drop 1
  let third := ts.drop 2
  let function := atAnyKeyword [.kwUnsafe, .kwExtern, .kwFn]
  atAnyKeyword [.kwPub, .kwExtern, .kwUse, .kwFn, .kwMod, .kwType, .kwStruct, .kwEnum, .kwTrait,
      .kwImpl, .kwMacro] ts ||
    (atKeyword .kwCrate ts && !atPathSep second) ||
    (atKeyword .kwStatic ts && (atKeyword .kwMut second || atIdent second)) ||
    (atKeyword .kwConst ts && !(atGroup .brace second || atKeyword .kwStatic second ||
      (atKeyword .kwAsync second && !function third) || atKeyword .kwMove second ||
      atPunct ['|'] second)) ||
    (atKeyword .kwUnsafe ts && !atGroup .brace second) ||
    (atKeyword .kwAsync ts && function second) ||
    (atName "union" ts && atIdent second) ||
    (atName "auto" ts && atKeyword .kwTrait second) ||
    (atName "default" ts && atAnyKeyword [.kwUnsafe, .kwImpl] second)

/-- What a statement that begins with a plain path and an exclamation mark is. -/
inductive Invocation where
  | item | braces | none
  deriving DecidableEq

/-- Tells a macro at the place of a statement apart: one that declares a name is an item, and one in
braces ends the statement unless a point or a question mark goes on with it. -/
def invocation (ts : List Token) : Invocation :=
  match plainPath ts with
  | some (_, after) =>
    if atPunct ['!'] after then
      let second := after.drop 1
      let third := after.drop 2
      if atIdent second || atKeyword .kwTry second then .item
      else if atGroup .brace second && !(atDot third || atPunct ['?'] third) then .braces
      else .none
    else .none
  | none => .none

/-- The last token read between the two lists is a group in braces. -/
def endedInBrace (before after : List Token) : Bool :=
  atGroup .brace (before.drop (before.length - after.length - 1))

def letStatement (go : Reader) : Parser Unit := do
  keyword .kwLet
  discard <| go .pattern
  if ← punct? [':'] then discard <| go (.type true)
  if ← punct? ['='] then
    let before ← get
    discard <| expression go true
    if !endedInBrace before (← get) && atKeyword .kwElse (← get) then
      keyword .kwElse
      block go
  punct [';']

/-- One statement; says whether another may follow it. -/
def statement (go : Reader) : Parser Bool := do
  let attributes ← outerAttributes go
  let ts ← get
  match invocation ts with
  | .braces =>
    discard plainPath
    punct ['!']
    discard anyGroup
    discard <| punct? [';']
    return true
  | found =>
    if atKeyword .kwLet ts then
      letStatement go
      return true
    else if atItem ts || found = .item then
      discard <| go (.item attributes)
      return true
    else
      let e ← go .early
      let ended ← punct? [';']
      return ended || e == .block || e == .invocation .brace

/-- At most `limit` statements up to the end, with stray semicolons between them. -/
def statementsUpTo (go : Reader) : Nat → Parser Unit
  | 0 => failure
  | limit + 1 => do
    discard <| repeatWhile (atPunct [';']) (punct [';'])
    if (← get).isEmpty then return ()
    let closed ← statement go
    if (← get).isEmpty then return ()
    if !closed then failure
    statementsUpTo go limit

def statements (go : Reader) : Parser Unit := do
  statementsUpTo go ((← get).length + 1)

end TypedId.Grammar
