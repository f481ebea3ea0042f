import TypedId.Grammar.Category

/-!
Types, paths and bounds, and the generic parameters and `where` clauses made of them.
-/
namespace TypedId.Grammar

/-! ## Paths -/

/-- A constant among generic arguments: a literal, a name, or a block. -/
def constArgument (go : Reader) : Parser Unit := do
  let ts ← get
  if atLiteral ts then literal
  else if atIdent ts then discard ident
  else body go

/-- The name of an associated item to which a bare type leads, if `=` or `:` may follow it. -/
def isBareName : Ty → Bool
  | .path false (.mk false [.mk _ .parenthesized]) => false
  | .path false (.mk false [_]) => true
  | _ => false

/-- An argument in angle brackets: a lifetime, a constant, a type, or an associated item with its value
or its bounds. -/
def genericArgument (go : Reader) : Parser GenericArgument := do
  let ts ← get
  if atLifetime ts && !atPunct ['+'] (ts.drop 1) then
    lifetime
    return .other
  else if atLiteral ts || atGroup .brace ts then
    constArgument go
    return .other
  else
    let t ← go (.type true)
    if isBareName t then
      if ← punct? ['='] then
        let ts ← get
        if atLiteral ts || atGroup .brace ts then constArgument go
        else discard <| go (.type true)
        return .other
      else if ← punct? [':'] then
        discard <| separated (fun ts => atPunct [','] ts || atPunct ['>'] ts) ['+']
          (go (.bound false false))
        return .other
      else return .type t
    else return .type t

def angleArguments (go : Reader) : Parser (List GenericArgument) := angleList (genericArgument go)

/-- One name of a path with its arguments. -/
def segment (go : Reader) (inExpr : Bool) : Parser Segment := do
  if atAnyKeyword [.kwSuper, .kwSelf, .kwCrate, .kwTry] (← get) then
    return .mk (← word) .none
  let name ← identOr [.kwSelfType]
  let ts ← get
  if !inExpr && atPunct ['<'] ts && !atPunct ['<', '='] ts && !atPunct ['<', '<', '='] ts then
    return .mk name (.angle (← angleArguments go))
  else if atPathSep ts && atPunct ['<'] (ts.drop 2) then
    punct [':', ':']
    return .mk name (.angle (← angleArguments go))
  else return .mk name .none

/-- The names that follow the first one, each after `::`. Parameters in parentheses are left alone. -/
def moreSegments (go : Reader) (inExpr : Bool) : Parser (List Segment) :=
  repeatWhile (fun ts => atPathSep ts && !atGroup .parenthesis (ts.drop 2)) do
    punct [':', ':']
    segment go inExpr

def path (go : Reader) (inExpr : Bool) : Parser Path := do
  let leading ← punct? [':', ':']
  let first ← segment go inExpr
  let rest ← moreSegments go inExpr
  return .mk leading (first :: rest)

/-- A path that may begin with a type in angle brackets; says whether it does. -/
def qualifiedPath (go : Reader) (inExpr : Bool) : Parser (Bool × Path) := do
  if atPunct ['<'] (← get) then
    punct ['<']
    discard <| go (.type true)
    let trait? ← whenAt (atKeyword .kwAs) do
      keyword .kwAs
      go (.path false)
    punct ['>']
    require atPathSep
    let rest ← repeatWhile atPathSep do
      punct [':', ':']
      segment go inExpr
    match trait? with
    | some (.mk leading segments) => return (true, .mk leading (segments ++ rest))
    | none => return (true, .mk true rest)
  else return (false, ← path go inExpr)

/-- The path is one of plain names, so a macro may be invoked by it. -/
def isPlain (p : Path) : Bool := p.segments.all fun s => s.arguments.isNone

/-- The last name of the path has no arguments. -/
def endsBare (p : Path) : Bool :=
  match p.segments.getLast?.map Segment.arguments with
  | some .none => true
  | some (.angle []) => true
  | _ => false

/-- The path with parameters in parentheses after its last name. -/
def withParameters (p : Path) : Path :=
  .mk p.leading (p.segments.dropLast ++
    (p.segments.getLast?.map fun s => Segment.mk s.name .parenthesized).toList)

/-- Parameters in parentheses follow, perhaps after `::`. -/
def atParameters (ts : List Token) : Bool :=
  atGroup .parenthesis ts || (atPathSep ts && atGroup .parenthesis (ts.drop 2))

/-- The type that a function answers, if an arrow announces one. -/
def returnType (go : Reader) (plus : Bool) : Parser (Option Ty) :=
  whenAt (atPunct ['-', '>']) do
    punct ['-', '>']
    go (.type plus)

/-- Parameter types in parentheses and the type answered. -/
def parameterTypes (go : Reader) : Parser (Option Ty) := do
  discard <| punct? [':', ':']
  discard <| within .parenthesis (commaList (go (.type true)))
  returnType go false

/-- At most `bound` parameter lists after a path. Further names may follow one that answers nothing or a
type in parentheses. -/
def typePathUpTo (go : Reader) : Nat → Path → Parser Path
  | 0, _ => failure
  | bound + 1, p => do
    if endsBare p && atParameters (← get) then
      let answer ← parameterTypes go
      let q := withParameters p
      match answer with
      | none | some .parenthesized =>
        let rest ← moreSegments go false
        typePathUpTo go bound (.mk q.leading (q.segments ++ rest))
      | _ => return q
    else return p

def typePath (go : Reader) : Parser (Bool × Path) := do
  let (qualified, p) ← qualifiedPath go false
  let p ← typePathUpTo go ((← get).length + 1) p
  return (qualified, p)

/-! ## Bounds -/

def boundLifetimes (go : Reader) : Parser Unit := do
  keyword .kwFor
  discard <| angleList do
    discard <| outerAttributes go
    lifetime

/-- The lifetimes that `for` brings in, if it stands at the front. -/
def boundLifetimes? (go : Reader) : Parser Bool := do
  return (← whenAt (atKeyword .kwFor) (boundLifetimes go)).isSome

/-- A trait as a bound, with its lifetimes and marks. -/
def traitBound (go : Reader) (marks : Bool) : Parser BoundKind := do
  let lifetimes ← boundLifetimes? go
  let ts ← get
  let marked := atGroup .bracket ts || atKeyword .kwConst ts
  if atGroup .bracket ts then within .bracket (keyword .kwConst)
  else discard <| keyword? .kwConst
  if marked && !marks then failure
  let maybe ← punct? ['?']
  let lifetimes ← if !lifetimes && maybe then boundLifetimes? go else pure lifetimes
  let p ← go (.path false)
  if endsBare p && atParameters (← get) then discard <| parameterTypes go
  if lifetimes && maybe then failure
  return if marked then .constTrait else .trait

/-- The names that a hidden type captures. -/
def captures : Parser Unit := do
  keyword .kwUse
  discard <| angleList do
    if atLifetime (← get) then lifetime else discard <| identOr [.kwSelfType]

def bound (go : Reader) (capturesAllowed marks : Bool) : Parser BoundKind := do
  let ts ← get
  if atLifetime ts then
    lifetime
    return .lifetime
  else if atKeyword .kwUse ts then
    captures
    if capturesAllowed then return .captures else failure
  else if atGroup .parenthesis ts then within .parenthesis (traitBound go marks)
  else traitBound go marks

def atBound (marks : Bool) (ts : List Token) : Bool :=
  atWord ts || atPathSep ts || atPunct ['?'] ts || atLifetime ts || atGroup .parenthesis ts ||
    (marks && atGroup .bracket ts)

/-- At most `limit` bounds joined by a plus. With `plus` unset there is one only. -/
def boundsUpTo (go : Reader) (plus capturesAllowed marks : Bool) : Nat → Parser (List BoundKind)
  | 0 => failure
  | limit + 1 => do
    let b ← go (.bound capturesAllowed marks)
    if plus && atPunct ['+'] (← get) then
      punct ['+']
      if atBound marks (← get) then
        let rest ← boundsUpTo go plus capturesAllowed marks limit
        return b :: rest
      else return [b]
    else return [b]

/-- The bounds of a trait object or a hidden type, at least one of them a trait. -/
def typeBounds (go : Reader) (plus capturesAllowed marks : Bool) : Parser Unit := do
  let found ← boundsUpTo go plus capturesAllowed marks ((← get).length + 1)
  if found.any fun b => b == .trait || b == .constTrait then return () else failure

/-! ## Types -/

/-- A parameter of a function pointer. The first one may be `self`. -/
def pointerParameter (go : Reader) (first : Bool) : Parser Unit := do
  discard <| outerAttributes go
  let mutSelf := fun (ts : List Token) => first && atKeyword .kwMut ts && atKeyword .kwSelf (ts.drop 1)
  let hasMut := mutSelf (← get)
  if hasMut then keyword .kwMut
  let ts ← get
  let selfNamed := first && atKeyword .kwSelf ts
  let named := (atIdent ts || atKeyword .kwUnderscore ts || selfNamed) && atColon (ts.drop 1)
  if named then
    discard word
    punct [':']
  let hasSelf := named && !(atIdent ts || atKeyword .kwUnderscore ts) && selfNamed
  if first && !hasSelf && mutSelf (← get) then
    keyword .kwMut
    keyword .kwSelf
  else if hasMut && !named then keyword .kwSelf
  else discard <| go (.type true)

/-- The dots of a variadic parameter stand at the front, perhaps after a name. -/
def atVariadic (ts : List Token) : Bool :=
  atPunct ['.', '.', '.'] ts ||
    ((atIdent ts || atKeyword .kwUnderscore ts) && atPunct [':'] (ts.drop 1) &&
      atPunct ['.', '.', '.'] (ts.drop 2))

/-- At most `limit` parameters of a function pointer. -/
def pointerParametersUpTo (go : Reader) : Nat → (first : Bool) → Parser Unit
  | 0, _ => failure
  | limit + 1, first => do
    if (← get).isEmpty then return ()
    discard <| outerAttributes go
    if atVariadic (← get) then
      if atWord (← get) then
        discard word
        punct [':']
      punct ['.', '.', '.']
      discard <| punct? [',']
    else
      pointerParameter go first
      if (← get).isEmpty then return ()
      punct [',']
      pointerParametersUpTo go limit false

/-- The name of a calling convention, if `extern` announces one. -/
def callingConvention : Parser Unit := do
  if ← keyword? .kwExtern then
    if atString (← get) then literal

def functionPointer (go : Reader) : Parser Unit := do
  discard <| boundLifetimes? go
  discard <| keyword? .kwUnsafe
  callingConvention
  keyword .kwFn
  within .parenthesis do pointerParametersUpTo go ((← get).length + 1) true
  discard <| returnType go false

def plusBounds (go : Reader) : Parser (List BoundKind) :=
  repeatWhile (atPunct ['+']) do
    punct ['+']
    go (.bound false false)

/-- At most `limit` bounds after a path, each after a plus; the last plus may stand alone. Answers
whether any plus was read. -/
def pathBoundsUpTo (go : Reader) : Nat → Parser Bool
  | 0 => failure
  | limit + 1 => do
    if ← punct? ['+'] then
      let ts ← get
      if atWord ts || atPathSep ts || atPunct ['?'] ts || atLifetime ts || atGroup .parenthesis ts then
        discard <| go (.bound false false)
        discard <| pathBoundsUpTo go limit
      return true
    else return false

/-- What stands in the parentheses at the beginning of a type. -/
inductive InParentheses where
  | empty | lifetimes | relaxed | tuple
  | one (t : Ty)

def inParentheses (go : Reader) : Parser InParentheses := do
  let ts ← get
  if ts.isEmpty then return .empty
  else if atLifetime ts then
    typeBounds go true false false
    return .lifetimes
  else if atPunct ['?'] ts then
    discard <| traitBound go false
    return .relaxed
  else
    let first ← go (.type true)
    if atPunct [','] (← get) then
      punct [',']
      discard <| commaList (go (.type true))
      return .tuple
    else return .one first

/-- A type that begins with parentheses. One type in them may be the first of a sum of bounds. -/
def parenthesizedType (go : Reader) (plus : Bool) : Parser Ty := do
  match ← within .parenthesis (inParentheses go) with
  | .empty | .tuple => return .other
  | .lifetimes => return .parenthesized
  | .relaxed =>
    let more ← plusBounds go
    return .bounds more.isEmpty
  | .one t =>
    let summable := match t with
      | .path false _ => true
      | .bounds single => single
      | _ => false
    if plus && summable && atPunct ['+'] (← get) then
      discard <| plusBounds go
      return .bounds false
    else return .parenthesized

/-- A type that begins with a path: the path, a macro, or a sum of bounds. -/
def pathType (go : Reader) (plus lifetimes : Bool) : Parser Ty := do
  let (qualified, p) ← typePath go
  if qualified then return .path true p
  let ts ← get
  if atPunct ['!'] ts && !atPunct ['!', '='] ts && isPlain p then
    punct ['!']
    discard anyGroup
    return .other
  else if lifetimes || (plus && atPunct ['+'] ts) then
    let more ← if plus then pathBoundsUpTo go (ts.length + 1) else pure false
    return .bounds !more
  else return .path false p

/-- A type. With `plus` it may be a sum of bounds. -/
def type (go : Reader) (plus : Bool) : Parser Ty := do
  let lifetimes ← boundLifetimes? go
  let ts ← get
  let function := atAnyKeyword [.kwFn, .kwUnsafe, .kwExtern] ts
  if lifetimes && !(function || atPathName ts) then failure
  if atGroup .parenthesis ts then parenthesizedType go plus
  else if function then
    functionPointer go
    return .other
  else if atPathName ts || atPathSep ts || atPunct ['<'] ts then pathType go plus lifetimes
  else if atKeyword .kwDyn ts then
    keyword .kwDyn
    discard <| punct? ['*']
    typeBounds go plus false false
    return .other
  else if atGroup .bracket ts then
    within .bracket do
      discard <| go (.type true)
      if ← punct? [';'] then discard <| expression go true
    return .other
  else if atPunct ['*'] ts then
    punct ['*']
    if !(← keyword? .kwConst) then keyword .kwMut
    discard <| go (.type false)
    return .other
  else if atPunct ['&'] ts then
    punct ['&']
    discard lifetime?
    discard <| keyword? .kwMut
    discard <| go (.type false)
    return .other
  else if atPunct ['!'] ts && !atPunct ['='] ts then
    punct ['!']
    return .other
  else if atKeyword .kwImpl ts then
    keyword .kwImpl
    typeBounds go plus true true
    return .other
  else if atKeyword .kwUnderscore ts then
    keyword .kwUnderscore
    return .other
  else if atLifetime ts then
    typeBounds go true false false
    return .bounds false
  else failure

/-! ## Generic parameters -/

/-- The angle bracket at the front begins parameters, not a path. -/
def atGenerics (ts : List Token) : Bool :=
  let second := ts.drop 1
  let third := ts.drop 2
  atPunct ['<'] ts &&
    (atPunct ['>'] second || atPunct ['#'] second ||
      ((atLifetime second || atIdent second) &&
        (atPunct ['>'] third || atPunct [','] third || atColon third || atPunct ['='] third)) ||
      atKeyword .kwConst second)

/-- A generic parameter: a lifetime, a type or a constant. -/
def genericParameter (go : Reader) : Parser Unit := do
  discard <| outerAttributes go
  let ts ← get
  let ends := fun (ts : List Token) => ts.isEmpty || atPunct [','] ts || atPunct ['>'] ts
  if atLifetime ts then
    lifetime
    if ← punct? [':'] then discard <| sum ends lifetime
  else if atIdent ts then
    discard ident
    if ← punct? [':'] then
      discard <| sum (fun ts => ends ts || atPunct ['='] ts) (go (.bound false true))
    if ← punct? ['='] then discard <| go (.type true)
  else if atKeyword .kwConst ts then
    keyword .kwConst
    discard ident
    punct [':']
    discard <| go (.type true)
    if ← punct? ['='] then constArgument go
  else keyword .kwUnderscore

/-- Generic parameters in angle brackets, or nothing; answers how many there are. -/
def generics (go : Reader) : Parser (Option Nat) :=
  whenAt (atPunct ['<']) do return (← angleList (genericParameter go)).length

/-- A `where` clause ends here. -/
def atWhereEnd (ts : List Token) : Bool :=
  ts.isEmpty || atGroup .brace ts || atPunct [','] ts || atPunct [';'] ts || atColon ts ||
    atPunct ['='] ts

def wherePredicate (go : Reader) : Parser Unit := do
  let ts ← get
  if atLifetime ts && atPunct [':'] (ts.drop 1) then
    lifetime
    punct [':']
    discard <| sum (fun ts => atWhereEnd ts || atPunct [':'] ts) lifetime
  else
    discard <| boundLifetimes? go
    discard <| go (.type true)
    punct [':']
    discard <| sum atWhereEnd (go (.bound false true))

/-- At most `limit` conditions with commas. -/
def wherePredicatesUpTo (go : Reader) : Nat → Parser Unit
  | 0 => failure
  | limit + 1 => do
    if atWhereEnd (← get) then return ()
    wherePredicate go
    if ← punct? [','] then wherePredicatesUpTo go limit

/-- A `where` clause if one stands at the front; answers whether it does. -/
def whereClause (go : Reader) : Parser Bool := do
  if ← keyword? .kwWhere then
    if atGenerics (← get) then failure
    wherePredicatesUpTo go ((← get).length + 1)
    return true
  else return false

end TypedId.Grammar
