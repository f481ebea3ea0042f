import TypedId.Grammar.Expressions

/-!
Items: what a module is made of. Structs, imports and `impl` blocks are kept, and modules with their
content; the others are only recognised.
-/
namespace TypedId.Grammar

/-! ## Visibility -/

/-- What stands in the parentheses after `pub`, if it restricts the visibility: one of three words alone,
or a path after `in`. Anything else is the type of a field. -/
def visibilityScope? (content : List Token) : Option (Option PlainPath) :=
  match content with
  | [.word (.keyword k)] =>
    if k = .kwCrate || k = .kwSelf || k = .kwSuper then some (some ⟨false, [.keyword k]⟩) else none
  | .word (.keyword .kwIn) :: rest =>
    match plainPath rest with
    | some (p, []) => some (some p)
    | _ => some none
  | _ => none

def visibility : Parser Visibility := do
  if ← keyword? .kwPub then
    match ← get with
    | .group .parenthesis content :: rest =>
      match visibilityScope? content with
      | some (some scope) =>
        set rest
        return .restricted scope
      | some none => failure
      | none => return .everywhere
    | _ => return .everywhere
  else return .inherited

/-! ## Structs, enums and unions -/

/-- At most `limit` named fields. The type of a field without a name may be a group of fields. -/
def namedFieldsUpTo (go : Reader) : Nat → List Token → Option Unit
  | 0, _ => none
  | limit + 1, content => do
    let field : Parser Unit := do
      discard <| outerAttributes go
      discard visibility
      let nameless := atKeyword .kwUnderscore (← get)
      if nameless then keyword .kwUnderscore else discard ident
      punct [':']
      let ts ← get
      if nameless && (atKeyword .kwStruct ts || (atName "union" ts && atGroup .brace (ts.drop 1))) then
        discard word
        let inner ← group .brace
        if (namedFieldsUpTo go limit inner).isNone then failure
      else discard <| go (.type true)
    match commaList field content with
    | some (_, []) => some ()
    | _ => none

def namedFields (go : Reader) : Parser Unit := do
  let content ← group .brace
  if (namedFieldsUpTo go (Token.sizeAll content + 1) content).isNone then failure

/-- A field without a name. -/
def tupleField (go : Reader) : Parser TupleField := do
  discard <| outerAttributes go
  let v ← visibility
  let t ← go (.type true)
  return ⟨v, t⟩

def tupleFields (go : Reader) : Parser (List TupleField) :=
  within .parenthesis (commaList (tupleField go))

/-- The parameters of a declaration; says whether there are any. -/
def hasGenerics (go : Reader) : Parser Bool := do
  return (← generics go).any (0 < ·)

/-- The fields of a struct with its `where` clause, which comes before braces and after parentheses. -/
def structFields (go : Reader) : Parser (Bool × Fields) := do
  let before ← whereClause go
  let ts ← get
  if !before && atGroup .parenthesis ts then
    let fields ← tupleFields go
    let after ← whereClause go
    punct [';']
    return (after, .tuple fields)
  else if atGroup .brace ts then
    namedFields go
    return (before, .named)
  else
    punct [';']
    return (before, .unit)

def structItem (go : Reader) (attributes : List Attribute) : Parser Item := do
  discard visibility
  keyword .kwStruct
  let name ← ident
  let parameters ← hasGenerics go
  let (conditions, fields) ← structFields go
  return .struct ⟨attributes, name, parameters || conditions, fields⟩

def variant (go : Reader) : Parser Unit := do
  discard <| outerAttributes go
  discard visibility
  discard ident
  let ts ← get
  if atGroup .brace ts then namedFields go
  else if atGroup .parenthesis ts then discard <| tupleFields go
  if ← punct? ['='] then discard <| expression go true

def enumItem (go : Reader) : Parser Item := do
  discard visibility
  keyword .kwEnum
  discard ident
  discard <| generics go
  discard <| whereClause go
  discard <| within .brace (commaList (variant go))
  return .enum

def unionItem (go : Reader) : Parser Item := do
  discard visibility
  discard ident
  discard ident
  discard <| generics go
  discard <| whereClause go
  namedFields go
  return .union

/-! ## Functions -/

/-- Reads what may stand before `fn`; answers nothing of it. -/
def functionMarks (safeAllowed : Bool) : Parser Unit := do
  discard <| keyword? .kwConst
  discard <| keyword? .kwAsync
  let unchecked ← keyword? .kwUnsafe
  if safeAllowed && !unchecked then discard <| name? "safe"
  callingConvention

def atFunction (safeAllowed : Bool) (ts : List Token) : Bool :=
  match functionMarks safeAllowed ts with
  | some (_, after) => atKeyword .kwFn after
  | none => false

def receiver (go : Reader) : Parser Unit := do
  let borrowed ← punct? ['&']
  if borrowed then discard lifetime?
  discard <| keyword? .kwMut
  keyword .kwSelf
  if !borrowed then
    if ← punct? [':'] then discard <| go (.type true)

/-- A parameter of a function: the receiver, a bare type as in old sources, or a pattern with its type.
Says which: the receiver, the dots of a variadic function, or neither. -/
inductive Parameter where
  | receiver | variadic | typed
  deriving DecidableEq

/-- Reads one parameter after its attributes. -/
def parameter (go : Reader) : Parser Parameter := fun ts =>
  match receiver go ts with
  | some (_, rest) => some (.receiver, rest)
  | none =>
    (do
      if atIdent ts && atPunct ['<'] (ts.drop 1) then
        discard <| go (.type true)
        return .typed
      else
        discard <| go .pattern
        punct [':']
        if ← punct? ['.', '.', '.'] then return .variadic
        discard <| go (.type true)
        return Parameter.typed : Parser Parameter) ts

/-- At most `limit` parameters. A receiver comes first, and nothing after the dots. -/
def parametersUpTo (go : Reader) : Nat → (first : Bool) → Parser Unit
  | 0, _ => failure
  | limit + 1, first => do
    if (← get).isEmpty then return ()
    discard <| outerAttributes go
    if ← punct? ['.', '.', '.'] then
      if !(← get).isEmpty then punct [',']
    else
      match ← parameter go with
      | .variadic => if !(← get).isEmpty then punct [',']
      | found =>
        if found = .receiver && !first then failure
        if (← get).isEmpty then return ()
        punct [',']
        parametersUpTo go limit false

/-- The head of a function; answers its name. -/
def signature (go : Reader) (safeAllowed : Bool) : Parser Ident := do
  functionMarks safeAllowed
  keyword .kwFn
  let name ← ident
  discard <| generics go
  within .parenthesis do parametersUpTo go ((← get).length + 1) true
  discard <| returnType go true
  discard <| whereClause go
  return name

/-- A function of a module. One without a body is let through. -/
def functionItem (go : Reader) : Parser Item := do
  discard visibility
  discard <| signature go false
  if ← punct? [';'] then return .other
  body go
  return .other

/-! ## Constants, statics and types -/

/-- A constant from its keyword on; answers its name if it has a value and no conditions. -/
def constant (go : Reader) : Parser (Option Word) := do
  keyword .kwConst
  let name ← identOr [.kwUnderscore]
  let parameters ← generics go
  punct [':']
  discard <| go (.type true)
  let valued ← punct? ['=']
  if valued then discard <| expression go true
  let conditions ← whereClause go
  punct [';']
  return if valued && parameters.isNone && !conditions then some name else none

/-- A static. Its type or its value may be missing. -/
def staticItem (go : Reader) : Parser Item := do
  discard visibility
  keyword .kwStatic
  discard <| keyword? .kwMut
  discard ident
  let typed := !atPunct ['='] (← get)
  if typed then
    punct [':']
    discard <| go (.type true)
  if !typed || !atPunct [';'] (← get) then
    punct ['=']
    discard <| expression go true
  punct [';']
  return .other

/-- Bounds joined by a plus until `stop` holds. -/
def boundsUntil (go : Reader) (stop : List Token → Bool) : Parser Unit :=
  discard <| separated stop ['+'] (go (.bound false true))

/-- A type declaration from its keyword on, with the `where` clause before or after its definition. -/
def typeDeclaration (go : Reader) (before after : Bool) : Parser Unit := do
  keyword .kwType
  discard ident
  discard <| generics go
  if ← punct? [':'] then
    boundsUntil go fun ts => atKeyword .kwWhere ts || atPunct ['='] ts || atPunct [';'] ts
  let conditions ← if before then whereClause go else pure false
  if ← punct? ['='] then discard <| go (.type true)
  if after && !conditions then discard <| whereClause go
  punct [';']

/-! ## Imports -/

/-- At most `limit` entries of a list of imports. An entry that begins at the root of names makes the
whole import one that is not looked at. -/
def useEntriesUpTo (go : Reader) (rootAllowed : Bool) : Nat → Parser (Option (List UseTree))
  | 0 => failure
  | limit + 1 => do
    if (← get).isEmpty then return some []
    let atRoot ← if rootAllowed then punct? [':', ':'] else pure false
    let tree ← go (.useTree (rootAllowed && !atRoot))
    let tree := if atRoot then none else tree
    if (← get).isEmpty then return tree.map fun t => [t]
    punct [',']
    let rest ← useEntriesUpTo go rootAllowed limit
    return tree.bind fun t => rest.map (t :: ·)

def useTree (go : Reader) (rootAllowed : Bool) : Parser (Option UseTree) := do
  let ts ← get
  if atIdent ts || atAnyKeyword [.kwSelf, .kwSuper, .kwCrate, .kwTry] ts then
    let name ← word
    if ← punct? [':', ':'] then
      match ← go (.useTree false) with
      | some tree => return some (.path name tree)
      | none => failure
    else if ← keyword? .kwAs then
      let newName ← identOr [.kwUnderscore]
      return some (.rename name newName)
    else return some (.name name)
  else if ← punct? ['*'] then return some .glob
  else
    let trees ← within .brace do useEntriesUpTo go rootAllowed ((← get).length + 1)
    return trees.map .group

def useItem (go : Reader) : Parser Item := do
  discard visibility
  keyword .kwUse
  let atRoot ← punct? [':', ':']
  let tree ← go (.useTree (!atRoot))
  punct [';']
  return match tree with
    | some tree => .use tree
    | none => .other

/-! ## Macros -/

/-- A macro of a module or a block: a plain path, an exclamation mark, perhaps a name, and a group that
is followed by a semicolon unless it is in braces. -/
def macroItem (nameAllowed : Bool) : Parser Unit := do
  discard plainPath
  punct ['!']
  if nameAllowed then
    let ts ← get
    if atIdent ts || atKeyword .kwTry ts then discard word
  if (← anyGroup) != .brace then punct [';']

def atMacro (ts : List Token) : Bool :=
  atIdent ts || atAnyKeyword [.kwSelf, .kwSuper, .kwCrate] ts || atPathSep ts

/-- A macro that is declared by its keyword. -/
def macroDeclaration : Parser Unit := do
  keyword .kwMacro
  discard ident
  if atGroup .parenthesis (← get) then discard <| group .parenthesis
  discard <| group .brace

/-! ## Impls and traits -/

/-- A function that has a body or, where that is allowed, none; says whether it has one. -/
def method (go : Reader) (safeAllowed : Bool) : Parser (Ident × Bool) := do
  let name ← signature go safeAllowed
  if ← punct? [';'] then return (name, false)
  body go
  return (name, true)

def implMember (go : Reader) : Parser ImplMember := do
  discard <| outerAttributes go
  let v ← visibility
  let ts ← get
  let default := atName "default" ts && !atPunct ['!'] (ts.drop 1)
  if default then discard ident
  let ts ← get
  if atFunction false ts then
    let (name, hasBody) ← method go false
    return if hasBody then .function name else .other
  else if atKeyword .kwConst ts then
    return match ← constant go with
      | some name => .const name
      | none => .other
  else if atKeyword .kwType ts then
    typeDeclaration go false true
    return .other
  else if v = .inherited && !default && atMacro ts then
    macroItem false
    return .other
  else failure

/-- The path names a trait; parameters in parentheses make it none. -/
def isTraitPath (p : Path) : Bool :=
  p.segments.all fun s => match s.arguments with
    | .parenthesized => false
    | _ => true

/-- An `impl` block. With a visibility or a `const` mark, or for what is no path to a trait, it is let
through without being looked at. -/
def implItem (go : Reader) : Parser Item := do
  let v ← visibility
  discard <| name? "default"
  discard <| keyword? .kwUnsafe
  keyword .kwImpl
  if atGenerics (← get) then discard <| generics go
  let ts ← get
  let marked := atKeyword .kwConst ts || (atPunct ['?'] ts && atKeyword .kwConst (ts.drop 1))
  if marked then
    discard <| punct? ['?']
    keyword .kwConst
  let ts ← get
  let negative := atPunct ['!'] ts && !atGroup .brace (ts.drop 1)
  if negative then punct ['!']
  let first ← go (.type true)
  let forType ← keyword? .kwFor
  let ofTrait ← if forType then
      match first with
      | .path false p => if isTraitPath p then pure (some p) else failure
      | _ => pure none
    else if negative then failure
    else pure none
  let selfType ← if forType then go (.type true) else pure first
  discard <| whereClause go
  let members ← within .brace do
    discard <| innerAttributes go
    repeatToEnd (implMember go)
  if v != .inherited || marked || (forType && ofTrait.isNone) then return .other
  else return .impl ⟨ofTrait, selfType, members⟩

def traitMember (go : Reader) : Parser Unit := do
  discard <| outerAttributes go
  let v ← visibility
  let default ← name? "default"
  let ts ← get
  if atFunction false ts then discard <| method go false
  else if atKeyword .kwConst ts then discard <| constant go
  else if atKeyword .kwType ts then typeDeclaration go false true
  else if v = .inherited && !default && atMacro ts then macroItem false
  else failure

/-- The end of a trait's head. -/
def atTraitBody (ts : List Token) : Bool := atKeyword .kwWhere ts || atGroup .brace ts

/-- A trait after its name and parameters. -/
def traitBody (go : Reader) : Parser Unit := do
  if ← punct? [':'] then boundsUntil go atTraitBody
  discard <| whereClause go
  within .brace do
    discard <| innerAttributes go
    discard <| repeatToEnd (traitMember go)

/-- A trait, or a name for a sum of bounds. -/
def traitItem (go : Reader) : Parser Item := do
  discard visibility
  let unchecked ← keyword? .kwUnsafe
  let auto ← name? "auto"
  keyword .kwTrait
  discard ident
  discard <| generics go
  if !unchecked && !auto && atPunct ['='] (← get) then
    punct ['=']
    boundsUntil go fun ts => atKeyword .kwWhere ts || atPunct [';'] ts
    discard <| whereClause go
    punct [';']
  else traitBody go
  return .other

/-! ## Foreign items -/

def foreignStatic (go : Reader) : Parser Unit := do
  if !(← keyword? .kwUnsafe) then discard <| name? "safe"
  keyword .kwStatic
  discard <| keyword? .kwMut
  discard ident
  punct [':']
  discard <| go (.type true)
  if ← punct? ['='] then discard <| expression go true
  punct [';']

def foreignItem (go : Reader) : Parser Unit := do
  discard <| outerAttributes go
  let v ← visibility
  let ts ← get
  if atFunction true ts then discard <| method go true
  else if atKeyword .kwStatic ts ||
      ((atKeyword .kwUnsafe ts || atName "safe" ts) && atKeyword .kwStatic (ts.drop 1)) then
    foreignStatic go
  else if atKeyword .kwType ts then typeDeclaration go true true
  else if v = .inherited && atMacro ts then macroItem false
  else failure

def foreignModule (go : Reader) : Parser Item := do
  discard <| keyword? .kwUnsafe
  callingConvention
  within .brace do
    discard <| innerAttributes go
    discard <| repeatToEnd (foreignItem go)
  return .other

def externCrate : Parser Item := do
  discard visibility
  keyword .kwExtern
  keyword .kwCrate
  discard <| identOr [.kwSelf]
  if ← keyword? .kwAs then discard <| identOr [.kwUnderscore]
  punct [';']
  return .other

/-! ## Items -/

/-- An item with its outer attributes. -/
def anyItem (go : Reader) : Parser Item := do
  let attributes ← outerAttributes go
  go (.item attributes)

/-- A module, in this file or another. -/
def moduleItem (go : Reader) : Parser Item := do
  discard visibility
  discard <| keyword? .kwUnsafe
  keyword .kwMod
  let name ← identOr [.kwTry]
  if ← punct? [';'] then return .module name none
  let items ← within .brace do
    discard <| innerAttributes go
    repeatToEnd (anyItem go)
  return .module name (some items)

/-- An item whose outer attributes have been read. What it is shows after its visibility. -/
def item (go : Reader) (attributes : List Attribute) : Parser Item := do
  match visibility (← get) with
  | none => failure
  | some (v, ts) =>
    let second := ts.drop 1
    if atFunction false ts then functionItem go
    else if atKeyword .kwExtern ts then
      if atKeyword .kwCrate second then externCrate else foreignModule go
    else if atKeyword .kwUse ts then useItem go
    else if atKeyword .kwStatic ts then staticItem go
    else if atKeyword .kwConst ts then
      discard visibility
      discard <| constant go
      return .other
    else if atKeyword .kwUnsafe ts then
      if atKeyword .kwTrait second || (atName "auto" second && atKeyword .kwTrait (second.drop 1)) then
        traitItem go
      else if atKeyword .kwImpl second then implItem go
      else if atKeyword .kwExtern second then foreignModule go
      else moduleItem go
    else if atKeyword .kwMod ts then moduleItem go
    else if atKeyword .kwType ts then
      discard visibility
      typeDeclaration go true false
      return .other
    else if atKeyword .kwStruct ts then structItem go attributes
    else if atKeyword .kwEnum ts then enumItem go
    else if atName "union" ts && atIdent second then unionItem go
    else if atKeyword .kwTrait ts || (atName "auto" ts && atKeyword .kwTrait second) then traitItem go
    else if atKeyword .kwImpl ts || (atName "default" ts && !atPunct ['!'] second) then implItem go
    else if atKeyword .kwMacro ts then
      set ts
      macroDeclaration
      return .other
    else if v = .inherited && atMacro ts then
      macroItem true
      return .other
    else failure

end TypedId.Grammar
