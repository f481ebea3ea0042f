import TypedId.Grammar.Basic
import TypedId.Syntax

/-!
The grammar is recursive through a few categories of phrases: a type holds paths, a path types, a type
expressions, and so on. Each module of the grammar says how the phrases of one kind are read, given a way
to read every category; the modules are closed into one recogniser at the end.
-/
namespace TypedId.Grammar

/-- What a bound is: a trait, a lifetime, a list of captured names, or a trait with a `const` mark. -/
inductive BoundKind where
  | trait | lifetime | captures | constTrait
  deriving DecidableEq

/-- What a pattern is, as far as the place where it stands asks. -/
inductive PatternKind where
  | rest | openRange | other
  deriving DecidableEq

/-- What an expression is, as far as what may follow it depends on it. A `block` ends a statement
without a semicolon; an `invocation` is a macro with its brackets. -/
inductive ExprKind where
  | block | range | comparison | invocation (brackets : Delimiter) | other
  deriving DecidableEq

/-- How strongly an operator binds; a higher number binds more. -/
abbrev Precedence := Nat

/-- The phrases through which the grammar is recursive, with what reading one answers. -/
inductive Category : Type → Type where
  /-- A path; inside an expression its arguments need `::` before them. -/
  | path (inExpr : Bool) : Category Path
  /-- A type; with `plus` it may be a sum of bounds. -/
  | type (plus : Bool) : Category Ty
  /-- One bound; captured names and `const` marks are allowed in some places. -/
  | bound (captures marks : Bool) : Category BoundKind
  /-- A pattern without alternatives. -/
  | pattern : Category PatternKind
  /-- An operand with its prefix and postfix operators; `structs` allows a struct in braces. -/
  | operand (structs : Bool) : Category ExprKind
  /-- The operators after an operand, none of them weaker than `floor`. -/
  | operators (left : ExprKind) (structs : Bool) (floor : Precedence) : Category ExprKind
  /-- The right side of an operator. -/
  | rightSide (structs : Bool) (operator : Precedence) : Category ExprKind
  /-- An expression at the place of a statement, which a closing brace may end. -/
  | early : Category ExprKind
  /-- Statements up to the end of their braces. -/
  | statements : Category Unit
  /-- An attribute after its `#` or `#!`, inside its brackets. -/
  | attribute : Category Attribute
  /-- An item whose outer attributes have been read. -/
  | item (attributes : List Attribute) : Category Item
  /-- What a `use` item brings in; nothing if a list in it begins an entry at the root of names. -/
  | useTree (rootAllowed : Bool) : Category (Option UseTree)

/-- A way to read every category. -/
abbrev Reader := {α : Type} → Category α → Parser α

/-- The alternatives that begin a type and a path: words that are no reserved word, or one of these. -/
def pathKeywords : List Keyword := [.kwSuper, .kwSelf, .kwSelfType, .kwCrate]

/-- A path may begin here by a name. -/
def atPathName (ts : List Token) : Bool := atIdent ts || atAnyKeyword pathKeywords ts

def atPathSep : List Token → Bool := atPunct [':', ':']

def atColon (ts : List Token) : Bool := atPunct [':'] ts && !atPathSep ts

def atDot (ts : List Token) : Bool := atPunct ['.'] ts && !atPunct ['.', '.'] ts

/-! ## Plain paths, macros and attributes -/

/-- At most `bound` names joined by `::`, without arguments. -/
def plainNamesUpTo : Nat → Parser (List Word)
  | 0 => failure
  | bound + 1 => do
    require atPathName
    let name ← word
    if ← punct? [':', ':'] then
      let rest ← plainNamesUpTo bound
      return name :: rest
    else return [name]

def plainPath : Parser PlainPath := do
  let leading ← punct? [':', ':']
  let names ← plainNamesUpTo ((← get).length + 1)
  return ⟨leading, names⟩

/-- An attribute inside its brackets: a path, perhaps with a group or a value after it. -/
def attributeBody (go : Reader) : Parser Attribute := do
  let path ← if atKeyword .kwUnsafe (← get) then
      let w ← word
      pure (⟨false, [w]⟩ : PlainPath)
    else plainPath
  match ← get with
  | .group _ content :: rest =>
    set rest
    return ⟨path, .list content⟩
  | ts =>
    if atPunct ['='] ts && !atPunct ['=', '='] ts && !atPunct ['=', '>'] ts then
      punct ['=']
      let value ← get
      match literal value with
      | some ((), []) => set ([] : List Token)
      | _ =>
        if atPunct ['#'] value && atGroup .bracket (value.drop 1) then failure
        let left ← go (.operand true)
        discard <| go (.operators left true 0)
      return ⟨path, .value⟩
    else return ⟨path, .none⟩

def outerAttributes (go : Reader) : Parser (List Attribute) :=
  repeatWhile (atPunct ['#']) do
    punct ['#']
    within .bracket (go .attribute)

def atInnerAttribute (ts : List Token) : Bool := atPunct ['#'] ts && atPunct ['!'] (ts.drop 1)

def innerAttributes (go : Reader) : Parser (List Attribute) :=
  repeatWhile atInnerAttribute do
    punct ['#']
    punct ['!']
    within .bracket (go .attribute)

def expression (go : Reader) (structs : Bool) : Parser ExprKind := do
  let left ← go (.operand structs)
  go (.operators left structs 0)

def block (go : Reader) : Parser Unit := within .brace (go .statements)

/-- Statements in braces, with inner attributes first. -/
def body (go : Reader) : Parser Unit :=
  within .brace do
    discard <| innerAttributes go
    go .statements

end TypedId.Grammar
