/-!
The reserved words of the scanned language. A reserved word is never an identifier by itself; most of them
become one when written raw.
-/
namespace TypedId

/-- A reserved word. The lone underscore counts as one. -/
inductive Keyword where
  | kwUnderscore | kwSelfType | kwAbstract | kwAs | kwAsync | kwAwait | kwBecome | kwBox
  | kwBreak | kwConst | kwContinue | kwCrate | kwDo | kwDyn | kwElse | kwEnum | kwExtern
  | kwFalse | kwFinal | kwFn | kwFor | kwIf | kwImpl | kwIn | kwLet | kwLoop | kwMacro | kwMatch
  | kwMod | kwMove | kwMut | kwOverride | kwPriv | kwPub | kwRef | kwReturn | kwSelf | kwStatic
  | kwStruct | kwSuper | kwTrait | kwTrue | kwTry | kwType | kwTypeof | kwUnsafe | kwUnsized
  | kwUse | kwVirtual | kwWhere | kwWhile | kwYield
  deriving DecidableEq, Repr

namespace Keyword

def all : List Keyword := [
  .kwUnderscore, .kwSelfType, .kwAbstract, .kwAs, .kwAsync, .kwAwait, .kwBecome, .kwBox,
  .kwBreak, .kwConst, .kwContinue, .kwCrate, .kwDo, .kwDyn, .kwElse, .kwEnum, .kwExtern,
  .kwFalse, .kwFinal, .kwFn, .kwFor, .kwIf, .kwImpl, .kwIn, .kwLet, .kwLoop, .kwMacro, .kwMatch,
  .kwMod, .kwMove, .kwMut, .kwOverride, .kwPriv, .kwPub, .kwRef, .kwReturn, .kwSelf, .kwStatic,
  .kwStruct, .kwSuper, .kwTrait, .kwTrue, .kwTry, .kwType, .kwTypeof, .kwUnsafe, .kwUnsized,
  .kwUse, .kwVirtual, .kwWhere, .kwWhile, .kwYield]

def spelling : Keyword → String
  | .kwUnderscore => "_"
  | .kwSelfType => "Self"
  | .kwAbstract => "abstract"
  | .kwAs => "as"
  | .kwAsync => "async"
  | .kwAwait => "await"
  | .kwBecome => "become"
  | .kwBox => "box"
  | .kwBreak => "break"
  | .kwConst => "const"
  | .kwContinue => "continue"
  | .kwCrate => "crate"
  | .kwDo => "do"
  | .kwDyn => "dyn"
  | .kwElse => "else"
  | .kwEnum => "enum"
  | .kwExtern => "extern"
  | .kwFalse => "false"
  | .kwFinal => "final"
  | .kwFn => "fn"
  | .kwFor => "for"
  | .kwIf => "if"
  | .kwImpl => "impl"
  | .kwIn => "in"
  | .kwLet => "let"
  | .kwLoop => "loop"
  | .kwMacro => "macro"
  | .kwMatch => "match"
  | .kwMod => "mod"
  | .kwMove => "move"
  | .kwMut => "mut"
  | .kwOverride => "override"
  | .kwPriv => "priv"
  | .kwPub => "pub"
  | .kwRef => "ref"
  | .kwReturn => "return"
  | .kwSelf => "self"
  | .kwStatic => "static"
  | .kwStruct => "struct"
  | .kwSuper => "super"
  | .kwTrait => "trait"
  | .kwTrue => "true"
  | .kwTry => "try"
  | .kwType => "type"
  | .kwTypeof => "typeof"
  | .kwUnsafe => "unsafe"
  | .kwUnsized => "unsized"
  | .kwUse => "use"
  | .kwVirtual => "virtual"
  | .kwWhere => "where"
  | .kwWhile => "while"
  | .kwYield => "yield"

/-- The reserved word with this spelling, if there is one. -/
def ofString? (s : String) : Option Keyword := all.find? fun k => k.spelling == s

/-- Written raw, the word becomes an identifier. -/
def hasRawForm : Keyword → Bool
  | .kwUnderscore | .kwSelf | .kwSelfType | .kwSuper | .kwCrate => false
  | _ => true

end Keyword

end TypedId
