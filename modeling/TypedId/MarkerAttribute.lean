import TypedId.Grammar.Source

/-!
The marker attribute itself. It hands the item it stands on back as it is; where it is misused, errors
come before the item.
-/
namespace TypedId

/-- How the marker is misused. -/
inductive Misuse where
  | argumentsGiven
  | notStruct
  | notItem
  deriving DecidableEq, Repr

/-- What is said about the misuse. Of tokens that are no item, what the reader of items has to say: `first`
and perhaps `more`. -/
def Misuse.texts (first : String) (more : List String) : Misuse → List String
  | argumentsGiven => ["`#[identifier]` takes no arguments"]
  | notStruct => ["`#[identifier]` can only be applied to structs"]
  | notItem => first :: more

/-- What is wrong with the marker on this item, if anything is. -/
def misuse? (arguments item : List Token) : Option Misuse :=
  if !arguments.isEmpty then some .argumentsGiven
  else match Item.ofTokens? item with
    | some (.struct _) => none
    | some _ => some .notStruct
    | none => some .notItem

/-- The tokens of a compile error with this text. -/
def compileError (text : String) : List Token :=
  let core : Word := .ident ⟨false, "core", .refl true⟩
  let compileError : Word := .ident ⟨false, "compile_error", .refl true⟩
  [.punct ':' true, .punct ':' false, .word core, .punct ':' true, .punct ':' false,
    .word compileError, .punct '!' false,
    .group .brace [.literal ⟨.string, String.ofList (Text.literalText text.toList)⟩]]

/-- What the marker makes of an item, when the reader of items says `first` and `more` of tokens that are
none. -/
def handBack (first : String) (more : List String) (arguments item : List Token) : List Token :=
  match misuse? arguments item with
  | some misuse => (misuse.texts first more).flatMap compileError ++ item
  | none => item

/-- What the marker makes of an item. -/
def applyMarker (arguments item : List Token) : List Token :=
  handBack "expected one item" [] arguments item

end TypedId
