import TypedId.Identifier.Basic

/-!
Lists of identifiers: sorting, dropping repetitions, collecting into a set, and searching by halves.
-/
namespace TypedId.Identifier

def sort (ids : List Identifier) : List Identifier := ids.mergeSort atMost

/-- The values without those that equal the one before them. -/
def dropRepeated : List Identifier → List Identifier
  | [] => []
  | [a] => [a]
  | a :: b :: rest => if equal a b then dropRepeated (a :: rest) else a :: dropRepeated (b :: rest)

/-- An ascending list with the value at its place, unless one that compares equal is there already. -/
def insertOrdered (a : Identifier) : List Identifier → List Identifier
  | [] => [a]
  | b :: rest =>
    match order a b with
    | .lt => a :: b :: rest
    | .eq => b :: rest
    | .gt => b :: insertOrdered a rest

/-- The set of the values, kept in order. -/
def orderedSet (ids : List Identifier) : List Identifier :=
  ids.foldl (fun set a => insertOrdered a set) []

/-- A hashed set with the value, unless an equal one with the same hash is there already. -/
def insertHashed (a : Identifier) (set : List Identifier) : List Identifier :=
  if set.any fun b => hashInput a == hashInput b && equal a b then set else a :: set

/-- How many values are in the hashed set of them. -/
def distinctCount (ids : List Identifier) : Nat :=
  (ids.foldl (fun set a => insertHashed a set) []).length

/-- What a search answers: a place where the value is, or the place where it would keep the list in
order. -/
inductive SearchResult where
  | found (index : Nat)
  | insertAt (index : Nat)
  deriving DecidableEq, Repr

/-- The place where the search ends, among `size` places from `base`. -/
def narrow (ids : Array Identifier) (target : Identifier) (base size : Nat) : Nat :=
  if _h : 1 < size then
    let half := size / 2
    let middle := base + half
    let goesOn : Bool := match ids[middle]? with
      | some a => order a target != .gt
      | none => false
    narrow ids target (if goesOn then middle else base) (size - half)
  else base
termination_by size
decreasing_by omega

/-- Searches an ascending list by halves. -/
def search (ids : List Identifier) (target : Identifier) : SearchResult :=
  let base := narrow ids.toArray target 0 ids.length
  match ids[base]? with
  | none => .insertAt 0
  | some a =>
    match order a target with
    | .eq => .found base
    | .lt => .insertAt (base + 1)
    | .gt => .insertAt base

end TypedId.Identifier
