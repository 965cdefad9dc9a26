/-! # Collections in increasing order of their names

Names are compared character by character by code point, which is also the order of their
encoded bytes. -/

namespace ClassSchema

/-- Adds a name to an increasing list of names, once. -/
def insertName (n : String) : List String → List String
  | [] => [n]
  | m :: ms =>
      if n < m then n :: m :: ms
      else if n = m then m :: ms
      else m :: insertName n ms

/-- The increasing list of the given names, without repetition. -/
def nameSet (names : List String) : List String :=
  names.foldl (fun set n => insertName n set) []

/-- Sets the value under a key of an increasing association list. -/
def setEntry {α : Type} (key : String) (value : α) : List (String × α) → List (String × α)
  | [] => [(key, value)]
  | (k, v) :: rest =>
      if key < k then (key, value) :: (k, v) :: rest
      else if key = k then (key, value) :: rest
      else (k, v) :: setEntry key value rest

/-- Places an element in a list that increases in `name`, after those with a smaller name. -/
def insertBy {α : Type} (name : α → String) (a : α) : List α → List α
  | [] => [a]
  | b :: bs => if name a < name b then a :: b :: bs else b :: insertBy name a bs

def sortBy {α : Type} (name : α → String) (as : List α) : List α :=
  as.foldl (fun sorted a => insertBy name a sorted) []

/-- The elements in order of their first occurrence. -/
def firstOccurrences (names : List String) : List String :=
  names.foldl (fun seen n => if n ∈ seen then seen else seen ++ [n]) []

end ClassSchema
