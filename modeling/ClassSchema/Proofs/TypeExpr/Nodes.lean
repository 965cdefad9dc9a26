import ClassSchema.Artifact.Signature
import ClassSchema.Proofs.Text.Sorted
import ClassSchema.Proofs.TypeExpr.Fill

/-! # The nodes of a type, in order

All that is listed of a type is listed in the order of its nodes, each of which stands before its
arguments. A walk with a stack of the types that are still to come meets them in this order, and a
place in a type stays the same when its placeholders are given candidates. -/

namespace ClassSchema.TypeExpr

/-- The arguments of a container; no other type has any. -/
def arguments : TypeExpr → List TypeExpr
  | .composite _ args _ => args
  | _ => []

mutual

/-- The expression and all that stands in it, each before its arguments. -/
def nodes : TypeExpr → List TypeExpr
  | .composite base args source => .composite base args source :: nodesIn args
  | t => [t]

/-- The nodes of several types, one after the other. -/
def nodesIn : List TypeExpr → List TypeExpr
  | [] => []
  | t :: ts => nodes t ++ nodesIn ts

end

/-- A type comes first, and then what stands in its arguments. -/
theorem nodes_eq (t : TypeExpr) : t.nodes = t :: nodesIn t.arguments := by
  cases t <;> rfl

/-- The nodes of several types are listed type by type. -/
theorem nodesIn_eq (ts : List TypeExpr) : nodesIn ts = ts.flatMap nodes := by
  induction ts with
  | nil => rfl
  | cons t ts ih => rw [nodesIn, List.flatMap_cons, ih]

theorem nodesIn_append (ts us : List TypeExpr) : nodesIn (ts ++ us) = nodesIn ts ++ nodesIn us := by
  rw [nodesIn_eq, nodesIn_eq, nodesIn_eq, List.flatMap_append]

/-! ## What is listed of the nodes -/

/-- The candidates that a placeholder has itself. -/
def ownCandidates : TypeExpr → List String
  | .placeholder _ cs _ => cs
  | _ => []

/-- The type variable that a placeholder becomes. -/
def typeVariable? : TypeExpr → Option String
  | .placeholder index _ _ => some (variableName index)
  | _ => none

mutual

/-- The candidates of a type are those of its nodes, in order. -/
theorem candidates_eq (t : TypeExpr) : t.candidates = t.nodes.flatMap ownCandidates := by
  cases t with
  | placeholder index cs source => exact (List.append_nil cs).symm
  | composite base args source =>
      rw [candidates, nodes, List.flatMap_cons, candidatesIn_eq args]
      rfl
  | _ => rfl

theorem candidatesIn_eq (ts : List TypeExpr) :
    candidatesIn ts = (nodesIn ts).flatMap ownCandidates := by
  cases ts with
  | nil => rfl
  | cons t ts =>
      rw [candidatesIn, nodesIn, List.flatMap_append, candidates_eq t, candidatesIn_eq ts]

end

mutual

/-- The type variables of a type are those of its nodes, in order. -/
theorem typeVariables_eq (t : TypeExpr) : t.typeVariables = t.nodes.filterMap typeVariable? := by
  cases t with
  | composite base args source =>
      rw [typeVariables, nodes, List.filterMap_cons, typeVariablesIn_eq args]
      rfl
  | _ => rfl

theorem typeVariablesIn_eq (ts : List TypeExpr) :
    typeVariablesIn ts = (nodesIn ts).filterMap typeVariable? := by
  cases ts with
  | nil => rfl
  | cons t ts =>
      rw [typeVariablesIn, nodesIn, List.filterMap_append, typeVariables_eq t,
        typeVariablesIn_eq ts]

end

/-- So it is for several types. -/
theorem flatMap_typeVariables (types : List TypeExpr) :
    types.flatMap typeVariables = (nodesIn types).filterMap typeVariable? := by
  rw [nodesIn_eq, List.filterMap_flatMap]
  exact List.flatMap_congr fun t _ => t.typeVariables_eq

/-! ## Walking with a stack -/

/-- Takes down the type variable of a placeholder, unless it was met before. -/
def note (met : List String) (t : TypeExpr) : List String :=
  match t.typeVariable? with
  | some v => if v ∈ met then met else met ++ [v]
  | none => met

/-- The type variables that are met from a stack on, after those in `met`. The type on top is
replaced by its arguments. -/
def walk (met : List String) : (stack : List TypeExpr) → List String
  | [] => met
  | t :: stack => walk (note met t) (t.arguments ++ stack)
termination_by stack => (nodesIn stack).length
decreasing_by
  rw [nodesIn_append, nodesIn, nodes_eq, List.length_append, List.length_append, List.length_cons]
  omega

/-- The walk visits the nodes in their order. -/
theorem walk_eq_foldl (met : List String) (stack : List TypeExpr) :
    walk met stack = (nodesIn stack).foldl note met := by
  fun_induction walk met stack with
  | case1 met => rfl
  | case2 met t stack ih =>
      rw [ih, nodesIn_append, nodesIn, nodes_eq t, List.cons_append, List.foldl_cons]

/-- The type variables of a method are found by a walk through all of its types. -/
theorem typeVariables_eq_walk (types : List TypeExpr) :
    Artifact.typeVariables types = walk [] types := by
  rw [Artifact.typeVariables, flatMap_typeVariables, firstOccurrences, List.foldl_filterMap,
    walk_eq_foldl]
  congr 1
  funext met t
  rw [note]
  cases t.typeVariable? <;> rfl

/-! ## Places -/

/-- What stands at a place, given by the numbers of the arguments that lead to it. -/
def at? : (place : List Nat) → TypeExpr → Option TypeExpr
  | [], t => some t
  | i :: place, t => t.arguments[i]?.bind (at? place)

section Fill

variable (defaults : List String)

/-- The arguments are given candidates one by one. -/
theorem fillAll_eq_map (ts : List TypeExpr) : fillAll defaults ts = ts.map (fill defaults) := by
  induction ts with
  | nil => rfl
  | cons t ts ih => rw [fillAll, List.map_cons, ih]

/-- The arguments of a type afterwards. -/
theorem arguments_fill (t : TypeExpr) :
    (t.fill defaults).arguments = t.arguments.map (fill defaults) := by
  cases t with
  | composite base args source => exact fillAll_eq_map defaults args
  | _ => rfl

/-- What stood at a place is still there, with candidates for its placeholders. -/
theorem at?_fill (place : List Nat) (t : TypeExpr) :
    (t.fill defaults).at? place = (t.at? place).map (fill defaults) := by
  induction place generalizing t with
  | nil => rfl
  | cons i place ih =>
      rw [at?, at?, arguments_fill, List.getElem?_map]
      cases t.arguments[i]? with
      | none => rfl
      | some u => exact ih u

/-- Placeholders come from placeholders with the same index and text. -/
theorem fill_eq_placeholder {t : TypeExpr} {index : Option Nat} {given : List String}
    {source : String} : t.fill defaults = .placeholder index given source ↔
      ∃ own, t = .placeholder index own source ∧ given = orDefaults defaults own := by
  cases t with
  | placeholder i own s =>
      rw [fill, placeholder.injEq]
      constructor
      · rintro ⟨rfl, rfl, rfl⟩
        exact ⟨own, rfl, rfl⟩
      · rintro ⟨own', heq, rfl⟩
        cases heq
        exact ⟨rfl, rfl, rfl⟩
  | _ => simp [fill]

end Fill

end ClassSchema.TypeExpr
