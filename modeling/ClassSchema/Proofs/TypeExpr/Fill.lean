import Mathlib.Data.List.Basic
import ClassSchema.TypeExpr.Render

/-! # Giving candidates to placeholders

To give candidates to the placeholders of a type changes neither its text in any language nor
anything else that is asked of it. What stands anywhere in a type is given by a relation, to which
the lists of class names, of type variables and of candidates are compared. -/

namespace ClassSchema.TypeExpr

/-- `s` stands in `t`, at any depth. -/
inductive Within (s : TypeExpr) : TypeExpr → Prop
  | self : Within s s
  | argument {base : String} {args : List TypeExpr} {source : String} {t : TypeExpr}
      (mem : t ∈ args) (h : Within s t) : Within s (.composite base args source)

/-- In a container stand the container and what stands in its arguments. -/
theorem within_composite {s : TypeExpr} {base source : String} {args : List TypeExpr} :
    s.Within (.composite base args source) ↔
      s = .composite base args source ∨ ∃ t ∈ args, s.Within t := by
  constructor
  · intro h
    cases h with
    | self => exact .inl rfl
    | argument ht h => exact .inr ⟨_, ht, h⟩
  · rintro (rfl | ⟨t, ht, h⟩)
    · exact .self
    · exact .argument ht h

theorem Within.trans {s t u : TypeExpr} (hs : s.Within t) (ht : t.Within u) : s.Within u := by
  induction ht with
  | self => exact hs
  | argument hmem _ ih => exact .argument hmem ih

/-- What has no arguments holds nothing but itself. -/
theorem Within.eq_of_leaf {s t : TypeExpr} (h : s.Within t)
    (ht : ∀ base args source, t ≠ .composite base args source) : s = t := by
  cases h with
  | self => rfl
  | argument => exact absurd rfl (ht _ _ _)

/-! ## What is listed of a type -/

mutual

/-- The class names of a type are those of the references in it. -/
theorem mem_classNames (t : TypeExpr) {name : String} :
    name ∈ t.classNames ↔
      ∃ isConst pointer source, (reference name isConst pointer source).Within t := by
  cases t with
  | reference c isConst pointer source =>
      rw [classNames, List.mem_singleton]
      constructor
      · rintro rfl
        exact ⟨isConst, pointer, source, .self⟩
      · rintro ⟨_, _, _, h⟩
        cases h.eq_of_leaf nofun
        rfl
  | composite base args source =>
      rw [classNames, mem_classNamesIn args]
      simp [within_composite]
  | _ =>
      rw [classNames]
      · refine iff_of_false List.not_mem_nil ?_
        rintro ⟨_, _, _, h⟩
        cases h.eq_of_leaf nofun
      all_goals nofun

theorem mem_classNamesIn (ts : List TypeExpr) {name : String} :
    name ∈ classNamesIn ts ↔
      ∃ isConst pointer source, ∃ t ∈ ts, (reference name isConst pointer source).Within t := by
  cases ts with
  | nil => simp [classNamesIn]
  | cons t ts =>
      rw [classNamesIn, List.mem_append, mem_classNames t, mem_classNamesIn ts]
      simp [exists_or]

end

mutual

/-- The type variables of a type are those of the placeholders in it. -/
theorem mem_typeVariables (t : TypeExpr) {v : String} :
    v ∈ t.typeVariables ↔
      ∃ index cs source, (placeholder index cs source).Within t ∧ variableName index = v := by
  cases t with
  | placeholder index cs source =>
      rw [typeVariables, List.mem_singleton]
      constructor
      · rintro rfl
        exact ⟨index, cs, source, .self, rfl⟩
      · rintro ⟨_, _, _, h, rfl⟩
        cases h.eq_of_leaf nofun
        rfl
  | composite base args source =>
      rw [typeVariables, mem_typeVariablesIn args]
      simp [within_composite]
  | _ =>
      rw [typeVariables]
      · refine iff_of_false List.not_mem_nil ?_
        rintro ⟨_, _, _, h, -⟩
        cases h.eq_of_leaf nofun
      all_goals nofun

theorem mem_typeVariablesIn (ts : List TypeExpr) {v : String} :
    v ∈ typeVariablesIn ts ↔
      ∃ index cs source, (∃ t ∈ ts, (placeholder index cs source).Within t) ∧
        variableName index = v := by
  cases ts with
  | nil => simp [typeVariablesIn]
  | cons t ts =>
      rw [typeVariablesIn, List.mem_append, mem_typeVariables t, mem_typeVariablesIn ts]
      simp [or_and_right, exists_or]

end

/-- A placeholder stands in the type, at any depth. -/
def HoldsPlaceholder (t : TypeExpr) : Prop := ∃ s : TypeExpr, s.Within t ∧ s.isPlaceholder = true

/-- The flag says whether there is a placeholder at any depth. -/
theorem hasPlaceholder_iff {t : TypeExpr} : t.hasPlaceholder = true ↔ t.HoldsPlaceholder := by
  rw [hasPlaceholder, Bool.not_eq_true', List.isEmpty_eq_false_iff_exists_mem]
  constructor
  · rintro ⟨v, hv⟩
    obtain ⟨index, cs, source, h, -⟩ := (mem_typeVariables t).mp hv
    exact ⟨_, h, rfl⟩
  · rintro ⟨s, h, hs⟩
    cases s with
    | placeholder index cs source =>
        exact ⟨_, (mem_typeVariables t).mpr ⟨index, cs, source, h, rfl⟩⟩
    | _ => cases hs

/-! ## What stays the same -/

variable (defaults : List String)

/-- A reference stays one, and nothing becomes one. -/
theorem isReference_fill (t : TypeExpr) : (t.fill defaults).isReference = t.isReference := by
  cases t <;> rfl

/-- The class of a reference stays. -/
theorem className?_fill (t : TypeExpr) : (t.fill defaults).className? = t.className? := by
  cases t <;> rfl

/-- The kind of value that a type has as JSON stays. -/
theorem jsonKind?_fill (t : TypeExpr) : (t.fill defaults).jsonKind? = t.jsonKind? := by
  cases t <;> rfl

/-- No argument is lost. -/
theorem length_fillAll (ts : List TypeExpr) : (fillAll defaults ts).length = ts.length := by
  induction ts with
  | nil => rfl
  | cons t ts ih => rw [fillAll, List.length_cons, List.length_cons, ih]

mutual

/-- The class names in a type stay. -/
theorem classNames_fill (t : TypeExpr) : (t.fill defaults).classNames = t.classNames := by
  cases t with
  | composite base args source => rw [fill, classNames, classNames, classNamesIn_fillAll args]
  | _ => rfl

theorem classNamesIn_fillAll (ts : List TypeExpr) :
    classNamesIn (fillAll defaults ts) = classNamesIn ts := by
  cases ts with
  | nil => rfl
  | cons t ts =>
      rw [fillAll, classNamesIn, classNamesIn, classNames_fill t, classNamesIn_fillAll ts]

end

mutual

/-- The type variables of a type stay. -/
theorem typeVariables_fill (t : TypeExpr) : (t.fill defaults).typeVariables = t.typeVariables := by
  cases t with
  | composite base args source =>
      rw [fill, typeVariables, typeVariables, typeVariablesIn_fillAll args]
  | _ => rfl

theorem typeVariablesIn_fillAll (ts : List TypeExpr) :
    typeVariablesIn (fillAll defaults ts) = typeVariablesIn ts := by
  cases ts with
  | nil => rfl
  | cons t ts =>
      rw [fillAll, typeVariablesIn, typeVariablesIn, typeVariables_fill t,
        typeVariablesIn_fillAll ts]

end

/-- To give candidates to a placeholder does not remove it. -/
theorem hasPlaceholder_fill (t : TypeExpr) :
    (t.fill defaults).hasPlaceholder = t.hasPlaceholder := by
  rw [hasPlaceholder, hasPlaceholder, typeVariables_fill]

section Render

variable (language : Language) (ns : String)

mutual

/-- The text of a type in any language stays. -/
theorem render_fill (t : TypeExpr) :
    (t.fill defaults).render language ns = t.render language ns := by
  cases t with
  | composite base args source =>
      rw [fill, render, render, length_fillAll, renderAll_fillAll args]
  | _ => rfl

/-- So do the texts of several types. -/
theorem renderAll_fillAll (ts : List TypeExpr) :
    renderAll language ns (fillAll defaults ts) = renderAll language ns ts := by
  cases ts with
  | nil => rfl
  | cons t ts => rw [fillAll, renderAll, renderAll, render_fill t, renderAll_fillAll ts]

end

end Render

mutual

/-- Without placeholders nothing is filled. -/
theorem fill_eq_self (t : TypeExpr) (h : t.typeVariables = []) : t.fill defaults = t := by
  cases t with
  | placeholder index cs source => cases h
  | composite base args source => rw [fill, fillAll_eq_self args h]
  | _ => rfl

/-- So it is for several types. -/
theorem fillAll_eq_self (ts : List TypeExpr) (h : typeVariablesIn ts = []) :
    fillAll defaults ts = ts := by
  cases ts with
  | nil => rfl
  | cons t ts =>
      obtain ⟨ht, hts⟩ := List.append_eq_nil_iff.mp h
      rw [fillAll, fill_eq_self t ht, fillAll_eq_self ts hts]

end

/-- A type without placeholders stays as it is. -/
theorem fill_of_not_hasPlaceholder {t : TypeExpr} (h : t.hasPlaceholder = false) :
    t.fill defaults = t :=
  fill_eq_self defaults t (by simpa [hasPlaceholder] using h)

/-! ## Candidates of the placeholders, one by one -/

mutual

/-- The candidates of each placeholder in the expression, from left to right. -/
def candidateLists : TypeExpr → List (List String)
  | .placeholder _ cs _ => [cs]
  | .composite _ args _ => candidateListsIn args
  | _ => []

/-- The lists of several types, one after the other. -/
def candidateListsIn : List TypeExpr → List (List String)
  | [] => []
  | t :: ts => candidateLists t ++ candidateListsIn ts

end

mutual

/-- All candidates of a type, list by list. -/
theorem flatten_candidateLists (t : TypeExpr) : t.candidateLists.flatten = t.candidates := by
  cases t with
  | placeholder index cs source => exact List.append_nil cs
  | composite base args source =>
      rw [candidateLists, candidates, flatten_candidateListsIn args]
  | _ => rfl

theorem flatten_candidateListsIn (ts : List TypeExpr) :
    (candidateListsIn ts).flatten = candidatesIn ts := by
  cases ts with
  | nil => rfl
  | cons t ts =>
      rw [candidateListsIn, candidatesIn, List.flatten_append, flatten_candidateLists t,
        flatten_candidateListsIn ts]

end

/-- What a placeholder is given if it has these candidates. -/
def orDefaults (cs : List String) : List String := if cs.isEmpty then defaults else cs

mutual

/-- The defaults are given to the placeholders without candidates. -/
theorem candidateLists_fill (t : TypeExpr) :
    (t.fill defaults).candidateLists = t.candidateLists.map (orDefaults defaults) := by
  cases t with
  | composite base args source =>
      rw [fill, candidateLists, candidateLists, candidateListsIn_fillAll args]
  | _ => rfl

theorem candidateListsIn_fillAll (ts : List TypeExpr) :
    candidateListsIn (fillAll defaults ts) = (candidateListsIn ts).map (orDefaults defaults) := by
  cases ts with
  | nil => rfl
  | cons t ts =>
      rw [fillAll, candidateListsIn, candidateListsIn, candidateLists_fill t,
        candidateListsIn_fillAll ts, List.map_append]

end

/-- The candidates of a type afterwards: the defaults once for each placeholder without candidates.
-/
theorem candidates_fill (t : TypeExpr) :
    (t.fill defaults).candidates = t.candidateLists.flatMap (orDefaults defaults) := by
  rw [← flatten_candidateLists, candidateLists_fill, List.flatMap_def]

mutual

/-- The lists of a type are those of the placeholders in it. -/
theorem mem_candidateLists (t : TypeExpr) {cs : List String} :
    cs ∈ t.candidateLists ↔ ∃ index source, (placeholder index cs source).Within t := by
  cases t with
  | placeholder index cs source =>
      rw [candidateLists, List.mem_singleton]
      constructor
      · rintro rfl
        exact ⟨index, source, .self⟩
      · rintro ⟨_, _, h⟩
        cases h.eq_of_leaf nofun
        rfl
  | composite base args source =>
      rw [candidateLists, mem_candidateListsIn args]
      simp [within_composite]
  | _ =>
      rw [candidateLists]
      · refine iff_of_false List.not_mem_nil ?_
        rintro ⟨_, _, h⟩
        cases h.eq_of_leaf nofun
      all_goals nofun

theorem mem_candidateListsIn (ts : List TypeExpr) {cs : List String} :
    cs ∈ candidateListsIn ts ↔
      ∃ index source, ∃ t ∈ ts, (placeholder index cs source).Within t := by
  cases ts with
  | nil => simp [candidateListsIn]
  | cons t ts =>
      rw [candidateListsIn, List.mem_append, mem_candidateLists t, mem_candidateListsIn ts]
      simp [exists_or]

end

/-- A type without placeholders has no lists. -/
theorem candidateLists_of_not_hasPlaceholder {t : TypeExpr} (h : t.hasPlaceholder = false) :
    t.candidateLists = [] := by
  rw [List.eq_nil_iff_forall_not_mem]
  intro cs hcs
  obtain ⟨index, source, hwithin⟩ := (mem_candidateLists t).mp hcs
  rw [hasPlaceholder_iff.mpr ⟨_, hwithin, rfl⟩] at h
  cases h

end ClassSchema.TypeExpr
