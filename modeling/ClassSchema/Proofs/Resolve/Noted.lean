import Mathlib.Data.List.Nodup
import ClassSchema.ClassModel
import ClassSchema.Proofs.TypeExpr.Fill

/-! # What is noted of types

When a member is read, some things about its type are noted beside it: how values are stored, which
class is meant, and whether there is a placeholder. Later on placeholders get candidates, and what
was noted before stays as it is. Since candidates change nothing of what was asked, all of it is
still true of the types that are kept in the end. -/

namespace ClassSchema

/-- What is noted of a property is what its type says. -/
structure Property.Noted (p : Property) : Prop where
  jsonKind : p.jsonKind? = p.type.jsonKind?

/-- What is noted of an argument is what its type says. -/
structure Argument.Noted (a : Argument) : Prop where
  isTemplate : a.isTemplate = a.type.hasPlaceholder
  isReference : a.isReference = a.type.isReference
  className : a.className? = a.type.className?

/-- What is noted of a result is what its type says, and nothing is if there is no type. -/
structure Return.Noted (r : Return) : Prop where
  isTemplate : r.isTemplate = r.type.any TypeExpr.hasPlaceholder
  className : r.className? = r.type.bind TypeExpr.className?

/-- What is noted of an overload is what is noted of its result and of its arguments. -/
structure Overload.Noted (o : Overload) : Prop where
  returns : o.returns.Noted
  arguments : ∀ a ∈ o.arguments, a.Noted
  templateArguments :
    o.templateArguments = (o.arguments.filter Argument.isTemplate).map Argument.name
  isTemplate : o.isTemplate = (o.returns.isTemplate || !o.templateArguments.isEmpty)

/-- What is noted of a method is how many overloads it has. -/
structure Method.Noted (m : Method) : Prop where
  isOverloaded : m.isOverloaded = decide (1 < m.overloads.length)
  overloads : ∀ o ∈ m.overloads, o.Noted

/-! ## Candidates change nothing -/

section Fill

variable (defaults : List String)

/-- What is noted of a property is kept when it is filled, and still fits. -/
theorem Property.Noted.fill {p : Property} (h : p.Noted) : (p.fill defaults).Noted where
  jsonKind := h.jsonKind.trans (TypeExpr.jsonKind?_fill defaults p.type).symm

theorem Argument.Noted.fill {a : Argument} (h : a.Noted) : (a.fill defaults).Noted where
  isTemplate := h.isTemplate.trans (TypeExpr.hasPlaceholder_fill defaults a.type).symm
  isReference := h.isReference.trans (TypeExpr.isReference_fill defaults a.type).symm
  className := h.className.trans (TypeExpr.className?_fill defaults a.type).symm

theorem Return.Noted.fill {r : Return} (h : r.Noted) : (r.fill defaults).Noted where
  isTemplate := by
    refine h.isTemplate.trans ?_
    rw [Return.fill]
    cases r.type with
    | none => rfl
    | some t => exact (TypeExpr.hasPlaceholder_fill defaults t).symm
  className := by
    refine h.className.trans ?_
    rw [Return.fill]
    cases r.type with
    | none => rfl
    | some t => exact (TypeExpr.className?_fill defaults t).symm

/-- The arguments with placeholders are the same ones, and have the same names. -/
theorem Overload.Noted.fill {o : Overload} (h : o.Noted) : (o.fill defaults).Noted where
  returns := h.returns.fill defaults
  arguments := by
    intro a ha
    obtain ⟨b, hb, rfl⟩ := List.mem_map.mp ha
    exact (h.arguments b hb).fill defaults
  templateArguments := by
    refine h.templateArguments.trans ?_
    change _ = ((o.arguments.map (Argument.fill defaults)).filter _).map _
    rw [List.filter_map, List.map_map]
    rfl
  isTemplate := h.isTemplate

/-- The types of an overload get their candidates one by one. -/
theorem Overload.types_fill (o : Overload) :
    (o.fill defaults).types = o.types.map (TypeExpr.fill defaults) := by
  have hreturns : (o.returns.fill defaults).type.toList
      = o.returns.type.toList.map (TypeExpr.fill defaults) := by
    rw [Return.fill]
    cases o.returns.type <;> rfl
  rw [types, types, List.map_append, ← hreturns, List.map_map, fill, List.map_map]
  rfl

end Fill

/-! ## Templates -/

namespace Overload.Noted

variable {o : Overload}

/-- An overload is a template if there is a placeholder in one of its types. -/
theorem isTemplate_eq (h : o.Noted) : o.isTemplate = o.types.any TypeExpr.hasPlaceholder := by
  have hreturns : o.returns.isTemplate = o.returns.type.toList.any TypeExpr.hasPlaceholder := by
    rw [h.returns.isTemplate]
    cases o.returns.type with
    | none => rfl
    | some t => exact (Bool.or_false _).symm
  have harguments : (!o.templateArguments.isEmpty)
      = (o.arguments.map Argument.type).any TypeExpr.hasPlaceholder := by
    rw [Bool.eq_iff_iff, Bool.not_eq_true', h.templateArguments, List.isEmpty_map,
      List.isEmpty_eq_false_iff_exists_mem, List.any_map, List.any_eq_true]
    refine exists_congr fun a => ?_
    rw [List.mem_filter]
    refine and_congr_right fun ha => ?_
    rw [(h.arguments a ha).isTemplate]
    rfl
  rw [h.isTemplate, types, List.any_append, hreturns, harguments]

/-- There are no placeholders in the types of an overload that is no template. -/
theorem types_of_plain (h : o.Noted) (hplain : o.isTemplate = false) :
    ∀ t ∈ o.types, t.hasPlaceholder = false := by
  rw [h.isTemplate_eq] at hplain
  intro t ht
  exact Bool.eq_false_iff.mpr (List.any_eq_false.mp hplain t ht)

/-- So candidates are given to nothing in it. -/
theorem fill_eq_self (h : o.Noted) (hplain : o.isTemplate = false) (defaults : List String) :
    o.fill defaults = o := by
  have htypes : ∀ t ∈ o.types, t.fill defaults = t := fun t ht =>
    TypeExpr.fill_of_not_hasPlaceholder defaults (h.types_of_plain hplain t ht)
  have hreturns : o.returns.fill defaults = o.returns := by
    rw [Return.fill]
    cases hreturn : o.returns.type with
    | none =>
        rw [Option.map_none, ← hreturn]
    | some t =>
        rw [Option.map_some, htypes t (List.mem_append_left _ (by simp [hreturn])), ← hreturn]
  have harguments : o.arguments.map (Argument.fill defaults) = o.arguments.map id := by
    refine List.map_congr_left fun a ha => ?_
    rw [Argument.fill, htypes a.type (List.mem_append_right _ (List.mem_map_of_mem ha)), id]
  rw [Overload.fill, hreturns, harguments, List.map_id]

/-- The arguments with placeholders are listed in their order. -/
theorem templateArguments_sublist (h : o.Noted) :
    o.templateArguments.Sublist (o.arguments.map Argument.name) := by
  rw [h.templateArguments]
  exact List.filter_sublist.map Argument.name

/-- Names are unique, so an argument that is not listed has no placeholder. -/
theorem mem_templateArguments (h : o.Noted) (hnames : (o.arguments.map Argument.name).Nodup)
    {a : Argument} (ha : a ∈ o.arguments) :
    a.name ∈ o.templateArguments ↔ a.type.HoldsPlaceholder := by
  rw [← TypeExpr.hasPlaceholder_iff, ← (h.arguments a ha).isTemplate, h.templateArguments,
    List.mem_map]
  constructor
  · rintro ⟨b, hb, hname⟩
    obtain ⟨hmem, htemplate⟩ := List.mem_filter.mp hb
    obtain rfl := List.inj_on_of_nodup_map hnames hmem ha hname
    exact htemplate
  · intro htemplate
    exact ⟨a, List.mem_filter.mpr ⟨ha, htemplate⟩, rfl⟩

end Overload.Noted

end ClassSchema
