import ClassSchema.Resolve.Error
import ClassSchema.ClassModel
import ClassSchema.Proofs.Computation

/-! # Classes that differ in their language only

What a class is in one target language and in another: all is the same but the texts that are
written in the language, which are types, default and allowed values, and the values of further
entries of relations. Errors are the same but for the language that some of them name. -/

namespace ClassSchema

/-! ## Errors -/

/-- The error as it reads for another language. -/
def TypeExpr.Error.inLanguage (language : Language) : TypeExpr.Error → TypeExpr.Error
  | .unknownConstructor base _ => .unknownConstructor base language
  | e => e

/-- The errors differ at most in the language that they name. -/
def TypeExpr.Error.Alike (e e' : TypeExpr.Error) : Prop := ∀ l, e.inLanguage l = e'.inLanguage l

namespace Resolve

/-- The cause as it reads for another language. -/
def Cause.inLanguage (language : Language) : Cause → Cause
  | .type e => .type (e.inLanguage language)
  | cause => cause

/-- The causes differ at most in the language that they name. -/
def Cause.Alike (c c' : Cause) : Prop := ∀ l, c.inLanguage l = c'.inLanguage l

/-- The errors are about the same field of the same class. -/
structure Error.Alike (e e' : Error) : Prop where
  className : e.className = e'.className
  field : e.field = e'.field
  cause : e.cause.Alike e'.cause

end Resolve

/-! ## Members -/

/-- The type is not written in the language, and a default is there in both. -/
structure Property.Alike (p q : Property) : Prop where
  path : p.path = q.path
  type : p.type = q.type
  jsonKind : p.jsonKind? = q.jsonKind?
  default : p.default.isSome = q.default.isSome
  advancedSetter : p.advancedSetter = q.advancedSetter

/-- All is the same but the values of further entries. -/
structure Relation.Alike (r s : Relation) : Prop where
  name : r.name = s.name
  kind : r.kind = s.kind
  type : r.type = s.type
  declared : r.declared = s.declared
  targets : r.targets = s.targets
  cardinality : r.cardinality = s.cardinality
  deletePolicy : r.deletePolicy = s.deletePolicy
  subtypeOf : r.subtypeOf = s.subtypeOf
  inverse : r.inverse = s.inverse
  advancedSetter : r.advancedSetter = s.advancedSetter
  extraKeys : r.extra.map Prod.fst = s.extra.map Prod.fst

/-- What is noted of an argument is the same. -/
structure Argument.Alike (a b : Argument) : Prop where
  name : a.name = b.name
  type : a.type = b.type
  default : a.default.isSome = b.default.isSome
  isTemplate : a.isTemplate = b.isTemplate
  isReference : a.isReference = b.isReference
  className : a.className? = b.className?

/-- So is what is noted of a result. -/
structure Return.Alike (r s : Return) : Prop where
  type : r.type = s.type
  isTemplate : r.isTemplate = s.isTemplate
  className : r.className? = s.className?

/-- Arguments and results are alike, and the candidates are the same types. -/
structure Overload.Alike (o p : Overload) : Prop where
  description : o.description = p.description
  arguments : List.Forall₂ Argument.Alike o.arguments p.arguments
  returns : o.returns.Alike p.returns
  isStatic : o.isStatic = p.isStatic
  isConst : o.isConst = p.isConst
  isTemplate : o.isTemplate = p.isTemplate
  templateArguments : o.templateArguments = p.templateArguments
  candidates : o.candidates.map Candidate.type = p.candidates.map Candidate.type

/-- The overloads are alike one by one. -/
structure Method.Alike (m n : Method) : Prop where
  name : m.name = n.name
  description : m.description = n.description
  isOverloaded : m.isOverloaded = n.isOverloaded
  overloads : List.Forall₂ Overload.Alike m.overloads n.overloads

/-- The members are alike, and all else is the same. -/
structure ClassModel.Alike (c d : ClassModel) : Prop where
  name : c.name = d.name
  ns : c.ns = d.ns
  parent : c.parent = d.parent
  properties : List.Forall₂ Property.Alike c.properties d.properties
  relations : List.Forall₂ Relation.Alike c.relations d.relations
  methods : List.Forall₂ Method.Alike c.methods d.methods
  referenced : c.referenced = d.referenced
  uri : c.uri = d.uri
  templateTypes : c.templateTypes = d.templateTypes

/-! ## Lists of members -/

theorem flatMap_eq_of_forall₂ {α β : Type} {R : α → α → Prop} {f : α → List β}
    (hf : ∀ a b, R a b → f a = f b) {as bs : List α} (h : List.Forall₂ R as bs) :
    as.flatMap f = bs.flatMap f := by
  rw [List.flatMap_def, List.flatMap_def, map_eq_of_forall₂ hf h]

/-- The same arguments hold placeholders. -/
theorem templateNames_eq {as bs : List Argument} (h : List.Forall₂ Argument.Alike as bs) :
    (as.filter Argument.isTemplate).map Argument.name =
      (bs.filter Argument.isTemplate).map Argument.name := by
  induction h with
  | nil => rfl
  | cons hab _ ih =>
      rw [List.filter_cons, List.filter_cons, hab.isTemplate]
      split
      · rw [List.map_cons, List.map_cons, hab.name, ih]
      · exact ih

section Fill

variable (defaults : List String)

/-- Properties stay alike when placeholders are filled. -/
theorem Property.Alike.fill {p q : Property} (h : p.Alike q) :
    (p.fill defaults).Alike (q.fill defaults) :=
  { h with type := congrArg (TypeExpr.fill defaults) h.type }

theorem Argument.Alike.fill {a b : Argument} (h : a.Alike b) :
    (a.fill defaults).Alike (b.fill defaults) :=
  { h with type := congrArg (TypeExpr.fill defaults) h.type }

theorem Return.Alike.fill {r s : Return} (h : r.Alike s) :
    (r.fill defaults).Alike (s.fill defaults) :=
  { h with type := congrArg (Option.map (TypeExpr.fill defaults)) h.type }

/-- So do overloads, with their arguments and results. -/
theorem Overload.Alike.fill {o p : Overload} (h : o.Alike p) :
    (o.fill defaults).Alike (p.fill defaults) := by
  refine { h with returns := h.returns.fill defaults, arguments := ?_ }
  change List.Forall₂ Argument.Alike (o.arguments.map _) (p.arguments.map _)
  rw [List.forall₂_map_left_iff, List.forall₂_map_right_iff]
  exact h.arguments.imp fun a b hab => hab.fill defaults

end Fill

/-- Overloads that are alike have the same types. -/
theorem Overload.Alike.types {o p : Overload} (h : o.Alike p) : o.types = p.types := by
  rw [Overload.types, Overload.types, h.returns.type,
    map_eq_of_forall₂ (fun _ _ hab => Argument.Alike.type hab) h.arguments]

end ClassSchema
