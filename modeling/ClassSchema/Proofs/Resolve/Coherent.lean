import ClassSchema.Proofs.Resolve.Steps

/-! # Resolved classes are coherent

The members of a class are read in several steps, and placeholders get their candidates last, after
all texts have been written and all that is asked of the types has been noted. Still everything that
a class says of its members is what the types that it keeps say. -/

namespace ClassSchema

open Resolve

/-- The same is known of both types, but for the candidates of their placeholders. -/
structure TypeExpr.KnownAlike (t u : TypeExpr) : Prop where
  jsonKind : t.jsonKind? = u.jsonKind?
  isReference : t.isReference = u.isReference
  className : t.className? = u.className?
  hasPlaceholder : t.hasPlaceholder = u.hasPlaceholder

/-- A type that a class keeps, and its text: the type was read, and has only been given candidates
since. -/
structure ClassModel.Keeps (c : ClassModel) (t : TypeExpr) (text : String) : Prop where
  rendered : t.render c.language c.ns = .ok text
  read : ∃ expr u, TypeExpr.parse expr = .ok u ∧ t = u.fill (defaultCandidates c.templateTypes) ∧
    t.KnownAlike u

/-- What is kept of a property fits its type. -/
structure Property.Coherent (c : ClassModel) (p : Property) : Prop where
  type : c.Keeps p.type p.rendered
  not_reference : p.type.isReference = false
  jsonKind : p.jsonKind? = p.type.jsonKind?

/-- What is kept of an argument fits its type. -/
structure Argument.Coherent (c : ClassModel) (a : Argument) : Prop where
  type : c.Keeps a.type a.rendered
  isTemplate : a.isTemplate = true ↔ a.type.HoldsPlaceholder
  isReference : a.isReference = true ↔ ∃ name, a.className? = some name
  className : ∀ name, a.className? = some name ↔
    ∃ isConst pointer source, a.type = .reference name isConst pointer source

/-- What is kept of a result fits its type, if it has one. -/
structure Return.Coherent (c : ClassModel) (r : Return) : Prop where
  type : ∀ t, r.type = some t → c.Keeps t r.rendered
  void : r.type = none → r.rendered = c.language.voidType
  isTemplate : r.isTemplate = true ↔ ∃ t, r.type = some t ∧ t.HoldsPlaceholder
  className : ∀ name, r.className? = some name ↔
    ∃ isConst pointer source, r.type = some (.reference name isConst pointer source)

/-- An overload is a template if one of its types holds a placeholder. -/
structure Overload.Coherent (c : ClassModel) (o : Overload) : Prop where
  returns : o.returns.Coherent c
  arguments : ∀ a ∈ o.arguments, a.Coherent c
  names : (o.arguments.map Argument.name).Nodup
  /-- The arguments with placeholders are listed, in their order. -/
  listed : o.templateArguments.Sublist (o.arguments.map Argument.name)
  templateArguments : ∀ a ∈ o.arguments, a.name ∈ o.templateArguments ↔ a.type.HoldsPlaceholder
  isTemplate : o.isTemplate = true ↔ o.templateArguments ≠ [] ∨
    ∃ t, o.returns.type = some t ∧ t.HoldsPlaceholder

/-- A method has overloads, and it is overloaded if they are more than one. -/
structure Method.Coherent (c : ClassModel) (m : Method) : Prop where
  nonempty : m.overloads ≠ []
  overloads : ∀ o ∈ m.overloads, o.Coherent c
  isOverloaded : m.isOverloaded = true ↔ 1 < m.overloads.length

/-- A part is a member of the class, or taken for one of its parent. -/
structure UriPart.Coherent (c : ClassModel) (p : UriPart) : Prop where
  relation : p.source = .relation → p.name ∈ c.relations.map Relation.name
  property : p.source = .property → p.name ∈ c.properties.map Property.path
  inherited : p.source = .inherited → c.parent ≠ none ∧
    p.name ∉ c.relations.map Relation.name ∧ p.name ∉ c.properties.map Property.path

/-- All members of a class fit their types, and its URI is made of members. -/
structure ClassModel.Coherent (c : ClassModel) : Prop where
  properties : ∀ p ∈ c.properties, p.Coherent c
  methods : ∀ m ∈ c.methods, m.Coherent c
  uri : ∀ u, c.uri = some u → ∀ p ∈ u.parts, p.Coherent c

/-! ## Types -/

/-- To fill a type changes nothing of what is known of it. -/
theorem TypeExpr.knownAlike_fill (defaults : List String) (t : TypeExpr) :
    (t.fill defaults).KnownAlike t :=
  ⟨jsonKind?_fill defaults t, isReference_fill defaults t, className?_fill defaults t,
    hasPlaceholder_fill defaults t⟩

/-- A type has a class name if it is a reference. -/
theorem TypeExpr.className?_eq_some {t : TypeExpr} {name : String} :
    t.className? = some name ↔
      ∃ isConst pointer source, t = .reference name isConst pointer source := by
  constructor
  · intro h
    cases t with
    | reference c isConst pointer source =>
        cases h
        exact ⟨isConst, pointer, source, rfl⟩
    | _ => cases h
  · rintro ⟨isConst, pointer, source, rfl⟩
    rfl

theorem TypeExpr.isReference_iff {t : TypeExpr} :
    t.isReference = true ↔ ∃ name, t.className? = some name := by
  cases t with
  | reference c isConst pointer source => exact iff_of_true rfl ⟨c, rfl⟩
  | _ => exact iff_of_false nofun nofun

/-! ## Members -/

/-- An argument is noted as a template if its type holds a placeholder. -/
theorem Argument.Noted.isTemplate_iff {a : Argument} (h : a.Noted) :
    a.isTemplate = true ↔ a.type.HoldsPlaceholder := by
  rw [h.isTemplate, TypeExpr.hasPlaceholder_iff]

/-- It is noted as a reference if a class is. -/
theorem Argument.Noted.isReference_iff {a : Argument} (h : a.Noted) :
    a.isReference = true ↔ ∃ name, a.className? = some name := by
  rw [h.isReference, h.className, TypeExpr.isReference_iff]

/-- The class that is noted is the one that its type refers to. -/
theorem Argument.Noted.className?_eq_some {a : Argument} (h : a.Noted) {name : String} :
    a.className? = some name ↔
      ∃ isConst pointer source, a.type = .reference name isConst pointer source := by
  rw [h.className, TypeExpr.className?_eq_some]

/-- A result is noted as a template if it has a type that holds a placeholder. -/
theorem Return.Noted.isTemplate_iff {r : Return} (h : r.Noted) :
    r.isTemplate = true ↔ ∃ t, r.type = some t ∧ t.HoldsPlaceholder := by
  simp only [h.isTemplate, Option.any_eq_true, TypeExpr.hasPlaceholder_iff]

/-- The class that is noted is the one that the type refers to. -/
theorem Return.Noted.className?_eq_some {r : Return} (h : r.Noted) {name : String} :
    r.className? = some name ↔
      ∃ isConst pointer source, r.type = some (.reference name isConst pointer source) := by
  rw [h.className, Option.bind_eq_some_iff]
  constructor
  · rintro ⟨t, ht, hname⟩
    obtain ⟨isConst, pointer, source, rfl⟩ := TypeExpr.className?_eq_some.mp hname
    exact ⟨isConst, pointer, source, ht⟩
  · rintro ⟨isConst, pointer, source, ht⟩
    exact ⟨_, ht, rfl⟩

/-- An overload is noted as a template for an argument or for its result. -/
theorem Overload.Noted.isTemplate_iff {o : Overload} (h : o.Noted) :
    o.isTemplate = true ↔ o.templateArguments ≠ [] ∨
      ∃ t, o.returns.type = some t ∧ t.HoldsPlaceholder := by
  rw [h.isTemplate, Bool.or_eq_true, h.returns.isTemplate_iff, or_comm, Bool.not_eq_true',
    List.isEmpty_eq_false_iff]

/-! ## Classes -/

namespace Resolve.Steps

variable {target : Target} {doc : Document} (s : Steps target doc)

/-- What was read is kept with candidates for its placeholders, under the same text. -/
theorem keeps {t : TypeExpr} {text : String} (h : Typed target t text) :
    s.model.Keeps (t.fill (defaultCandidates s.named)) text := by
  obtain ⟨expr, hexpr⟩ := h.parsed
  refine ⟨?_, expr, t, hexpr, rfl, t.knownAlike_fill _⟩
  rw [TypeExpr.render_fill]
  exact h.rendered

/-- An overload that has been read fits its types after they are filled. -/
theorem coherent_overload {o : Overload} (h : Read target o) (candidates : List Candidate) :
    Overload.Coherent s.model { o.fill (defaultCandidates s.named) with candidates } := by
  have hnoted := h.noted.fill (defaultCandidates s.named)
  have hnames : ((o.arguments.map (Argument.fill (defaultCandidates s.named))).map
      Argument.name).Nodup := by
    rw [List.map_map]
    exact h.names
  refine {
    returns := ⟨?_, ?_, hnoted.returns.isTemplate_iff,
      fun _ => hnoted.returns.className?_eq_some⟩
    arguments := ?_
    names := hnames
    listed := hnoted.templateArguments_sublist
    templateArguments := fun a => hnoted.mem_templateArguments hnames
    isTemplate := hnoted.isTemplate_iff }
  · intro t ht
    obtain ⟨u, hu, rfl⟩ := Option.map_eq_some_iff.mp ht
    rcases h.returns with ⟨hnone, -⟩ | ⟨v, hv, htyped⟩
    · rw [hnone] at hu
      cases hu
    · rw [hv] at hu
      cases hu
      exact s.keeps htyped
  · intro hnone
    rcases h.returns with ⟨-, hvoid⟩ | ⟨v, hv, -⟩
    · exact hvoid
    · rw [Option.map_eq_none_iff.mp hnone] at hv
      cases hv
  · intro a ha
    have hargument := hnoted.arguments a ha
    obtain ⟨b, hb, rfl⟩ := List.mem_map.mp ha
    exact ⟨s.keeps (h.arguments b hb), hargument.isTemplate_iff, hargument.isReference_iff,
      fun _ => hargument.className?_eq_some⟩

/-- So do all overloads of a method. -/
theorem coherent_method {m : Method} (hm : m ∈ s.instantiated) : m.Coherent s.model := by
  obtain ⟨m₀, hm₀, hmethod⟩ := exists_of_mem_mapM s.ofInstantiated hm
  obtain ⟨entry, -, hentry⟩ := exists_of_mem_mapM s.ofMethods hm₀
  obtain ⟨hne, hread, hnoted⟩ := methodEntry_eq_ok hentry
  obtain ⟨hkept, hoverloads⟩ := instantiateMethod_eq_ok hnoted hmethod
  refine ⟨?_, ?_, ?_⟩
  · intro hnil
    rw [hnil] at hoverloads
    exact hne (List.forall₂_nil_right_iff.mp hoverloads)
  · intro o ho
    obtain ⟨o₀, ho₀, heq⟩ := exists_of_mem_right hoverloads ho
    rw [heq]
    exact s.coherent_overload (hread o₀ ho₀) _
  · rw [hkept, hnoted.isOverloaded, hoverloads.length_eq, decide_eq_true_iff]

/-- A property fits its type after it is filled. -/
theorem coherent_property {p : Property} (hp : p ∈ s.model.properties) :
    p.Coherent s.model := by
  obtain ⟨q, hq, rfl⟩ := List.mem_map.mp ((sortBy_perm _ _).mem_iff.mp hp)
  obtain ⟨nodes, -, hnodes⟩ := s.exists_leaves
  obtain ⟨node, -, hnode⟩ := exists_of_mem_right (propertiesFrom_eq_ok hnodes).1 hq
  obtain ⟨-, hreference, htyped, hnoted⟩ := property_eq_ok hnode
  refine ⟨s.keeps htyped, ?_, (hnoted.fill _).jsonKind⟩
  exact (TypeExpr.isReference_fill _ q.type).trans hreference

/-- The parts of a URI are looked up among the members. -/
theorem coherent_uriPart {u : Uri} (hu : s.uri = some u) {p : UriPart} (hp : p ∈ u.parts) :
    p.Coherent s.model := by
  have huri := s.ofUri
  rw [hu] at huri
  obtain ⟨spec, hspec⟩ := uri_eq_ok huri hp
  rcases uriPart_eq_ok hspec with ⟨hsource, hmem⟩ | ⟨hsource, -, hmem⟩ |
    ⟨hsource, hparent, hrelation, hproperty⟩
  · refine ⟨fun _ => s.names_perm.mem_iff.mpr hmem, ?_, ?_⟩ <;> simp [hsource]
  · refine ⟨?_, fun _ => s.paths_perm.mem_iff.mpr hmem, ?_⟩ <;> simp [hsource]
  · refine ⟨by simp [hsource], by simp [hsource], fun _ => ⟨?_, ?_, ?_⟩⟩
    · exact Option.isSome_iff_ne_none.mp hparent
    · exact mt s.names_perm.mem_iff.mp hrelation
    · exact mt s.paths_perm.mem_iff.mp hproperty

end Resolve.Steps

/-- All that a resolved class says of its members is what the types that it keeps say, in the
language and the project for which it was resolved. -/
theorem resolve_coherent {target : Target} {doc : Document} {c : ClassModel}
    (h : resolve target doc = .ok c) :
    c.language = target.language ∧ c.ns = target.ns ∧ c.Coherent := by
  obtain ⟨s, rfl⟩ := exists_steps h
  refine ⟨rfl, rfl, ?_, ?_, ?_⟩
  · intro p hp
    exact s.coherent_property hp
  · intro m hm
    exact s.coherent_method hm
  · intro u hu p hp
    exact s.coherent_uriPart hu hp

/-- Placeholders inside of containers, with and without candidates, and a part of the URI that only
a parent can have. -/
def sampleDocument : Document where
  name := "Sample"
  parent := some "Base"
  properties := some [(.string "values", .mapping [(.string "type", .string "VECTOR(TEMPLATE:1)")])]
  relations := some [(.string "owner", .mapping [(.string "type", .string "HAS"),
    (.string "other_classnames", .sequence [.string "Base"])])]
  methods := some [(.string "find", .mapping [
    (.string "returns", .mapping [(.string "type", .string "XTYPE(PartPtr)")]),
    (.string "arguments", .sequence [
      .mapping [(.string "name", .string "key"),
        (.string "type", .string "TEMPLATE[STRING; JSON]")],
      .mapping [(.string "name", .string "among"),
        (.string "type", .string "MAP(STRING, TEMPLATE)")]])])]
  uri := some { parts := some [{ name := "owner" }, { name := "values" }, { name := "label" }] }

/-- A property that is filled with candidates of a method. -/
theorem resolve_sampleDocument :
    ∃ c, resolve ⟨"robot", .python⟩ sampleDocument = .ok c ∧
      c.templateTypes = ["STRING", "JSON"] ∧
      c.properties.map Property.rendered = ["List[T1]"] ∧
      c.properties.flatMap (·.type.candidates) = ["STRING", "JSON"] ∧ c.Coherent := by
  obtain ⟨c, hc, hnamed, hrendered, hcandidates⟩ :
      ∃ c, resolve ⟨"robot", .python⟩ sampleDocument = .ok c ∧
        c.templateTypes = ["STRING", "JSON"] ∧
        c.properties.map Property.rendered = ["List[T1]"] ∧
        c.properties.flatMap (·.type.candidates) = ["STRING", "JSON"] := by
    decide +kernel
  exact ⟨c, hc, hnamed, hrendered, hcandidates, (resolve_coherent hc).2.2⟩

end ClassSchema
