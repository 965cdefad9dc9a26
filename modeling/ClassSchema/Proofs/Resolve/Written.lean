import ClassSchema.Proofs.Resolve.Blame
import ClassSchema.Proofs.TypeExpr.Nodes

/-! # What a document says of its types

A document writes down the types of its properties and those of the results and arguments of its
methods. A class that is resolved from it has one type for each of these texts, which was read from
it and has been given candidates for its placeholders. -/

namespace ClassSchema

/-- The types of a signature, that of the result first. -/
def MethodSpec.typeTexts (spec : MethodSpec) : List String :=
  (spec.returns.bind ReturnSpec.type).toList ++ (spec.arguments.getD []).map ArgumentSpec.type

/-- The targets as they are written: the single one if it is there, else those of the list. -/
def RelationSpec.written (spec : RelationSpec) : List String :=
  (spec.target.map ([·])).getD (spec.targets.getD [])

namespace Document

/-- The types of the properties, in the order of the tree. -/
def propertyTexts (doc : Document) : List String :=
  ((Resolve.leaves (doc.properties.getD [])).toOption.getD []).filterMap fun node =>
    (PropertySpec.ofValue node.2).toOption.map PropertySpec.type

/-- The targets of all relations. -/
def relationTargets (doc : Document) : List String :=
  (doc.relations.getD []).flatMap fun entry =>
    ((RelationSpec.ofValue entry.2).toOption.map RelationSpec.written).getD []

/-- The signatures of all methods. -/
def signatures (doc : Document) : List MethodSpec :=
  (doc.methods.getD []).flatMap fun entry =>
    ((MethodSpec.ofValue entry.2).toOption.map Resolve.signatures).getD []

/-- All types, those of the properties first. -/
def typeTexts (doc : Document) : List String :=
  doc.propertyTexts ++ doc.signatures.flatMap MethodSpec.typeTexts

end Document

/-- The candidates that are named in the type that is written so, in the order of its nodes. -/
def TypeExpr.namedIn (text : String) : List String :=
  ((parse text).toOption.map fun t => t.nodes.flatMap ownCandidates).getD []

/-- The candidates that the document names, in the order of its types. -/
def Document.named (doc : Document) : List String := doc.typeTexts.flatMap TypeExpr.namedIn

/-- All overloads of a class, in their order. -/
def ClassModel.overloads (c : ClassModel) : List Overload := c.methods.flatMap Method.overloads

namespace Resolve

/-! ## Members -/

/-- An overload as it is read from a signature: it has the types that are written, nothing is known
of candidates yet, and what is noted is what the types say. -/
structure ReadFrom (spec : MethodSpec) (o : Overload) : Prop where
  types : List.Forall₂ (fun text t => TypeExpr.parse text = .ok t) spec.typeTexts o.types
  candidates : o.candidates = []
  noted : o.Noted

section Members

variable {target : Target} {className : String}

/-- A property has the type that is written. -/
theorem property_written {path : String} {node : Yaml.Value} {p : Property}
    (h : property target path node = .ok p) :
    ∃ spec, PropertySpec.ofValue node = .ok spec ∧ TypeExpr.parse spec.type = .ok p.type := by
  unfold property at h
  obtain ⟨spec, hspec, h⟩ := bind_eq_ok h
  obtain ⟨type, htype, h⟩ := bind_eq_ok h
  obtain ⟨-, h⟩ := guard_eq_ok h
  obtain ⟨rendered, -, h⟩ := bind_eq_ok h
  obtain ⟨default, -, h⟩ := bind_eq_ok h
  obtain ⟨allowed, -, h⟩ := bind_eq_ok h
  cases h
  exact ⟨spec, mapError_eq_ok hspec, mapError_eq_ok htype⟩

/-- A relation declares the targets that are written. -/
theorem declaredTargets_eq_ok {spec : RelationSpec} {declared : List String}
    (h : declaredTargets spec = .ok declared) : declared = spec.written := by
  unfold declaredTargets at h
  unfold RelationSpec.written
  cases htarget : spec.target with
  | some single =>
      rw [htarget] at h
      cases h
      rfl
  | none =>
      cases htargets : spec.targets with
      | some many =>
          rw [htarget, htargets] at h
          cases h
          rfl
      | none =>
          rw [htarget, htargets] at h
          cases h

/-- Its targets are the qualified names of these. -/
theorem relation_written {name : String} {node : Yaml.Value} {r : Relation}
    (h : relation target name node = .ok r) :
    r.targets = nameSet (r.declared.map (ClassName.qualify · target.ns)) ∧
      ∃ spec, RelationSpec.ofValue node = .ok spec ∧ r.declared = spec.written := by
  unfold relation at h
  obtain ⟨spec, hspec, h⟩ := bind_eq_ok h
  obtain ⟨type, -, h⟩ := bind_eq_ok h
  obtain ⟨declared, hdeclared, h⟩ := bind_eq_ok h
  obtain ⟨extra, -, h⟩ := bind_eq_ok h
  cases h
  exact ⟨rfl, spec, mapError_eq_ok hspec, declaredTargets_eq_ok hdeclared⟩

/-- A method returns the type that is written, if there is one. -/
theorem returns_written {spec : Option ReturnSpec} {r : Return} (h : returns target spec = .ok r) :
    List.Forall₂ (fun text t => TypeExpr.parse text = .ok t) (spec.bind ReturnSpec.type).toList
      r.type.toList := by
  unfold returns at h
  cases hspec : spec.bind ReturnSpec.type with
  | none =>
      rw [hspec] at h
      cases h
      exact .nil
  | some text =>
      rw [hspec] at h
      obtain ⟨type, htype, h⟩ := bind_eq_ok h
      obtain ⟨rendered, -, h⟩ := bind_eq_ok h
      cases h
      exact .cons (mapError_eq_ok htype) .nil

theorem argument_written {spec : ArgumentSpec} {a : Argument} (h : argument target spec = .ok a) :
    TypeExpr.parse spec.type = .ok a.type := by
  unfold argument at h
  obtain ⟨type, htype, h⟩ := bind_eq_ok h
  obtain ⟨rendered, -, h⟩ := bind_eq_ok h
  obtain ⟨default, -, h⟩ := bind_eq_ok h
  cases h
  exact mapError_eq_ok htype

/-- An overload is read from its signature. -/
theorem overload_written {method : String} {spec : MethodSpec} {o : Overload}
    (h : overload target className method spec = .ok o) : ReadFrom spec o := by
  have hnoted := (overload_eq_ok h).noted
  unfold overload at h
  obtain ⟨returns, hreturns, h⟩ := bind_eq_ok h
  obtain ⟨arguments, harguments, h⟩ := bind_eq_ok h
  cases h
  refine ⟨List.rel_append (returns_written (inField_eq_ok hreturns)) ?_, rfl, hnoted⟩
  rw [List.forall₂_map_left_iff, List.forall₂_map_right_iff]
  exact (argumentsFrom_eq_ok harguments).1.imp fun _ _ => argument_written

/-- The overloads of a method are read from its signatures. -/
theorem methodEntry_written {entry : Yaml.Value × Yaml.Value} {m : Method}
    (h : methodEntry target className entry = .ok m) :
    ∃ spec, MethodSpec.ofValue entry.2 = .ok spec ∧
      List.Forall₂ ReadFrom (signatures spec) m.overloads := by
  unfold methodEntry method at h
  obtain ⟨name, -, h⟩ := bind_eq_ok h
  obtain ⟨spec, hspec, h⟩ := bind_eq_ok h
  obtain ⟨overloads, hoverloads, h⟩ := bind_eq_ok h
  cases h
  refine ⟨spec, mapError_eq_ok (inField_eq_ok hspec), ?_⟩
  exact (forall₂_of_mapM hoverloads).imp fun _ _ => overload_written

/-- A candidate is a type that is parsed and then rendered. -/
theorem candidate_eq_ok {expr : String} {k : Candidate} (h : candidate target expr = .ok k) :
    TypeExpr.parse expr = .ok k.type ∧
      k.type.render target.language target.ns = .ok k.rendered := by
  unfold candidate at h
  obtain ⟨type, htype, h⟩ := bind_eq_ok h
  obtain ⟨rendered, hrendered, h⟩ := bind_eq_ok h
  cases h
  exact ⟨mapError_eq_ok htype, mapError_eq_ok hrendered⟩

/-- An overload as it is resolved from a signature, in a class where the candidates `named` are
named: its types are those that are written, with candidates for all placeholders, and its own
candidates are what is read from these. -/
structure Written (target : Target) (named : List String) (spec : MethodSpec) (o : Overload) :
    Prop where
  types : List.Forall₂ (fun text t => ∃ u, TypeExpr.parse text = .ok u ∧
    t = u.fill (defaultCandidates named)) spec.typeTexts o.types
  candidates : (o.types.flatMap TypeExpr.candidates).mapM (candidate target) = .ok o.candidates
  noted : o.Noted

/-- An overload that is read from a signature keeps what is written when it is filled. -/
theorem ReadFrom.written {method : String} {named : List String} {spec : MethodSpec}
    {o o' : Overload} (hread : ReadFrom spec o)
    (h : instantiate target className method (defaultCandidates named) o = .ok o') :
    Written target named spec o' := by
  have hfilled := instantiate_eq_ok hread.noted h
  have htypes : o'.types = o.types.map (TypeExpr.fill (defaultCandidates named)) := by
    rw [hfilled]
    exact o.types_fill _
  refine ⟨?_, ?_, ?_⟩
  · rw [htypes, List.forall₂_map_right_iff]
    exact hread.types.imp fun _ u hu => ⟨u, hu, rfl⟩
  · unfold instantiate at h
    split at h
    · obtain ⟨candidates, hcandidates, h⟩ := bind_eq_ok h
      cases h
      exact inField_eq_ok hcandidates
    · rename_i hplain
      cases h
      -- Without placeholders there are no candidates either.
      rw [← o.flatten_candidateLists,
        hread.noted.candidateLists_eq_nil (Bool.eq_false_iff.mpr hplain), hread.candidates]
      rfl
  · rw [hfilled]
    exact { hread.noted.fill (defaultCandidates named) with }

end Members

/-! ## Whole documents -/

namespace Steps

variable {target : Target} {doc : Document} (s : Steps target doc)

/-- The types of the properties are those that are written. -/
theorem propertyTexts : List.Forall₂ (fun text t => TypeExpr.parse text = .ok t)
    doc.propertyTexts (s.properties.map Property.type) := by
  obtain ⟨nodes, hnodes, hproperties⟩ := s.exists_leaves
  have hall := (propertiesFrom_eq_ok hproperties).1
  rw [Document.propertyTexts, hnodes, List.forall₂_map_right_iff]
  change List.Forall₂ _ (nodes.filterMap _) _
  generalize s.properties = ps at hall ⊢
  clear hnodes hproperties
  induction hall with
  | nil => exact .nil
  | cons hp _ ih =>
      obtain ⟨spec, hspec, hparse⟩ := property_written hp
      rw [List.filterMap_cons, hspec]
      exact .cons hparse ih

/-- The targets of the relations are those that are written. -/
theorem relationTargets : doc.relationTargets = s.relations.flatMap Relation.declared := by
  rw [← List.forall₂_eq_eq_eq]
  refine List.rel_flatMap (relationsFrom_eq_ok s.ofRelations).1 ?_
  rintro entry r ⟨-, hr⟩
  obtain ⟨-, spec, hspec, hdeclared⟩ := relation_written hr
  rw [List.forall₂_eq_eq_eq, hdeclared]
  dsimp only
  rw [hspec]
  rfl

/-- Each overload that was read belongs to a signature of the document. -/
theorem signatures :
    List.Forall₂ ReadFrom doc.signatures (s.methods.flatMap Method.overloads) := by
  refine List.rel_flatMap (forall₂_of_mapM s.ofMethods) ?_
  intro entry m hm
  obtain ⟨spec, hspec, hread⟩ := methodEntry_written hm
  dsimp only
  rw [hspec]
  exact hread

/-- Each overload of the class is resolved from a signature of the document. -/
theorem written : List.Forall₂ (Written target s.named) doc.signatures s.model.overloads := by
  have hinstantiated : List.Forall₂ (fun o o' => ∃ method, instantiate target doc.name method
      (defaultCandidates s.named) o = .ok o') (s.methods.flatMap Method.overloads)
      s.model.overloads := by
    refine List.rel_flatMap (forall₂_of_mapM s.ofInstantiated) ?_
    intro m m' hm
    unfold instantiateMethod at hm
    obtain ⟨overloads, hoverloads, hm⟩ := bind_eq_ok hm
    cases hm
    exact (forall₂_of_mapM hoverloads).imp fun _ _ ho => ⟨m.name, ho⟩
  refine (forall₂_comp s.signatures hinstantiated).imp ?_
  rintro spec o' ⟨o, hread, method, ho'⟩
  exact hread.written ho'

/-- All types that were read, in the order of the document. -/
theorem typeTexts : List.Forall₂ (fun text t => TypeExpr.parse text = .ok t) doc.typeTexts
    (s.properties.map Property.type
      ++ (s.methods.flatMap Method.overloads).flatMap Overload.types) :=
  List.rel_append s.propertyTexts (List.rel_flatMap s.signatures fun _ _ h => h.types)

/-- The candidates that are named, each where it is met first. -/
theorem named_eq : s.named = firstOccurrences doc.named := by
  have hnamed : doc.named = (s.properties.map Property.type
      ++ (s.methods.flatMap Method.overloads).flatMap Overload.types).flatMap
        TypeExpr.candidates := by
    rw [← List.forall₂_eq_eq_eq]
    refine List.rel_flatMap s.typeTexts ?_
    intro text t ht
    rw [List.forall₂_eq_eq_eq, t.candidates_eq, TypeExpr.namedIn, ht]
    rfl
  rw [hnamed, List.flatMap_assoc]
  rfl

end Steps

end Resolve

end ClassSchema
