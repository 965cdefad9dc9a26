import ClassSchema.Proofs.Resolve.Written

/-! # The classes that a document refers to

Names of classes are collected from all members of a class, and from the candidates of the
placeholders in its methods once these are known. What is collected is what the document mentions,
and nothing else. -/

namespace ClassSchema

open Resolve

/-- The type that is written so refers to the class, at any depth. -/
def TypeExpr.Mentions (text name : String) : Prop :=
  ∃ t, parse text = .ok t ∧ ∃ isConst pointer source,
    (reference name isConst pointer source).Within t

namespace Document

/-- A candidate of a placeholder that names the candidates `own`: one of these, or if it names none,
one of those that are named in the document, or else a builtin one. -/
def Offers (doc : Document) (own : List String) (expr : String) : Prop :=
  expr ∈ own ∨ own = [] ∧ (expr ∈ doc.named ∨ doc.named = [] ∧ expr ∈ builtinCandidates)

/-- The class is mentioned in the type of a property, as the target of a relation, in the type of a
result or argument, or in a candidate of a placeholder there. -/
inductive Refers (doc : Document) (name : String) : Prop
  | property {text : String} (written : text ∈ doc.propertyTexts)
      (h : TypeExpr.Mentions text name) : Refers doc name
  | relation (written : name ∈ doc.relationTargets) : Refers doc name
  | signature {spec : MethodSpec} {text : String} (mem : spec ∈ doc.signatures)
      (written : text ∈ spec.typeTexts) (h : TypeExpr.Mentions text name) : Refers doc name
  | candidate {spec : MethodSpec} {text : String} {t : TypeExpr} {index : Option Nat}
      {own : List String} {source expr : String} (mem : spec ∈ doc.signatures)
      (written : text ∈ spec.typeTexts) (parsed : TypeExpr.parse text = .ok t)
      (within : (TypeExpr.placeholder index own source).Within t) (offered : doc.Offers own expr)
      (h : TypeExpr.Mentions expr name) : Refers doc name

end Document

namespace Resolve

/-! ## Types and candidates -/

section Types

variable {name : String}

/-- A text mentions the classes of the type that is read from it. -/
theorem mentions_iff {text : String} {t : TypeExpr} (h : TypeExpr.parse text = .ok t) :
    TypeExpr.Mentions text name ↔ name ∈ t.classNames := by
  rw [TypeExpr.mem_classNames, TypeExpr.Mentions, h]
  constructor
  · rintro ⟨u, heq, hwithin⟩
    cases heq
    exact hwithin
  · intro hwithin
    exact ⟨t, rfl, hwithin⟩

/-- The default candidates are those that are named, or the builtin ones if none are. -/
theorem mem_defaultCandidates {names : List String} {expr : String} :
    expr ∈ defaultCandidates (firstOccurrences names) ↔
      expr ∈ names ∨ names = [] ∧ expr ∈ builtinCandidates := by
  cases names with
  | nil => simp [defaultCandidates, firstOccurrences]
  | cons n names =>
      have hne : (firstOccurrences (n :: names)).isEmpty = false :=
        List.isEmpty_eq_false_iff_exists_mem.mpr
          ⟨n, mem_firstOccurrences.mpr List.mem_cons_self⟩
      rw [defaultCandidates, hne, if_neg Bool.false_ne_true, mem_firstOccurrences]
      simp

/-- What a document offers for a placeholder. -/
theorem offers_iff {doc : Document} {own : List String} {expr : String} : doc.Offers own expr ↔
    expr ∈ TypeExpr.orDefaults (defaultCandidates (firstOccurrences doc.named)) own := by
  rw [Document.Offers, ← mem_defaultCandidates]
  cases own <;> simp [TypeExpr.orDefaults]

end Types

/-! ## Overloads -/

section Overloads

variable {target : Target} {named : List String} {spec : MethodSpec} {o : Overload}
  {name expr : String}

/-- The types of an overload mention what its texts do. -/
theorem Written.exists_type_iff (h : Written target named spec o) :
    (∃ t ∈ o.types, name ∈ t.classNames) ↔
      ∃ text ∈ spec.typeTexts, TypeExpr.Mentions text name := by
  refine (exists_mem_iff_of_forall₂ ?_ h.types).symm
  rintro text t ⟨u, hu, rfl⟩
  rw [mentions_iff hu, TypeExpr.classNames_fill]

/-- The candidates of an overload mention what the texts of the candidates do. -/
theorem Written.exists_candidate_iff (h : Written target named spec o) :
    (∃ k ∈ o.candidates, name ∈ k.type.classNames) ↔
      ∃ expr ∈ o.types.flatMap TypeExpr.candidates, TypeExpr.Mentions expr name := by
  refine (exists_mem_iff_of_forall₂ ?_ (forall₂_of_mapM h.candidates)).symm
  intro expr k hk
  exact mentions_iff (candidate_eq_ok hk).1

/-- The candidates are those of the placeholders that are written. -/
theorem Written.mem_candidates (h : Written target named spec o) :
    expr ∈ o.types.flatMap TypeExpr.candidates ↔ ∃ text ∈ spec.typeTexts, ∃ t,
      TypeExpr.parse text = .ok t ∧ ∃ index own source,
        (TypeExpr.placeholder index own source).Within t ∧
          expr ∈ TypeExpr.orDefaults (defaultCandidates named) own := by
  rw [List.mem_flatMap]
  refine (exists_mem_iff_of_forall₂ ?_ h.types).symm
  rintro text t ⟨u, hu, rfl⟩
  rw [u.candidates_fill, List.mem_flatMap]
  constructor
  · rintro ⟨u', hu', index, own, source, hwithin, hexpr⟩
    cases hu.symm.trans hu'
    exact ⟨own, (TypeExpr.mem_candidateLists u).mpr ⟨index, source, hwithin⟩, hexpr⟩
  · rintro ⟨own, hown, hexpr⟩
    obtain ⟨index, source, hwithin⟩ := (TypeExpr.mem_candidateLists u).mp hown
    exact ⟨u, hu, index, own, source, hwithin, hexpr⟩

end Overloads

/-! ## Classes -/

namespace Steps

variable {target : Target} {doc : Document} (s : Steps target doc) {name : String}

/-- A class is mentioned by a property, a relation or an overload. -/
theorem mem_referenced_iff : name ∈ s.model.referenced ↔
    (∃ t ∈ s.properties.map Property.type, name ∈ t.classNames) ∨ name ∈ doc.relationTargets ∨
      ∃ o ∈ s.model.overloads, (∃ t ∈ o.types, name ∈ t.classNames) ∨
        ∃ k ∈ o.candidates, name ∈ k.type.classNames := by
  have hfilled : s.filled.flatMap (·.type.classNames)
      = (s.properties.map Property.type).flatMap TypeExpr.classNames := by
    rw [filled, List.flatMap_map, List.flatMap_map]
    exact List.flatMap_congr fun p _ => p.type.classNames_fill _
  rw [model, mentioned, mem_nameSet, hfilled, ← s.relationTargets, ← List.flatMap_assoc]
  simp only [ClassModel.overloads, List.mem_append, List.mem_flatMap, or_assoc, List.mem_map,
    or_and_right, exists_or, exists_exists_and_eq_and]

end Steps

end Resolve

/-- The classes that are referenced are exactly those to which the document refers. They are listed
in increasing order. -/
theorem resolve_referenced {target : Target} {doc : Document} {c : ClassModel}
    (h : resolve target doc = .ok c) :
    c.referenced.Pairwise (· < ·) ∧ ∀ name, name ∈ c.referenced ↔ doc.Refers name := by
  obtain ⟨s, rfl⟩ := exists_steps h
  refine ⟨nameSet_increasing _, fun name => ?_⟩
  have hproperties : (∃ text ∈ doc.propertyTexts, TypeExpr.Mentions text name) ↔
      ∃ t ∈ s.properties.map Property.type, name ∈ t.classNames := by
    refine exists_mem_iff_of_forall₂ ?_ s.propertyTexts
    intro text t ht
    exact mentions_iff ht
  rw [s.mem_referenced_iff, ← hproperties]
  constructor
  · rintro (⟨text, htext, hmentions⟩ | htarget | ⟨o, ho, hmember⟩)
    · exact .property htext hmentions
    · exact .relation htarget
    · obtain ⟨spec, hspec, hwritten⟩ := exists_of_mem_right s.written ho
      rcases hmember with htype | hcandidate
      · obtain ⟨text, htext, hmentions⟩ := hwritten.exists_type_iff.mp htype
        exact .signature hspec htext hmentions
      · obtain ⟨expr, hexpr, hmentions⟩ := hwritten.exists_candidate_iff.mp hcandidate
        obtain ⟨text, htext, t, ht, index, own, source, hwithin, hoffered⟩ :=
          hwritten.mem_candidates.mp hexpr
        rw [s.named_eq] at hoffered
        exact .candidate hspec htext ht hwithin (offers_iff.mpr hoffered) hmentions
  · intro hrefers
    cases hrefers with
    | property htext hmentions => exact .inl ⟨_, htext, hmentions⟩
    | relation htarget => exact .inr (.inl htarget)
    | signature hspec htext hmentions =>
        obtain ⟨o, ho, hwritten⟩ := exists_of_mem_left s.written hspec
        exact .inr (.inr ⟨o, ho, .inl (hwritten.exists_type_iff.mpr ⟨_, htext, hmentions⟩)⟩)
    | candidate hspec htext ht hwithin hoffered hmentions =>
        obtain ⟨o, ho, hwritten⟩ := exists_of_mem_left s.written hspec
        refine .inr (.inr ⟨o, ho, .inr (hwritten.exists_candidate_iff.mpr ⟨_, ?_, hmentions⟩)⟩)
        rw [hwritten.mem_candidates, s.named_eq]
        exact ⟨_, htext, _, ht, _, _, _, hwithin, offers_iff.mp hoffered⟩

/-- A class that is named only as a candidate for the type of a property. The method names no
candidates, and therefore takes this one. -/
def pickDocument : Document where
  name := "Gripper"
  properties := some [(.string "held",
    .mapping [(.string "type", .string "TEMPLATE[XTYPE(tools::Clamp)]")])]
  relations := some [(.string "base", .mapping [(.string "type", .string "PART_OF"),
    (.string "other_classname", .string "Arm")])]
  methods := some [(.string "pick", .mapping [(.string "arguments", .sequence [
    .mapping [(.string "name", .string "part"), (.string "type", .string "TEMPLATE")]])])]

/-- A class is mentioned by the name that is written, and by no other. -/
theorem refers_pickDocument : (∃ c, resolve ⟨"robot", .cpp⟩ pickDocument = .ok c) ∧
    pickDocument.Refers "tools::Clamp" ∧ pickDocument.Refers "Arm" ∧
    ¬ pickDocument.Refers "robot::Arm" := by
  obtain ⟨c, hc, hreferenced⟩ : ∃ c, resolve ⟨"robot", .cpp⟩ pickDocument = .ok c ∧
      c.referenced = ["Arm", "tools::Clamp"] := by
    decide +kernel
  have hrefers := (resolve_referenced hc).2
  rw [hreferenced] at hrefers
  refine ⟨⟨c, hc⟩, (hrefers _).mp (by decide), (hrefers _).mp (by decide), ?_⟩
  intro habsent
  exact absurd ((hrefers _).mpr habsent) (by decide)

end ClassSchema
