import ClassSchema.Proofs.Resolve.Written

/-! # Candidates of placeholders

The candidates that are named anywhere in a document are collected in the order in which they are
met. After that all placeholders have candidates: their own, else all that were collected, else the
builtin ones. A method with placeholders is instantiated for what its candidates are written as. -/

namespace ClassSchema

open Resolve

namespace ClassModel

/-- The candidates that a placeholder of the class has in the end, by those that it names. -/
inductive Grants (c : ClassModel) : (own given : List String) → Prop
  | own {cs : List String} (h : cs ≠ []) : Grants c cs cs
  | named (h : c.templateTypes ≠ []) : Grants c [] c.templateTypes
  | builtin (h : c.templateTypes = []) :
      Grants c [] ["BOOLEAN", "INTEGER", "FLOAT64", "STRING", "JSON"]

/-- A type of the class that is read as `u`: at every place there is a placeholder in both or in
none, and it has the candidates that it is granted. -/
structure Completes (c : ClassModel) (u t : TypeExpr) : Prop where
  placeholder_iff : ∀ place index given source,
    t.at? place = some (.placeholder index given source) ↔
      ∃ own, u.at? place = some (.placeholder index own source) ∧ c.Grants own given
  ne_nil : ∀ index given source, (TypeExpr.placeholder index given source).Within t → given ≠ []

/-- The overload is instantiated if it is a template, for the texts of the candidates of all its
placeholders. -/
structure Instantiates (c : ClassModel) (o : Overload) : Prop where
  template : o.isTemplate = true → o.instances ≠ [] ∧
    ∃ texts, List.Forall₂ (fun expr text => ∃ t, TypeExpr.parse expr = .ok t ∧
        t.render c.language c.ns = .ok text)
      ((o.types.flatMap TypeExpr.nodes).flatMap TypeExpr.ownCandidates) texts ∧
      FirstMet texts o.instances
  plain : o.isTemplate = false → o.instances = []

end ClassModel

namespace Resolve

/-! ## Completing one type -/

theorem defaultCandidates_ne_nil (named : List String) : defaultCandidates named ≠ [] := by
  unfold defaultCandidates
  split
  · exact List.cons_ne_nil _ _
  · rename_i hne
    exact fun heq => hne (List.isEmpty_iff.mpr heq)

/-- A placeholder is never left without candidates. -/
theorem orDefaults_ne_nil {defaults : List String} (h : defaults ≠ []) (own : List String) :
    TypeExpr.orDefaults defaults own ≠ [] := by
  cases own with
  | nil => exact h
  | cons n ns => exact List.cons_ne_nil n ns

/-- A placeholder has its own candidates, or else the default ones. -/
theorem grants_iff {c : ClassModel} {own given : List String} :
    c.Grants own given ↔ given = TypeExpr.orDefaults (defaultCandidates c.templateTypes) own := by
  constructor
  · rintro (hown | hnamed | hbuiltin)
    · rw [TypeExpr.orDefaults, if_neg (mt List.isEmpty_iff.mp hown)]
    · exact (if_neg (mt List.isEmpty_iff.mp hnamed)).symm
    · exact (if_pos (List.isEmpty_iff.mpr hbuiltin)).symm
  · rintro rfl
    cases own with
    | cons n ns => exact .own (List.cons_ne_nil n ns)
    | nil =>
        change c.Grants [] (if c.templateTypes.isEmpty then builtinCandidates else c.templateTypes)
        split
        · rename_i hempty
          exact .builtin (List.isEmpty_iff.mp hempty)
        · rename_i hne
          exact .named fun heq => hne (List.isEmpty_iff.mpr heq)

/-- In a filled type all placeholders have candidates. -/
theorem ne_nil_of_within_fill {defaults : List String} (h : defaults ≠ []) {u : TypeExpr}
    {index : Option Nat} {given : List String} {source : String}
    (hwithin : (TypeExpr.placeholder index given source).Within (u.fill defaults)) :
    given ≠ [] := by
  have hgiven : given ∈ (u.fill defaults).candidateLists :=
    (TypeExpr.mem_candidateLists _).mpr ⟨index, source, hwithin⟩
  rw [TypeExpr.candidateLists_fill] at hgiven
  obtain ⟨own, -, rfl⟩ := List.mem_map.mp hgiven
  exact orDefaults_ne_nil h own

/-- A filled type is the one that was written, with candidates for each placeholder. -/
theorem completes_fill (c : ClassModel) (u : TypeExpr) :
    c.Completes u (u.fill (defaultCandidates c.templateTypes)) where
  placeholder_iff place index given source := by
    simp only [TypeExpr.at?_fill, Option.map_eq_some_iff, TypeExpr.fill_eq_placeholder, grants_iff]
    constructor
    · rintro ⟨_, hat, own, rfl, hgiven⟩
      exact ⟨own, hat, hgiven⟩
    · rintro ⟨own, hat, hgiven⟩
      exact ⟨_, hat, own, rfl, hgiven⟩
  ne_nil _ _ _ := ne_nil_of_within_fill (defaultCandidates_ne_nil _)

/-! ## Overloads -/

namespace Written

variable {target : Target} {named : List String} {spec : MethodSpec} {o : Overload}

/-- A placeholder of a template has a candidate, for which the template is instantiated. -/
theorem instances_ne_nil (h : Written target named spec o) (ht : o.isTemplate = true) :
    o.instances ≠ [] := by
  rw [h.noted.isTemplate_eq, List.any_eq_true] at ht
  obtain ⟨t, ht, hholds⟩ := ht
  obtain ⟨text, -, u, -, rfl⟩ := exists_of_mem_right h.types ht
  obtain ⟨s, hwithin, hs⟩ := TypeExpr.hasPlaceholder_iff.mp hholds
  cases s with
  | placeholder index given source =>
      obtain ⟨expr, hexpr⟩ := List.exists_mem_of_ne_nil given
        (ne_nil_of_within_fill (defaultCandidates_ne_nil named) hwithin)
      have hcandidate : expr ∈ o.types.flatMap TypeExpr.candidates := by
        refine List.mem_flatMap.mpr ⟨_, ht, ?_⟩
        rw [← TypeExpr.flatten_candidateLists]
        exact List.mem_flatten.mpr
          ⟨given, (TypeExpr.mem_candidateLists _).mpr ⟨index, source, hwithin⟩, hexpr⟩
      obtain ⟨k, hk, -⟩ := exists_of_mem_left (forall₂_of_mapM h.candidates) hcandidate
      exact List.ne_nil_of_mem (mem_firstOccurrences.mpr (List.mem_map_of_mem hk))
  | _ => cases hs

/-- An overload that is no template has no instances. -/
theorem instances_eq_nil (h : Written target named spec o) (hplain : o.isTemplate = false) :
    o.instances = [] := by
  have hcandidates := h.candidates
  rw [← o.flatten_candidateLists, h.noted.candidateLists_eq_nil hplain] at hcandidates
  have hnil : [] = o.candidates := Except.ok.inj hcandidates
  rw [Overload.instances, ← hnil]
  rfl

/-- The instances of an overload are the candidates of its types, rendered. -/
theorem instantiates {c : ClassModel} (h : Written ⟨c.ns, c.language⟩ named spec o) :
    c.Instantiates o where
  template ht := by
    refine ⟨h.instances_ne_nil ht, o.candidates.map Candidate.rendered, ?_, firstMet_iff.mpr rfl⟩
    have hnodes : (o.types.flatMap TypeExpr.nodes).flatMap TypeExpr.ownCandidates
        = o.types.flatMap TypeExpr.candidates := by
      rw [List.flatMap_assoc]
      exact List.flatMap_congr fun t _ => t.candidates_eq.symm
    rw [hnodes, List.forall₂_map_right_iff]
    exact (forall₂_of_mapM h.candidates).imp fun _ k hk => ⟨k.type, candidate_eq_ok hk⟩
  plain := h.instances_eq_nil

end Written

end Resolve

/-- The candidates of a class that is resolved: those that are collected, those that the
placeholders of each property, result and argument have, and those for which each method is
instantiated. -/
theorem resolve_candidates {target : Target} {doc : Document} {c : ClassModel}
    (h : resolve target doc = .ok c) :
    FirstMet doc.named c.templateTypes ∧
      (∃ ps, c.properties = sortBy Property.path ps ∧ List.Forall₂ (fun text p =>
        ∃ u, TypeExpr.parse text = .ok u ∧ c.Completes u p.type) doc.propertyTexts ps) ∧
      List.Forall₂ (fun spec o => List.Forall₂ (fun text t =>
          ∃ u, TypeExpr.parse text = .ok u ∧ c.Completes u t) spec.typeTexts o.types ∧
        c.Instantiates o) doc.signatures c.overloads := by
  obtain ⟨s, rfl⟩ := exists_steps h
  refine ⟨firstMet_iff.mpr s.named_eq, ⟨s.filled, rfl, ?_⟩, ?_⟩
  · have hread := s.propertyTexts
    rw [List.forall₂_map_right_iff] at hread
    rw [Steps.filled, List.forall₂_map_right_iff]
    exact hread.imp fun _ p hp => ⟨p.type, hp, completes_fill s.model p.type⟩
  · refine s.written.imp fun spec o hwritten => ⟨?_, hwritten.instantiates⟩
    refine hwritten.types.imp ?_
    rintro text _ ⟨u, hu, rfl⟩
    exact ⟨u, hu, completes_fill s.model u⟩

/-- A candidate is named by a property and another one in an argument. The last argument has none
of its own. -/
def pushDocument : Document where
  name := "Buffer"
  properties := some [(.string "unit",
    .mapping [(.string "type", .string "TEMPLATE[INTEGER]")])]
  methods := some [(.string "push", .mapping [(.string "arguments", .sequence [
    .mapping [(.string "name", .string "values"),
      (.string "type", .string "VECTOR(TEMPLATE[STRING])")],
    .mapping [(.string "name", .string "last"), (.string "type", .string "TEMPLATE")]])])]

/-- Candidates that are named by one member are the defaults of another. -/
theorem candidates_pushDocument : ∃ c, resolve ⟨"robot", .cpp⟩ pushDocument = .ok c ∧
    c.templateTypes = ["INTEGER", "STRING"] ∧ FirstMet pushDocument.named ["INTEGER", "STRING"] ∧
    ∃ o, c.overloads = [o] ∧ c.Instantiates o ∧ o.instances = ["std::string", "int"] := by
  obtain ⟨c, hc, hnamed, hinstances⟩ : ∃ c, resolve ⟨"robot", .cpp⟩ pushDocument = .ok c ∧
      c.templateTypes = ["INTEGER", "STRING"] ∧
      c.overloads.map Overload.instances = [["std::string", "int"]] := by
    decide +kernel
  obtain ⟨hmet, -, hoverloads⟩ := resolve_candidates hc
  obtain ⟨o, ho, hinst⟩ := List.map_eq_singleton_iff.mp hinstances
  rw [hnamed] at hmet
  obtain ⟨spec, -, -, hinstantiates⟩ :=
    exists_of_mem_right hoverloads (ho ▸ List.mem_singleton_self o)
  exact ⟨c, hc, hnamed, hmet, o, ho, hinstantiates, hinst⟩

end ClassSchema
