import Mathlib.Data.List.Nodup
import ClassSchema.Artifact.BaseClass
import ClassSchema.Proofs.Resolve.Steps

/-! # The getters of the base class

A base class has a getter for each property and for each relation. The members of a class are kept
apart by their paths and names, but the getter of a property is named by an identifier in which
parts of the path are lost. -/

namespace ClassSchema

namespace ClassName

/-- Characters that become the same in an identifier. -/
def Alike (a b : Char) : Prop := a = b ∨ (a.isAlphanum = false ∧ b.isAlphanum = false)

/-- Texts of the same length with alike characters at the same places. -/
def Confusable (s t : String) : Prop := List.Forall₂ Alike s.toList t.toList

/-- Only ASCII letters, digits and underscores. -/
def IsIdentifier (s : String) : Prop := ∀ c ∈ s.toList, c.isAlphanum = true ∨ c = '_'

/-- Characters are alike if the same character stands for them in names of functions. -/
theorem alike_iff {a b : Char} :
    Alike a b ↔ (if a.isAlphanum then a else '_') = if b.isAlphanum then b else '_' := by
  have hunderscore : '_'.isAlphanum = false := by decide
  unfold Alike
  by_cases ha : a.isAlphanum = true <;> by_cases hb : b.isAlphanum = true
  · simp [ha, hb]
  · have hne : a ≠ b := by
      rintro rfl
      exact hb ha
    have hne' : a ≠ '_' := by
      rintro rfl
      simp [hunderscore] at ha
    simp [ha, hb, hne, hne']
  · have hne : a ≠ b := by
      rintro rfl
      exact ha hb
    have hne' : '_' ≠ b := by
      rintro rfl
      simp [hunderscore] at hb
    simp [ha, hb, hne, hne']
  · simp [ha, hb]

/-- Two texts give the same name of a function if they are confusable. -/
theorem accessor_eq_accessor {s t : String} : accessor s = accessor t ↔ Confusable s t := by
  rw [accessor, accessor, String.ofList_inj, ← List.forall₂_eq_eq_eq,
    List.forall₂_map_left_iff, List.forall₂_map_right_iff]
  simp only [Confusable, ← alike_iff]

/-- This name is always an identifier. -/
theorem isIdentifier_accessor (s : String) : IsIdentifier (accessor s) := by
  intro c hc
  rw [accessor, String.toList_ofList] at hc
  obtain ⟨d, -, rfl⟩ := List.mem_map.mp hc
  split
  · exact .inl ‹_›
  · exact .inr rfl

/-- Identifiers are left as they are. -/
theorem accessor_eq_self {s : String} (h : IsIdentifier s) : accessor s = s := by
  have hmap : s.toList.map (fun c => if c.isAlphanum then c else '_') = s.toList := by
    refine (List.map_congr_left fun c hc => ?_).trans (List.map_id _)
    rcases h c hc with hc | rfl
    · exact if_pos hc
    · exact ite_self _
  rw [accessor, hmap, String.ofList_toList]

/-- Which texts give a certain name. -/
theorem accessor_eq_iff {s name : String} :
    accessor s = name ↔ IsIdentifier name ∧ Confusable s name := by
  constructor
  · intro h
    have hname : IsIdentifier name := h ▸ isIdentifier_accessor s
    exact ⟨hname, accessor_eq_accessor.mp (h.trans (accessor_eq_self hname).symm)⟩
  · rintro ⟨hname, hs⟩
    rw [accessor_eq_accessor.mpr hs, accessor_eq_self hname]

end ClassName

open ClassName

/-- What follows `get_` in the names of the getters, those of the properties first. -/
def ClassModel.getters (c : ClassModel) : List String :=
  c.properties.map Property.accessor ++ c.relations.map Relation.name

/-! ## Their declarations -/

/-- The line declares `get_x`. -/
def DeclaresGetter (line x : String) : Prop :=
  ∃ type ending, line = type ++ " get_" ++ x ++ "()" ++ ending ∧
    ending ∈ [" const;", " const", ";"]

/-- A getter is still declared in a line that is moved to the right. -/
theorem DeclaresGetter.indent {line x : String} (h : DeclaresGetter line x) (n : Nat) :
    DeclaresGetter (if line.isEmpty then line else Lines.pad n ++ line) x := by
  obtain ⟨type, ending, rfl, hending⟩ := h
  split
  · exact ⟨type, ending, rfl, hending⟩
  · exact ⟨Lines.pad n ++ type, ending, by simp only [String.append_assoc], hending⟩

/-- A property has a getter under its accessor. -/
theorem Property.exists_getter (p : Property) :
    ∃ line ∈ p.declaration, DeclaresGetter line p.accessor := by
  cases hvariables : Artifact.typeVariables [p.type] with
  | nil =>
      refine ⟨p.rendered ++ " get_" ++ p.accessor ++ "()" ++ " const;", ?_, p.rendered, _, rfl,
        List.mem_cons_self⟩
      simp [declaration, hvariables, String.append_assoc, toString]
  | cons v vs =>
      refine ⟨p.rendered ++ " get_" ++ p.accessor ++ "()" ++ " const", ?_, p.rendered, _, rfl,
        List.mem_cons_of_mem _ List.mem_cons_self⟩
      simp [declaration, hvariables, String.append_assoc, toString]

/-- A relation has a getter under its name. -/
theorem Relation.exists_getter (r : Relation) :
    ∃ line ∈ r.declaration, DeclaresGetter line r.name := by
  refine ⟨_, ?_, "const std::vector< xtypes::Fact >", ";", rfl, by simp⟩
  simp [declaration, String.append_assoc, toString]

/-- If each piece has a line of some kind, then so has the whole, in the same order. -/
theorem exists_sublist_flatMap {α : Type} {f : α → List String} {g : α → String}
    {R : String → String → Prop} (h : ∀ a, ∃ line ∈ f a, R line (g a)) (as : List α) :
    ∃ lines, lines.Sublist (as.flatMap f) ∧ List.Forall₂ R lines (as.map g) := by
  induction as with
  | nil => exact ⟨[], .slnil, .nil⟩
  | cons a as ih =>
      obtain ⟨line, hmem, hline⟩ := h a
      obtain ⟨lines, hsub, hlines⟩ := ih
      refine ⟨line :: lines, ?_, .cons hline hlines⟩
      exact (List.singleton_sublist.mpr hmem).append hsub

theorem forall₂_indent {lines xs : List String} (h : List.Forall₂ DeclaresGetter lines xs)
    (n : Nat) : List.Forall₂ DeclaresGetter (Lines.indent n lines) xs := by
  rw [Lines.indent, List.forall₂_map_left_iff]
  exact h.imp fun _ _ hline => hline.indent n

/-- All getters are declared, in their order. -/
theorem ClassModel.getters_declared (context : Artifact.Context) (c : ClassModel) :
    ∃ lines, lines.Sublist (Artifact.baseHeader context c) ∧
      List.Forall₂ DeclaresGetter lines c.getters := by
  obtain ⟨ps, hps, hproperties⟩ := exists_sublist_flatMap Property.exists_getter c.properties
  obtain ⟨rs, hrs, hrelations⟩ := exists_sublist_flatMap Relation.exists_getter c.relations
  refine ⟨Lines.indent 4 (Lines.indent 4 (ps ++ rs)), ?_,
    forall₂_indent (forall₂_indent (List.rel_append hproperties hrelations) 4) 4⟩
  -- the members stand inside the class, and the class inside its namespace
  refine List.Sublist.trans (.cons _ (.cons _ ?_)) (List.sublist_append_right _ _)
  refine List.Sublist.trans ?_ (List.sublist_append_left _ _)
  refine List.Sublist.map _ (List.Sublist.trans ?_ (List.sublist_append_left _ _))
  refine List.Sublist.trans (List.Sublist.map _ ?_) (List.sublist_append_right _ _)
  refine List.Sublist.trans ?_ (List.sublist_append_left _ _)
  exact (hps.trans (List.sublist_append_right _ _)).append hrs

/-! ## When they are different -/

/-- The getters of properties have different names if no two paths are confusable. -/
theorem accessors_nodup_iff {ps : List Property} (hpaths : (ps.map Property.path).Nodup) :
    (ps.map Property.accessor).Nodup ↔
      ∀ p ∈ ps, ∀ q ∈ ps, p.path ≠ q.path → ¬ Confusable p.path q.path := by
  rw [List.nodup_map_iff_inj_on hpaths.of_map]
  constructor
  · intro hinj p hp q hq hne hconfusable
    apply hne
    rw [hinj p hp q hq (accessor_eq_accessor.mpr hconfusable)]
  · intro hfree p hp q hq heq
    apply List.inj_on_of_nodup_map hpaths hp hq
    by_contra hne
    exact hfree p hp q hq hne (accessor_eq_accessor.mp heq)

/-- A getter of a property is one of a relation only if the name of the relation is an identifier.
-/
theorem accessors_disjoint_iff {ps : List Property} {rs : List Relation} :
    (ps.map Property.accessor).Disjoint (rs.map Relation.name) ↔
      ∀ p ∈ ps, ∀ r ∈ rs, IsIdentifier r.name → ¬ Confusable p.path r.name := by
  constructor
  · intro hdisjoint p hp r hr hname hconfusable
    have heq : p.accessor = r.name := accessor_eq_iff.mpr ⟨hname, hconfusable⟩
    exact hdisjoint (List.mem_map_of_mem hp) (heq ▸ List.mem_map_of_mem hr)
  · intro hfree name hps hrs
    obtain ⟨p, hp, hname⟩ := List.mem_map.mp hps
    obtain ⟨r, hr, rfl⟩ := List.mem_map.mp hrs
    obtain ⟨hidentifier, hconfusable⟩ := accessor_eq_iff.mp hname
    exact hfree p hp r hr hidentifier hconfusable

/-- The getters of a class are declared in its base class. No two of them are the same if and only
if no two paths can be confused, and no path with the name of a relation that is an identifier. For
paths that are identifiers themselves this is always so. -/
theorem getters_nodup_iff {target : Resolve.Target} {doc : Document} {c : ClassModel}
    (h : resolve target doc = .ok c) (context : Artifact.Context) :
    (∃ lines, lines.Sublist (Artifact.baseHeader context c) ∧
      List.Forall₂ DeclaresGetter lines c.getters) ∧
    (c.properties.map Property.path).Nodup ∧
    (c.getters.Nodup ↔
      (∀ p ∈ c.properties, ∀ q ∈ c.properties, p.path ≠ q.path → ¬ Confusable p.path q.path) ∧
      ∀ p ∈ c.properties, ∀ r ∈ c.relations, IsIdentifier r.name → ¬ Confusable p.path r.name) ∧
    ((∀ p ∈ c.properties, IsIdentifier p.path) → c.getters.Nodup) := by
  obtain ⟨s, rfl⟩ := Resolve.exists_steps h
  refine ⟨ClassModel.getters_declared context _, s.paths_nodup, ?_, ?_⟩
  · rw [ClassModel.getters, List.nodup_append', accessors_nodup_iff s.paths_nodup,
      accessors_disjoint_iff]
    constructor
    · rintro ⟨hpaths, -, hnames⟩
      exact ⟨hpaths, hnames⟩
    · rintro ⟨hpaths, hnames⟩
      exact ⟨hpaths, s.names_nodup, hnames⟩
  · intro hidentifiers
    have haccessors : s.model.properties.map Property.accessor
        = s.model.properties.map Property.path :=
      List.map_congr_left fun p hp => accessor_eq_self (hidentifiers p hp)
    rw [ClassModel.getters, haccessors]
    refine List.Nodup.append s.paths_nodup s.names_nodup ?_
    intro name hpath hname
    exact s.not_mem_paths hname hpath

/-- A group of properties beside single ones, and a relation. -/
def groupedDocument : Document where
  name := "Arm"
  properties := some [
    (.string "pose", .mapping [
      (.string "x", .mapping [(.string "type", .string "FLOAT64")]),
      (.string "y", .mapping [(.string "type", .string "FLOAT64")])]),
    (.string "pose_z", .mapping [(.string "type", .string "FLOAT64")])]
  relations := some [(.string "part_of", .mapping [(.string "type", .string "PART_OF"),
    (.string "other_classnames", .sequence [.string "Robot"])])]

/-- Slashes and relations in one class, and all getters have different names. -/
theorem getters_groupedDocument :
    ∃ c, resolve ⟨"robot", .cpp⟩ groupedDocument = .ok c ∧
      c.getters = ["pose_x", "pose_y", "pose_z", "part_of"] ∧
      ∀ p ∈ c.properties, ∀ q ∈ c.properties, p.path ≠ q.path → ¬ Confusable p.path q.path := by
  obtain ⟨c, hc, hgetters⟩ : ∃ c, resolve ⟨"robot", .cpp⟩ groupedDocument = .ok c ∧
      c.getters = ["pose_x", "pose_y", "pose_z", "part_of"] := by
    decide +kernel
  have hnodup : c.getters.Nodup := by
    rw [hgetters]
    decide
  exact ⟨c, hc, hgetters, ((getters_nodup_iff hc ⟨"robot", ""⟩).2.2.1.mp hnodup).1⟩

/-- Two properties whose paths differ, and a relation: all three have the same getter. -/
def confusableDocument : Document where
  name := "Arm"
  properties := some [
    (.string "part", .mapping [(.string "of", .mapping [(.string "type", .string "INTEGER")])]),
    (.string "part-of", .mapping [(.string "type", .string "INTEGER")])]
  relations := some [(.string "part_of", .mapping [(.string "type", .string "PART_OF"),
    (.string "other_classnames", .sequence [.string "Robot"])])]

/-- The same getter is declared twice for properties, and a relation has it too. -/
theorem getters_confusableDocument :
    ∃ c, resolve ⟨"robot", .cpp⟩ confusableDocument = .ok c ∧
      c.properties.map Property.path = ["part-of", "part/of"] ∧
      c.getters = ["part_of", "part_of", "part_of"] ∧ ¬ c.getters.Nodup ∧
      (Artifact.baseHeader ⟨"robot", ""⟩ c).count "        int get_part_of() const;" = 2 := by
  decide +kernel

end ClassSchema
