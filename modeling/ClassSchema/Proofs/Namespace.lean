import ClassSchema.Artifact.BaseClass
import ClassSchema.Proofs.Batch.Basic
import ClassSchema.Proofs.ClassName
import ClassSchema.Proofs.Resolve.Steps

/-! # The namespace of the project

A class of the project may be written with the namespace of the project or without it. In a parent
the namespace is taken off before the batch is searched, and what is left is not always read as the
same class. In the other mentions it stays, and counts among those on which the project depends. -/

namespace ClassSchema

namespace ClassName

variable {ns name rest : String}

/-- A name in the namespace of the project that means another class, or none, once the namespace is
taken off: what is left has a namespace in front of it again, or is the name of the root. -/
def Misread (ns name : String) : Prop :=
  ∃ rest, name = ns ++ "::" ++ rest ∧ (Separated rest ∨ rest = root ∧ ns ≠ rootNamespace)

/-- In terms of what comes after the namespace. -/
theorem misread_append_iff :
    Misread ns (ns ++ "::" ++ rest) ↔ Separated rest ∨ rest = root ∧ ns ≠ rootNamespace := by
  constructor
  · rintro ⟨rest', heq, h⟩
    rwa [(String.append_right_inj (ns ++ "::")).mp heq]
  · intro h
    exact ⟨rest, rfl, h⟩

/-- The namespace of the project can be put back if it was taken off a bare name other than that of
the root. -/
theorem qualify_rest_iff :
    qualify rest ns = ns ++ "::" ++ rest ↔ ¬ Misread ns (ns ++ "::" ++ rest) := by
  rw [misread_append_iff]
  by_cases hseparated : Separated rest
  · refine iff_of_false ?_ (not_not_intro (.inl hseparated))
    obtain ⟨first, last, rfl⟩ := hseparated
    rw [qualify_append]
    intro heq
    have hlength := congrArg String.length heq
    simp only [String.length_append] at hlength
    have : "::".length = 2 := rfl
    omega
  · by_cases hroot : rest = root
    · subst hroot
      have hqualify : qualify root ns = rootNamespace ++ "::" ++ root :=
        qualify_of_isRoot (by decide)
      rw [hqualify, String.append_left_inj, String.append_left_inj]
      simp [hseparated, eq_comm]
    · exact iff_of_true (qualify_bare hseparated hroot) (by simp [hseparated, hroot])

/-- A local name is qualified to the same class again, unless it is misread. -/
theorem qualify_localTo_iff :
    qualify (localTo ns name) ns = qualify name ns ↔ ¬ Misread ns name := by
  rcases localTo_cases ns name with heq | ⟨hforeign, hsame⟩
  · rw [heq, localTo_append, qualify_append]
    exact qualify_rest_iff
  · rw [hsame]
    refine iff_of_true rfl ?_
    rintro ⟨rest, rfl, -⟩
    have hstarts : Text.startsWith (ns ++ "::") (ns ++ "::" ++ rest) = true :=
      Text.startsWith_iff.mpr ⟨rest, rfl⟩
    simp [hstarts] at hforeign

end ClassName

open ClassName

/-! ## Parents -/

/-- The parent for which the batch is searched is the one from which the class derives, unless it is
written with the namespace of the project and is misread without it. In this case the class still
derives from the parent as it is written. -/
theorem ClassModel.qualify_localParent_iff {c : ClassModel} {parent : String}
    (h : c.parent = some parent) :
    ∃ p, c.localParent = some p ∧ (qualify p c.ns = c.qualifiedParent ↔ ¬ Misread c.ns parent) ∧
      (Misread c.ns parent → parent = c.ns ++ "::" ++ p ∧ c.qualifiedParent = parent) := by
  have hqualified : c.qualifiedParent = qualify parent c.ns := by
    rw [qualifiedParent, h]
  refine ⟨localTo c.ns parent, by rw [localParent, h, Option.map_some], ?_, ?_⟩
  · rw [hqualified]
    exact qualify_localTo_iff
  · rintro ⟨rest, rfl, -⟩
    rw [hqualified, localTo_append, qualify_append]
    exact ⟨rfl, rfl⟩

/-- A class whose parent is written with the namespace of the project. -/
def limbDocument : Document where
  name := "Arm"
  parent := some "robot::Limb"

/-- A parent in the own namespace is found under its local name. -/
theorem qualify_localParent_limb : ∃ c, resolve ⟨"robot", .cpp⟩ limbDocument = .ok c ∧
    c.localParent = some "Limb" ∧ qualify "Limb" c.ns = c.qualifiedParent := by
  obtain ⟨c, hc, hparent, hns, hlocal⟩ : ∃ c, resolve ⟨"robot", .cpp⟩ limbDocument = .ok c ∧
      c.parent = some "robot::Limb" ∧ c.ns = "robot" ∧ c.localParent = some "Limb" := by
    decide +kernel
  obtain ⟨p, hp, hiff, -⟩ := ClassModel.qualify_localParent_iff hparent
  obtain rfl : p = "Limb" := Option.some.inj (hp.symm.trans hlocal)
  refine ⟨c, hc, hlocal, hiff.mpr ?_⟩
  rw [hns]
  have hmisread : ¬ (Separated "Limb" ∨ "Limb" = root ∧ "robot" ≠ rootNamespace) := by decide
  exact mt (@misread_append_iff "robot" "Limb").mp hmisread

/-- The root, written with the namespace of the project. -/
def robotRootDocument : Document where
  name := "Arm"
  parent := some "robot::XType"

/-- The batch takes the parent for the root, whose file is included, but the class derives from
another one. -/
theorem misread_robotRoot : ∃ c, resolve ⟨"robot", .cpp⟩ robotRootDocument = .ok c ∧
    c.localParent = some "XType" ∧ qualify "XType" c.ns = "xtypes::XType" ∧
    c.qualifiedParent = "robot::XType" ∧ c.parentInclude = Artifact.rootInclude ∧
    "    class _Arm : public robot::XType" ∈ Artifact.baseHeader ⟨"robot", ""⟩ c := by
  decide +kernel

/-! ## Dependencies -/

namespace Batch

variable {classes : List ClassModel}

/-- The namespaces of a batch are those of the classes that it mentions. -/
theorem mem_namespaces {ns : String} :
    ns ∈ namespaces classes ↔ ∃ c ∈ classes, ∃ name ∈ c.referenced, Under ns name := by
  rw [namespaces, mem_nameSet, List.mem_filterMap]
  simp only [List.mem_flatMap, map_fst_cut?_iff]
  constructor
  · rintro ⟨name, ⟨c, hc, hname⟩, h⟩
    exact ⟨c, hc, name, hname, h⟩
  · rintro ⟨c, hc, name, hname, h⟩
    exact ⟨name, ⟨c, hc, hname⟩, h⟩

/-- The namespaces on which a batch depends are those of the mentioned classes, in increasing order.
They are exactly those other than that of the project if and only if no class mentions a class of
the project by its qualified name. -/
theorem namespaces_foreign_iff {ns : String} {o : Order}
    (resolved : ∀ c ∈ classes, ∃ language doc, resolve ⟨ns, language⟩ doc = .ok c)
    (h : order classes = .ok o) :
    o.namespaces.Pairwise (· < ·) ∧
    (∀ n, n ∈ o.namespaces ↔ ∃ c ∈ classes, ∃ name ∈ c.referenced, Under n name) ∧
    ((∀ n, n ∈ o.namespaces ↔
        n ≠ ns ∧ ∃ c ∈ classes, ∃ name ∈ c.referenced, Under n name) ↔
      ∀ c ∈ classes, ∀ name ∈ c.referenced, ¬ Under c.ns name) := by
  obtain ⟨-, rfl⟩ := order_eq_ok h
  have hns : ∀ c ∈ classes, c.ns = ns := by
    intro c hc
    obtain ⟨language, doc, hdoc⟩ := resolved c hc
    obtain ⟨s, rfl⟩ := Resolve.exists_steps hdoc
    rfl
  refine ⟨nameSet_increasing _, fun n => mem_namespaces, ?_⟩
  constructor
  · intro hforeign c hc name hname hunder
    have hmem := mem_namespaces.mpr ⟨c, hc, name, hname, hns c hc ▸ hunder⟩
    exact ((hforeign ns).mp hmem).1 rfl
  · intro hfree n
    rw [mem_namespaces]
    refine ⟨fun hn => ⟨?_, hn⟩, And.right⟩
    rintro rfl
    obtain ⟨c, hc, name, hname, hunder⟩ := hn
    exact hfree c hc name hname ((hns c hc).symm ▸ hunder)

/-- An arm whose relation has the target `joint`, and the class of the joints. -/
def armDocuments (joint : String) : List Document :=
  [{ name := "Arm",
     relations := some [(.string "joints", .mapping [(.string "type", .string "HAS"),
       (.string "other_classnames", .sequence [.string "geometry::Frame", .string joint])])],
     methods := some [(.string "solve", .mapping [(.string "returns", .mapping [
       (.string "type", .string "VECTOR(XTYPE(kinematics::SolverPtr))")])])] },
   { name := "Joint" }]

theorem namespaces_foreign_bareJoint :
    ∃ classes, (armDocuments "Joint").mapM (resolve ⟨"robot", .cpp⟩) = .ok classes ∧
      ∃ o, order classes = .ok o ∧ o.namespaces = ["geometry", "kinematics"] ∧
        ∀ n, n ∈ o.namespaces ↔
          n ≠ "robot" ∧ ∃ c ∈ classes, ∃ name ∈ c.referenced, Under n name := by
  obtain ⟨classes, hclasses, ⟨o, ho, hnamespaces⟩, hfree⟩ :
      ∃ classes, (armDocuments "Joint").mapM (resolve ⟨"robot", .cpp⟩) = .ok classes ∧
        (∃ o, order classes = .ok o ∧ o.namespaces = ["geometry", "kinematics"]) ∧
        ∀ c ∈ classes, ∀ name ∈ c.referenced, ¬ Under c.ns name := by
    decide +kernel
  have resolved : ∀ c ∈ classes, ∃ language doc, resolve ⟨"robot", language⟩ doc = .ok c := by
    intro c hc
    obtain ⟨doc, -, hdoc⟩ := exists_of_mem_mapM hclasses hc
    exact ⟨.cpp, doc, hdoc⟩
  exact ⟨classes, hclasses, o, ho, hnamespaces, (namespaces_foreign_iff resolved ho).2.2.mpr hfree⟩

/-- With the qualified name of its own class, the project depends on itself. -/
theorem namespaces_ownJoint :
    ∃ classes, (armDocuments "robot::Joint").mapM (resolve ⟨"robot", .cpp⟩) = .ok classes ∧
      ∃ o, order classes = .ok o ∧ o.namespaces = ["geometry", "kinematics", "robot"] ∧
        o.line = "geometry;kinematics;robot" := by
  decide +kernel

end Batch

end ClassSchema
