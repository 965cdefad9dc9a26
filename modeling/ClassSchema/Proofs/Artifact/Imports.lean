import ClassSchema.Artifact.Stub
import ClassSchema.Proofs.Artifact.Lines
import ClassSchema.Proofs.ClassName
import ClassSchema.Proofs.Resolve.Steps

/-! # The names that a stub imports

A stub may use its own class and the names that it imports. The types of its members call the
classes of the project by their local names and all others by their full names, but what is imported
of a class is always the last part of its name. -/

namespace ClassSchema

/-- A statement that imports names from a module. -/
structure Import where
  module : String
  names : List String

namespace Import

/-- The line of the import. -/
def text (i : Import) : String := "from " ++ i.module ++ " import " ++ Text.join ", " i.names

/-- What the annotations of a stub are made with. -/
def typing : Import where
  module := "typing"
  names := ["Any", "Callable", "Dict", "List", "Set", "Tuple", "TypeVar", "overload"]

/-- The import of the root class. -/
def root : Import := ⟨Artifact.runtimeProject, [ClassName.root]⟩

/-- The import of a class from its module. -/
def ofClass (name : String) : Import :=
  match ClassName.parts name with
  | (some ns, last) => ⟨Text.replace "::" "." ns, [last]⟩
  | (none, last) => ⟨"." ++ last, [last]⟩

/-- This is the line that is written for the class. -/
theorem text_ofClass (name : String) : (ofClass name).text = ClassModel.importLine name := by
  unfold ofClass ClassModel.importLine text
  rcases ClassName.parts name with ⟨_ | ns, last⟩
  · have hdot : "from " ++ ("." ++ last) = "from ." ++ last := by
      rw [← String.append_assoc]
      rfl
    exact congrArg (· ++ " import " ++ last) hdot
  · rfl

/-- A class is imported by its bare name. -/
theorem names_ofClass (name : String) : (ofClass name).names = [(ClassName.parts name).2] := by
  unfold ofClass
  split <;> simp only [*]

end Import

namespace ClassModel

variable {c : ClassModel}

/-- The classes that the stub imports, beside the root. -/
def imported (c : ClassModel) : List String :=
  (c.localParent.toList ++ c.referenced).filter fun name =>
    !ClassName.isRoot name && name != c.name

/-- All imports of a stub, the one for annotations first. -/
def imports (c : ClassModel) : List Import :=
  .typing :: (if ClassName.isRoot c.name then [] else [.root]) ++ c.imported.map .ofClass

/-- The name is that of the class, or it is imported. -/
def Knows (c : ClassModel) (name : String) : Prop :=
  name = c.name ∨ name ∈ c.imports.flatMap Import.names

instance (c : ClassModel) (name : String) : Decidable (c.Knows name) :=
  inferInstanceAs (Decidable (_ ∨ _))

/-! ## The lines of the imports -/

/-- After the first import, the lines of the others are sorted, and none is repeated. -/
theorem stubImports_eq (c : ClassModel) :
    c.stubImports = nameSet (c.imports.tail.map Import.text) := by
  have htext : c.imported.map importLine = (c.imported.map Import.ofClass).map Import.text := by
    rw [List.map_map]
    exact List.map_congr_left fun name _ => (Import.text_ofClass name).symm
  unfold stubImports
  rw [imports, List.cons_append, List.tail_cons, List.map_append, ← htext]
  split <;> rfl

end ClassModel

section Lines

variable {line : String}

/-- A line of an import begins with its keyword. -/
theorem head?_of_startsWith (h : Text.startsWith "from " line = true) :
    line.toList.head? = some 'f' := by
  obtain ⟨rest, rfl⟩ := Text.startsWith_iff.mp h
  rw [String.toList_append]
  rfl

/-- A line of a type variable begins with its name. -/
theorem head?_of_mem_typeVariables {c : ClassModel} {v : String} (h : v ∈ c.typeVariables) :
    v.toList.head? = some 'T' := by
  obtain ⟨t, -, hv⟩ := List.mem_flatMap.mp (mem_firstOccurrences.mp h)
  obtain ⟨index, cs, source, -, rfl⟩ := (TypeExpr.mem_typeVariables t).mp hv
  cases index with
  | none => rfl
  | some i =>
      rw [TypeExpr.variableName, String.toList_append]
      rfl

end Lines

/-- The lines are those of the imports. -/
theorem ClassModel.mem_stubImports {c : ClassModel} {line : String} :
    line ∈ c.stubImports ↔ ∃ i ∈ c.imports.tail, i.text = line := by
  rw [c.stubImports_eq, mem_nameSet, List.mem_map]

/-- The lines of a stub that begin with `from` are the imports. -/
theorem from_mem_stub {context : Artifact.Context} {c : ClassModel} {line : String} :
    line ∈ Artifact.stub context c ∧ Text.startsWith "from " line = true ↔
      ∃ i ∈ c.imports, i.text = line := by
  unfold Artifact.stub
  simp only [List.mem_append, List.mem_cons, List.not_mem_nil, or_false]
  constructor
  · rintro ⟨hline, hfrom⟩
    -- All lines but the imports are empty or start with another character.
    have hfirst := head?_of_startsWith hfrom
    rcases hline with (((((hheader | rfl | rfl) | himport) | rfl) | hvariable) | rfl | rfl) |
      hmember
    · cases hfirst.symm.trans (Artifact.head?_of_mem_header hheader)
    · exact ⟨.typing, List.mem_cons_self, rfl⟩
    · cases hfirst
    · obtain ⟨i, hi, htext⟩ := ClassModel.mem_stubImports.mp himport
      exact ⟨i, List.mem_of_mem_tail hi, htext⟩
    · cases hfirst
    · split at hvariable
      · cases hvariable
      · rcases List.mem_append.mp hvariable with hvariable | hempty
        · obtain ⟨v, hv, rfl⟩ := List.mem_map.mp hvariable
          simp [toString, head?_of_mem_typeVariables hv] at hfirst
        · rw [List.mem_singleton.mp hempty] at hfirst
          cases hfirst
    · cases hfirst
    · simp [toString] at hfirst
    · rcases Lines.head?_of_mem_indent hmember with hhead | hhead <;> cases hfirst.symm.trans hhead
  · rintro ⟨i, hi, rfl⟩
    constructor
    · rcases List.mem_cons.mp hi with rfl | hi
      · simp [Import.text, Import.typing, Text.join]
      · simp [ClassModel.mem_stubImports.mpr ⟨i, hi, rfl⟩]
    · refine Text.startsWith_iff.mpr ⟨i.module ++ " import " ++ Text.join ", " i.names, ?_⟩
      simp only [Import.text, String.append_assoc]

/-! ## The classes that are mentioned -/

namespace ClassModel

/-- The types of the properties, and of the results and arguments of the methods. -/
def memberTypes (c : ClassModel) : List TypeExpr :=
  c.properties.map Property.type ++ c.methods.flatMap fun m => m.overloads.flatMap Overload.types

end ClassModel

namespace Resolve.Steps

variable {target : Target} {doc : Document} (s : Steps target doc)

/-- What the types of the members refer to is mentioned by the class. -/
theorem mem_referenced {t : TypeExpr} (ht : t ∈ s.model.memberTypes) {name source : String}
    {isConst : Bool} {pointer : Pointer}
    (h : (TypeExpr.reference name isConst pointer source).Within t) :
    name ∈ s.model.referenced := by
  have hname : name ∈ t.classNames :=
    (TypeExpr.mem_classNames t).mpr ⟨isConst, pointer, source, h⟩
  rw [model, mentioned, mem_nameSet, List.mem_append, List.mem_append]
  rcases List.mem_append.mp ht with ht | ht
  · obtain ⟨p, hp, rfl⟩ := List.mem_map.mp ht
    have hp : p ∈ s.filled := (sortBy_perm _ _).mem_iff.mp hp
    exact .inl (.inl (List.mem_flatMap.mpr ⟨p, hp, hname⟩))
  · obtain ⟨m, hm, ht⟩ := List.mem_flatMap.mp ht
    obtain ⟨o, ho, ht⟩ := List.mem_flatMap.mp ht
    refine .inr (List.mem_flatMap.mpr ⟨m, hm, List.mem_flatMap.mpr ⟨o, ho, ?_⟩⟩)
    exact List.mem_flatMap.mpr ⟨t, List.mem_append_left _ ht, hname⟩

end Resolve.Steps

/-! ## The names that the types use -/

namespace ClassModel

open ClassName

variable {c : ClassModel} {name : String}

/-- A class that is imported is known by its bare name. -/
theorem knows_of_imported (h : name ∈ c.imported) : c.Knows (parts name).2 := by
  right
  refine List.mem_flatMap.mpr ⟨.ofClass name, ?_, ?_⟩
  · exact List.mem_append_right _ (List.mem_map_of_mem h)
  · rw [Import.names_ofClass]
    exact List.mem_singleton_self _

/-- The root is always known. -/
theorem knows_root (h : ':' ∉ c.name.toList) : c.Knows root := by
  by_cases hroot : isRoot c.name = true
  · left
    rcases isRoot_iff.mp hroot with heq | heq
    · exact heq.symm
    · rw [heq] at h
      exact absurd (by decide) h
  · right
    refine List.mem_flatMap.mpr ⟨.root, ?_, List.mem_singleton_self _⟩
    rw [imports, if_neg hroot]
    simp

/-- Only plain names are known. -/
theorem Knows.not_mem (hname : ':' ∉ c.name.toList)
    (hnames : ∀ n ∈ c.localParent.toList ++ c.referenced, IsQualified n) (h : c.Knows name) :
    ':' ∉ name.toList := by
  rcases h with rfl | h
  · exact hname
  · obtain ⟨i, hi, hmem⟩ := List.mem_flatMap.mp h
    rcases List.mem_append.mp hi with hi | hi
    · have hfixed : ∀ i ∈ [Import.typing, .root], ∀ n ∈ i.names, ':' ∉ n.toList := by decide
      refine hfixed i ?_ name hmem
      split at hi
      · exact List.mem_of_mem_head? (congrArg some (List.mem_singleton.mp hi).symm)
      · exact hi
    · obtain ⟨n, hn, rfl⟩ := List.mem_map.mp hi
      rw [Import.names_ofClass, List.mem_singleton] at hmem
      rw [hmem]
      exact (hnames n (List.mem_filter.mp hn).1).not_mem_last

/-- The own class needs no import, and the root has one of its own. -/
theorem mem_imported (hmem : name ∈ c.referenced) (hroot : isRoot name = false)
    (hne : name ≠ c.name) : name ∈ c.imported := by
  refine List.mem_filter.mpr ⟨List.mem_append_right _ hmem, ?_⟩
  rw [hroot, Bool.not_false, Bool.true_and, bne_iff_ne]
  exact hne

/-- What is imported of a class of the project is its local name. -/
theorem knows_local (hname : ':' ∉ c.name.toList) (hmem : name ∈ c.referenced)
    (hroot : isRoot name = false) (hlocal : ':' ∉ (localTo c.ns name).toList) :
    c.Knows (localTo c.ns name) := by
  by_cases hne : name = c.name
  · left
    rw [hne, localTo_of_not_mem hname]
  · have hknows := knows_of_imported (mem_imported hmem hroot hne)
    rcases localTo_cases c.ns name with heq | ⟨-, heq⟩
    · rw [heq, parts_append hlocal] at hknows
      exact hknows
    · rw [heq] at hlocal ⊢
      rw [parts_of_not_mem hlocal] at hknows
      exact hknows

/-- How a class reference is written in Python, and when the name that it begins with is known. -/
theorem knows_reference_iff (hname : ':' ∉ c.name.toList)
    (hnames : ∀ n ∈ c.localParent.toList ++ c.referenced, IsQualified n)
    (hmem : name ∈ c.referenced) (isConst : Bool) (pointer : Pointer) :
    c.Knows (Text.upTo '.' (TypeExpr.renderReference c.ns name isConst pointer .python)) ↔
      isRoot name = true ∨ ':' ∉ (localTo c.ns name).toList ∨
        (Text.startsWith (c.ns ++ "::") name = false ∧ c.Knows (Text.upTo ':' name)) := by
  have hqualified : IsQualified name := hnames name (List.mem_append_right _ hmem)
  have hdot : '.' ∉ (localTo c.ns name).toList := hqualified.dot_not_mem_localTo c.ns
  by_cases hroot : isRoot name = true
  · rw [TypeExpr.renderReference_root hroot]
    exact iff_of_true (knows_root hname) (.inl hroot)
  rw [Bool.not_eq_true] at hroot
  rcases localTo_cases c.ns name with heq | ⟨hforeign, heq⟩
  · have hproject : Text.startsWith (c.ns ++ "::") name = true :=
      Text.startsWith_iff.mpr ⟨_, heq⟩
    rw [TypeExpr.renderReference_local hqualified hroot (.inr heq), Text.upTo_of_not_mem hdot]
    constructor
    · intro hknows
      exact .inr (.inl (hknows.not_mem hname hnames))
    · rintro (hroot' | hlocal | ⟨hforeign, -⟩)
      · exact absurd hroot' (Bool.eq_false_iff.mp hroot)
      · exact knows_local hname hmem hroot hlocal
      · exact absurd hproject (Bool.eq_false_iff.mp hforeign)
  · by_cases hcolon : ':' ∈ name.toList
    · rw [TypeExpr.upTo_renderReference hqualified hroot hcolon hforeign, heq]
      simp [hroot, hcolon, hforeign]
    · have hlocal : ':' ∉ (localTo c.ns name).toList := heq.symm ▸ hcolon
      rw [TypeExpr.renderReference_local hqualified hroot (.inl hcolon),
        Text.upTo_of_not_mem hdot]
      exact iff_of_true (knows_local hname hmem hroot hlocal) (.inr (.inl hlocal))

end ClassModel

/-- The lines of a stub that begin with `from` are its imports. In a class with names of the usual
form, a type that refers to a class begins with a name that the stub knows if and only if the class
is the root, or lies in the project and in no namespace inside of it, or lies in another project
whose first name happens to be known. -/
theorem knows_rendered_iff {ns : String} {doc : Document} {c : ClassModel}
    (h : resolve ⟨ns, .python⟩ doc = .ok c) (hname : ':' ∉ c.name.toList)
    (hnames : ∀ n ∈ c.localParent.toList ++ c.referenced, ClassName.IsQualified n)
    (context : Artifact.Context) :
    (∀ line, line ∈ Artifact.stub context c ∧ Text.startsWith "from " line = true ↔
      ∃ i ∈ c.imports, i.text = line) ∧
    ∀ t ∈ c.memberTypes, ∀ name isConst pointer source,
      (TypeExpr.reference name isConst pointer source).Within t →
      ∃ text, (TypeExpr.reference name isConst pointer source).render .python ns = .ok text ∧
        (c.Knows (Text.upTo '.' text) ↔
          ClassName.isRoot name = true ∨ ':' ∉ (ClassName.localTo ns name).toList ∨
            (Text.startsWith (ns ++ "::") name = false ∧ c.Knows (Text.upTo ':' name))) := by
  obtain ⟨s, rfl⟩ := Resolve.exists_steps h
  refine ⟨fun line => from_mem_stub, ?_⟩
  intro t ht name isConst pointer source hwithin
  refine ⟨TypeExpr.renderReference ns name isConst pointer .python, rfl, ?_⟩
  exact ClassModel.knows_reference_iff hname hnames (s.mem_referenced ht hwithin) isConst pointer

/-- References to a class of the project, under its full name, and to one of another project. -/
def mountDocument : Document where
  name := "Arm"
  methods := some [(.string "mount", .mapping [(.string "arguments", .sequence [
    .mapping [(.string "name", .string "frame"),
      (.string "type", .string "XTYPE(geometry::Frame)")],
    .mapping [(.string "name", .string "joints"),
      (.string "type", .string "VECTOR(XTYPE(robot::JointPtr))")]])])]

/-- A class of the own namespace is known. -/
theorem knows_mountDocument :
    ∃ c, resolve ⟨"robot", .python⟩ mountDocument = .ok c ∧
      c.memberTypes.flatMap TypeExpr.classNames = ["geometry::Frame", "robot::Joint"] ∧
      c.Knows "Joint" := by
  obtain ⟨c, hc, hname, hparent, hreferenced, hclasses⟩ :
      ∃ c, resolve ⟨"robot", .python⟩ mountDocument = .ok c ∧ c.name = "Arm" ∧
        c.localParent = none ∧ c.referenced = ["geometry::Frame", "robot::Joint"] ∧
        c.memberTypes.flatMap TypeExpr.classNames = ["geometry::Frame", "robot::Joint"] := by
    decide +kernel
  have hplain : ':' ∉ c.name.toList := by
    rw [hname]
    decide
  have hqualified : ∀ n ∈ c.localParent.toList ++ c.referenced, ClassName.IsQualified n := by
    rw [hparent, hreferenced]
    intro n hn
    rcases List.mem_pair.mp hn with rfl | rfl
    · exact @ClassName.IsQualified.under "geometry" "Frame" (by decide) (.plain (by decide))
    · exact @ClassName.IsQualified.under "robot" "Joint" (by decide) (.plain (by decide))
  have hjoint : "robot::Joint" ∈ c.memberTypes.flatMap TypeExpr.classNames := by
    rw [hclasses]
    decide
  obtain ⟨t, ht, hclass⟩ := List.mem_flatMap.mp hjoint
  obtain ⟨isConst, pointer, source, hwithin⟩ := (TypeExpr.mem_classNames t).mp hclass
  obtain ⟨text, htext, hknows⟩ :=
    (knows_rendered_iff hc hplain hqualified ⟨"robot", ""⟩).2 t ht _ _ _ _ hwithin
  obtain rfl : "Joint" = text := Except.ok.inj htext
  exact ⟨c, hc, hclasses, hknows.mpr (.inr (.inl (by decide)))⟩

/-- A class of another namespace is imported, but it is called through a module that is not. -/
theorem not_knows_mountDocument :
    ∃ c, resolve ⟨"robot", .python⟩ mountDocument = .ok c ∧
      (∃ t ∈ c.memberTypes, "geometry::Frame" ∈ t.classNames) ∧
      TypeExpr.renderReference "robot" "geometry::Frame" false .absent .python = "geometry.Frame" ∧
      Text.upTo '.' "geometry.Frame" = "geometry" ∧ ¬ c.Knows "geometry" ∧
      c.stubImports = ["from geometry import Frame", "from robot import Joint",
        "from xtypes_generator import XType"] := by
  decide +kernel

end ClassSchema
