import ClassSchema.Artifact.Project
import ClassSchema.Proofs.Artifact.Lines
import ClassSchema.Proofs.Batch.Ancestry
import ClassSchema.Proofs.Text.Sorted

/-! # The functions that register classes

The module of a project declares and calls one function for each class that it registers, in the
order of the batch. The functions are named in upper case and listed once, so two classes whose
names differ only in the case of letters share one function, at the place of the first of them. -/

namespace ClassSchema

/-! ## Letters of either case -/

namespace ClassName

/-- Texts of the same length that differ at most in the case of ASCII letters. -/
def SameButCase (s t : String) : Prop :=
  List.Forall₂ (fun a b => a.toUpper = b.toUpper) s.toList t.toList

/-- Texts become the same in capitals if they are the same but for case. -/
theorem upper_eq_upper {s t : String} : Text.upper s = Text.upper t ↔ SameButCase s t := by
  rw [Text.upper, Text.upper, String.ofList_inj, ← List.forall₂_eq_eq_eq,
    List.forall₂_map_left_iff, List.forall₂_map_right_iff]
  rfl

instance : DecidableRel SameButCase := fun _ _ => decidable_of_iff _ upper_eq_upper

end ClassName

namespace Artifact

open ClassName Lines

/-- Two classes have the same function if their names are the same but for case. -/
theorem initFunction_eq_initFunction {project m n : String} :
    initFunction project m = initFunction project n ↔ SameButCase m n := by
  have hfunction (name : String) : initFunction project name =
      "PYBIND11_INIT_" ++ Text.upper project ++ "__" ++ Text.upper name := rfl
  rw [hfunction, hfunction, ← upper_eq_upper, ← String.toList_inj, ← String.toList_inj]
  simp

/-! ## What the module says -/

/-- The functions that the module declares, in the order of its lines. -/
def declarations (b : BatchContext) : List String :=
  (bindingModule b).filterMap (between? "void " "(py::module_& m);")

/-- The functions that the module calls, in the order of its lines. -/
def calls (b : BatchContext) : List String :=
  (bindingModule b).filterMap (between? "    " "(m);")

section Parts

variable (b : BatchContext)

/-- The lines before the declarations. -/
def opening : List String :=
  header .bindingModule b.context b.context.project
    ++ "#include <pybind11/pybind11.h>"
      :: (if b.registry then ["#include \"xtypes.hpp\""] else [])
    ++ ["", "namespace py = pybind11;", ""]

/-- The lines between the declarations and the calls. -/
def middle : List String :=
  ["", s!"PYBIND11_MODULE({b.context.project}, m)", "\x7b"]
    ++ Lines.indent 4 (s!"m.doc() = \"Python bindings of project {b.context.project}\";"
      :: if b.context.project == runtimeProject then []
        else ["py::module_::import(\"" ++ runtimeProject ++ "\");"])

/-- The lines after the calls. -/
def closing : List String :=
  Lines.indent 4 (if b.registry then
      [s!"m.def(\"ProjectRegistry\", &{b.context.project}::new_project_registry, "
        ++ "\"Creates a registry that knows every class of the project\");"]
    else []) ++ ["\x7d"]

/-- The module declares all functions, and then it calls them. -/
theorem bindingModule_parts : bindingModule b = opening b
    ++ (initFunctions b).map ("void " ++ · ++ "(py::module_& m);") ++ middle b
    ++ (initFunctions b).map ("    " ++ · ++ "(m);") ++ closing b := by
  have hindent (lines lines' : List String) :
      Lines.indent 4 (lines ++ lines') = Lines.indent 4 lines ++ Lines.indent 4 lines' :=
    List.map_append
  have hcalls : (initFunctions b).map ("    " ++ · ++ "(m);")
      = Lines.indent 4 ((initFunctions b).map (· ++ "(m);")) := by
    rw [Lines.indent, List.map_map]
    apply List.map_congr_left
    intro f _
    simp [String.append_assoc, Lines.pad]
  rw [hcalls]
  unfold bindingModule opening middle closing Lines.braces
  dsimp only
  rw [hindent, hindent]
  simp only [List.append_assoc, List.cons_append, List.nil_append, toString]

end Parts

/-- A line that ends with a text in quotes. -/
def EndsQuoted (line : String) : Prop := ∃ stem, line = stem ++ "\";" ∨ line = stem ++ "\");"

/-- A line that is no declaration and no call: it begins otherwise, or ends with a quoted text. -/
def Aside (line : String) : Prop :=
  (line.toList.head? ≠ some 'v' ∧ line.toList.head? ≠ some ' ') ∨
    (line.toList.head? = some ' ' ∧ EndsQuoted line)

section Aside

variable {b : BatchContext} {line : String}

/-- Such a line declares no function. -/
theorem Aside.not_declaration (h : Aside line) :
    between? "void " "(py::module_& m);" line = none := by
  refine between?_of_head? (by decide) ?_ _
  rcases h with ⟨hhead, -⟩ | ⟨hhead, -⟩
  · exact hhead
  · rw [hhead]
    decide

/-- Nor does it call one. -/
theorem Aside.not_call (h : Aside line) : between? "    " "(m);" line = none := by
  rcases h with ⟨-, hhead⟩ | ⟨-, stem, hstem⟩
  · exact between?_of_head? (by decide) hhead _
  · rw [Option.eq_none_iff_forall_ne_some]
    intro f hf
    -- A call ends with a letter, a parenthesis and a semicolon.
    have hend := congrArg (fun s => s.toList.reverse.take 3) (between?_eq_some.mp hf)
    rcases hstem with rfl | rfl <;> simp at hend

/-- Nothing is declared or called before the declarations. -/
theorem aside_of_mem_opening (h : line ∈ opening b) : Aside line := by
  left
  simp only [opening, List.mem_append, List.mem_cons, List.not_mem_nil, or_false] at h
  rcases h with (hheader | rfl | hinclude) | rfl | rfl | rfl
  · rw [head?_of_mem_header hheader]
    decide
  · decide
  · rw [List.mem_ite_nil_right] at hinclude
    rw [List.mem_singleton.mp hinclude.2]
    decide
  all_goals decide

theorem aside_of_mem_indent {lines : List String} (hlines : ∀ l ∈ lines, EndsQuoted l)
    (h : line ∈ Lines.indent 4 lines) : Aside line := by
  obtain ⟨l, hl, rfl⟩ := List.mem_map.mp h
  obtain ⟨stem, hstem⟩ := hlines l hl
  have hne : l.isEmpty = false := by
    rcases hstem with rfl | rfl <;> simp
  rw [hne]
  refine .inr ⟨by simp [Lines.pad], Lines.pad 4 ++ stem, ?_⟩
  rcases hstem with rfl | rfl
  · exact .inl (String.append_assoc ..).symm
  · exact .inr (String.append_assoc ..).symm

/-- Nor is it between the declarations and the calls. -/
theorem aside_of_mem_middle (h : line ∈ middle b) : Aside line := by
  simp only [middle, List.mem_append, List.mem_cons, List.not_mem_nil, or_false] at h
  rcases h with (rfl | rfl | rfl) | h
  · exact .inl (by decide)
  · exact .inl (by simp [toString])
  · exact .inl (by decide)
  · refine aside_of_mem_indent ?_ h
    rw [List.forall_mem_cons]
    refine ⟨⟨_, .inl rfl⟩, ?_⟩
    intro l hl
    split at hl
    · cases hl
    · exact ⟨_, .inr (List.mem_singleton.mp hl)⟩

/-- Nor is it after the calls. -/
theorem aside_of_mem_closing (h : line ∈ closing b) : Aside line := by
  rcases List.mem_append.mp h with h | h
  · refine aside_of_mem_indent ?_ h
    intro l hl
    rw [List.mem_ite_nil_right] at hl
    have hquote : "\"Creates a registry that knows every class of the project\");"
        = "\"Creates a registry that knows every class of the project" ++ "\");" := rfl
    rw [List.mem_singleton.mp hl.2, hquote, ← String.append_assoc]
    exact ⟨_, .inr rfl⟩
  · rw [List.mem_singleton.mp h]
    exact .inl (by decide)

end Aside

section Views

variable (b : BatchContext)

/-- What is not found in the other lines is found in the declarations and calls only. -/
theorem filterMap_bindingModule {f : String → Option String}
    (h : ∀ line, Aside line → f line = none) : (bindingModule b).filterMap f =
      ((initFunctions b).map ("void " ++ · ++ "(py::module_& m);")).filterMap f
        ++ ((initFunctions b).map ("    " ++ · ++ "(m);")).filterMap f := by
  have hparts {lines : List String} (hlines : ∀ line ∈ lines, Aside line) :
      lines.filterMap f = [] :=
    List.filterMap_eq_nil_iff.mpr fun line hline => h line (hlines line hline)
  rw [bindingModule_parts, List.filterMap_append, List.filterMap_append, List.filterMap_append,
    List.filterMap_append, hparts fun _ => aside_of_mem_opening,
    hparts fun _ => aside_of_mem_middle, hparts fun _ => aside_of_mem_closing]
  simp

/-- The functions are declared in their order. -/
theorem declarations_eq : declarations b = initFunctions b := by
  have hcalls : ((initFunctions b).map ("    " ++ · ++ "(m);")).filterMap
      (between? "void " "(py::module_& m);") = [] := by
    rw [List.filterMap_eq_nil_iff, List.forall_mem_map]
    intro f _
    exact between?_of_head? (by decide) (by simp) _
  rw [declarations, filterMap_bindingModule b fun _ => Aside.not_declaration, filterMap_between?,
    hcalls, List.append_nil]

/-- They are called in the same order. -/
theorem calls_eq : calls b = initFunctions b := by
  have hdeclarations : ((initFunctions b).map ("void " ++ · ++ "(py::module_& m);")).filterMap
      (between? "    " "(m);") = [] := by
    rw [List.filterMap_eq_nil_iff, List.forall_mem_map]
    intro f _
    exact between?_of_head? (by decide) (by simp) _
  rw [calls, filterMap_bindingModule b fun _ => Aside.not_call, filterMap_between?, hdeclarations,
    List.nil_append]

end Views

/-! ## The classes that are registered -/

/-- The classes of a batch but for the root, which is registered by its own project only, and there
first. -/
def registered (project : String) (classes : List String) : List String :=
  if project = runtimeProject then root :: classes.filter (· != root)
  else classes.filter fun name => !isRoot name

/-- A class that comes first need not be left out later, as repeated functions are. -/
theorem firstOccurrences_cons_filter (f : String → String) (n : String) (names : List String) :
    firstOccurrences (f n :: (names.filter (· != n)).map f)
      = firstOccurrences (f n :: names.map f) := by
  -- From the end of the list: what is filtered out there has been met at the start.
  induction names using List.reverseRecOn with
  | nil => rfl
  | append_singleton names m ih =>
      rw [List.filter_append, List.map_append, List.map_append, ← List.cons_append,
        ← List.cons_append, List.map_singleton, firstOccurrences_concat (f n :: names.map f), ← ih]
      by_cases hm : m = n
      · subst hm
        have hmem : f m ∈ firstOccurrences (f m :: (names.filter (· != m)).map f) :=
          mem_firstOccurrences.mpr List.mem_cons_self
        simp [hmem]
      · have hfilter : [m].filter (· != n) = [m] := by simp [hm]
        rw [hfilter, List.map_singleton, firstOccurrences_concat]

/-- The functions are those of the registered classes, without repetition. -/
theorem initFunctions_eq (b : BatchContext) : initFunctions b = firstOccurrences
    ((registered b.context.project b.classes).map (initFunction b.context.project)) := by
  unfold initFunctions registered
  by_cases hruntime : b.context.project = runtimeProject
  · simp [hruntime, firstOccurrences_cons_filter]
  · have hroot : isRoot root = true := rfl
    simp [beq_false_of_ne hruntime, hruntime, hroot]

section Registered

variable {project name : String} {classes : List String}

/-- All classes are registered, but the root only in its own project, where it always is. -/
theorem mem_registered : name ∈ registered project classes ↔
    (name ∈ classes ∧ (isRoot name = true → project = runtimeProject)) ∨
      (name = root ∧ project = runtimeProject) := by
  unfold registered
  split
  · rename_i hruntime
    by_cases hname : name = root <;> simp [hruntime, hname]
  · rename_i hruntime
    simp [hruntime]

/-- No class is registered twice. -/
theorem registered_nodup (h : classes.Nodup) : (registered project classes).Nodup := by
  unfold registered
  split
  · refine List.nodup_cons.mpr ⟨?_, h.filter _⟩
    simp
  · exact h.filter _

/-- The classes that are registered keep their order, the root apart. -/
theorem registered_sublist {m n : String} (h : [m, n].Sublist classes)
    (hm : m ∈ registered project classes) (hn : n ∈ registered project classes)
    (hroot : n ≠ root) : [m, n].Sublist (registered project classes) := by
  unfold registered at *
  by_cases hruntime : project = runtimeProject
  · rw [if_pos hruntime] at *
    have hfilter := h.filter (· != root)
    by_cases hm' : m = root
    · subst hm'
      have hn := (List.mem_cons.mp hn).resolve_left hroot
      exact (List.singleton_sublist.mpr hn).cons_cons _
    · refine List.Sublist.cons _ ?_
      simpa [hm', hroot] using hfilter
  · rw [if_neg hruntime] at *
    have hfilter := h.filter fun name => !isRoot name
    rw [List.mem_filter] at hm hn
    simpa [hm.2, hn.2] using hfilter

end Registered

section Calls

variable (b : BatchContext)

/-- The calls run through the registered classes, one for each, if no two share a function. -/
theorem calls_eq_iff :
    calls b = (registered b.context.project b.classes).map (initFunction b.context.project) ↔
      (registered b.context.project b.classes).Pairwise fun m n => ¬ SameButCase m n := by
  rw [calls_eq, initFunctions_eq, firstOccurrences_eq_self_iff, List.Nodup, List.pairwise_map]
  simp only [ne_eq, initFunction_eq_initFunction]

/-- Each registered class has its function called, and no other function is. -/
theorem mem_calls {f : String} : f ∈ calls b ↔
    ∃ name ∈ registered b.context.project b.classes, initFunction b.context.project name = f := by
  rw [calls_eq, initFunctions_eq, mem_firstOccurrences, List.mem_map]

/-- In the project of the root, the root is registered first. -/
theorem calls_head? (h : b.context.project = runtimeProject) :
    (calls b).head? = some (initFunction b.context.project root) := by
  obtain ⟨names, hnames⟩ : ∃ names, registered b.context.project b.classes = root :: names :=
    ⟨_, if_pos h⟩
  rw [calls_eq, initFunctions_eq, hnames, List.map_cons, head?_firstOccurrences]
  rfl

end Calls

/-- The module declares and calls the same functions, each of them once: those of the classes of the
batch but for the root, which has a function in the module of its own project only, and there the
first one. There is one call for each class, in the order of the batch, exactly if no two of the
names differ in the case of letters only; a class is then registered after its parent, unless one of
them is the root under some name. -/
theorem calls_eq_map_iff {classes : List ClassModel} {b : BatchContext} {namespaces : List String}
    (valid : Batch.validate classes = .ok ())
    (h : Batch.order classes = .ok ⟨b.classes, namespaces⟩) :
    let project := b.context.project
    let names := registered project b.classes
    declarations b = calls b ∧ (calls b).Nodup ∧
    (∀ f, f ∈ calls b ↔ ∃ name ∈ names, initFunction project name = f) ∧
    (names.Nodup ∧ ∀ name, name ∈ names ↔
      (name ∈ classes.map ClassModel.name ∧ (isRoot name = true → project = runtimeProject)) ∨
        (name = root ∧ project = runtimeProject)) ∧
    (project = runtimeProject → (calls b).head? = some (initFunction project root)) ∧
    (calls b = names.map (initFunction project) ↔ names.Pairwise fun m n => ¬ SameButCase m n) ∧
    ((names.Pairwise fun m n => ¬ SameButCase m n) →
      ∀ c ∈ classes, ∀ d, Batch.ParentIn classes c d → c.name ∈ names → d.name ∈ names →
        c.name ≠ root → d.name ≠ qualifiedRoot →
          [initFunction project d.name, initFunction project c.name].Sublist (calls b)) := by
  intro project names
  have distinct := Batch.names_nodup_of_validate valid
  have hmem (name : String) : name ∈ b.classes ↔ name ∈ classes.map ClassModel.name :=
    Batch.mem_classes_of_order h
  refine ⟨?_, ?_, fun f => mem_calls b, ⟨registered_nodup (Batch.listed_nodup h), ?_⟩,
    calls_head? b, calls_eq_iff b, ?_⟩
  · rw [declarations_eq, calls_eq]
  · rw [calls_eq, initFunctions_eq]
    exact firstOccurrences_nodup _
  · intro name
    rw [mem_registered, hmem]
  · intro hapart c hc d hparent hcname hdname hroot hqualified
    have hlisted : [d.name, c.name].Sublist b.classes :=
      Batch.listed_after_parent h distinct hc hparent hroot hqualified
    rw [(calls_eq_iff b).mpr hapart]
    exact (registered_sublist hlisted hdname hcname hroot).map (initFunction project)

/-- A chain of two classes below the root. -/
def limbs : List ClassModel :=
  [{ (default : ClassModel) with name := "Arm", parent := some "Limb" },
    { (default : ClassModel) with name := "Limb", parent := some "XType" },
    { (default : ClassModel) with name := "XType" }]

/-- The files of a batch of a project, which has no registry. -/
def batchOf (project : String) (classes : List String) : BatchContext :=
  { context := { project, comment := "" }, classes, registry := false }

/-- A project that has the root. -/
theorem calls_limbs : Batch.validate limbs = .ok () ∧
    Batch.order limbs = .ok ⟨["XType", "Limb", "Arm"], []⟩ ∧
    calls (batchOf "xtypes_generator" ["XType", "Limb", "Arm"]) =
      ["PYBIND11_INIT_XTYPES_GENERATOR__XTYPE", "PYBIND11_INIT_XTYPES_GENERATOR__LIMB",
        "PYBIND11_INIT_XTYPES_GENERATOR__ARM"] := by
  have valid : Batch.validate limbs = .ok () := by decide +kernel
  have h : Batch.order limbs = .ok ⟨["XType", "Limb", "Arm"], []⟩ := by decide +kernel
  obtain ⟨-, -, -, -, -, hcalls, -⟩ :=
    calls_eq_map_iff (b := batchOf "xtypes_generator" ["XType", "Limb", "Arm"]) valid h
  refine ⟨valid, h, (hcalls.mpr ?_).trans ?_⟩
  · decide +kernel
  · decide +kernel

/-- Two classes under one name in upper case, the second of which derives from a third. -/
def twins : List ClassModel :=
  [{ (default : ClassModel) with name := "ARM" },
    { (default : ClassModel) with name := "Base" },
    { (default : ClassModel) with name := "Arm", parent := some "Base" }]

/-- Three classes share two functions, and that of `Arm` is called before that of its parent. -/
theorem calls_twins : Batch.validate twins = .ok () ∧
    Batch.order twins = .ok ⟨["ARM", "Base", "Arm"], []⟩ ∧
    calls (batchOf "robot" ["ARM", "Base", "Arm"]) =
      ["PYBIND11_INIT_ROBOT__ARM", "PYBIND11_INIT_ROBOT__BASE"] ∧
    initFunction "robot" "Arm" = "PYBIND11_INIT_ROBOT__ARM" := by
  refine ⟨by decide +kernel, by decide +kernel, (calls_eq _).trans ?_, by decide +kernel⟩
  decide +kernel

end Artifact

end ClassSchema
