import ClassSchema.Artifact.Binding

/-! # Files of a whole batch -/

namespace ClassSchema.Artifact

/-- What the files of a batch are made of. -/
structure BatchContext where
  context : Context
  /-- The classes in the order of the batch. -/
  classes : List String
  registry : Bool
deriving Repr, Inhabited

/-- The header that includes all classes and creates their registry. -/
def umbrellaHeader (b : BatchContext) : List String :=
  let project := b.context.project
  let classes := b.classes.filter (· != ClassName.root)
  header .umbrellaHeader b.context project
    ++ ["#pragma once", "", "#include " ++ rootInclude,
        "#include <xtypes_generator/XTypeRegistry.hpp>"]
    ++ classes.map (fun name => s!"#include \"{name}.hpp\"")
    ++ ["", s!"namespace {project}"]
    ++ Lines.braces (
      ["/// Creates a registry that knows every class of the project",
       "inline xtypes::XTypeRegistryPtr new_project_registry()"]
      ++ Lines.braces (
        "auto registry = std::make_shared< xtypes::XTypeRegistry >();"
          :: classes.map (fun name => s!"registry->register_class< {name} >();")
          ++ ["return registry;"]))

/-- The functions that register the classes. The root is registered by its own project only, and
there before all others. -/
def initFunctions (b : BatchContext) : List String :=
  let project := b.context.project
  let classes := (ClassName.root :: b.classes).filter fun name =>
    !ClassName.isRoot name || project == runtimeProject
  firstOccurrences (classes.map (initFunction project))

/-- The source that registers all classes in one module. -/
def bindingModule (b : BatchContext) : List String :=
  let project := b.context.project
  let functions := initFunctions b
  header .bindingModule b.context project
    ++ "#include <pybind11/pybind11.h>"
      :: (if b.registry then ["#include \"xtypes.hpp\""] else [])
    ++ ["", "namespace py = pybind11;", ""]
    ++ functions.map (fun f => s!"void {f}(py::module_& m);")
    ++ ["", s!"PYBIND11_MODULE({project}, m)"]
    ++ Lines.braces (
      s!"m.doc() = \"Python bindings of project {project}\";"
        :: (if project == runtimeProject then []
          else ["py::module_::import(\"" ++ runtimeProject ++ "\");"])
        ++ functions.map (fun f => s!"{f}(m);")
        ++ if b.registry then
            [s!"m.def(\"ProjectRegistry\", &{project}::new_project_registry, "
              ++ "\"Creates a registry that knows every class of the project\");"]
          else [])

end ClassSchema.Artifact
