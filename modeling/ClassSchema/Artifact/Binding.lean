import ClassSchema.Artifact.BaseClass

/-! # Python bindings of a class -/

namespace ClassSchema

namespace Artifact

/-- The project of the root class. -/
def runtimeProject : String := "xtypes_generator"

/-- The function that registers a class in a module. -/
def initFunction (project className : String) : String :=
  "PYBIND11_INIT_" ++ Text.upper project ++ "__" ++ Text.upper className

def propertyBinding (qualified : String) (p : Property) : String :=
  let accessor := p.accessor
  let count := (typeVariables [p.type]).length
  let arguments :=
    if count = 0 then ""
    else "< " ++ Text.join ", " (List.replicate count "nl::json") ++ " >"
  s!".def_property(\"{accessor}\", &{qualified}::get_{accessor}{arguments}, "
    ++ s!"&{qualified}::set_{accessor}{arguments})"

def relationBinding (qualified : String) (r : Relation) : List String :=
  let name := r.name
  [s!".def(\"get_{name}\", &{qualified}::get_{name})",
   s!".def(\"add_{name}\", &{qualified}::add_{name}, "
    ++ "py::arg(\"other\"), py::arg(\"props\") = nl::json::object())"]

def argumentBinding (a : Argument) : String :=
  let name := a.name
  match a.default with
  | some value => s!"py::arg(\"{name}\") = {value}"
  | none => s!"py::arg(\"{name}\")"

/-- The function to bind; among overloads it is chosen by its parameters. -/
def bindingTarget (qualified : String) (m : Method) (o : Overload) : String :=
  let name := m.name
  if m.isOverloaded then
    let parameters := Text.join ", " (o.arguments.map fun a => parameterType a.type a.rendered)
    let constness := if o.isConstMember then ", py::const_" else ""
    s!"py::overload_cast< {parameters} >(&{qualified}::{name}{constness})"
  else s!"&{qualified}::{name}"

/-- A template is bound once for each of its instances, which then takes the place of every type
variable. -/
def overloadBinding (qualified : String) (m : Method) (o : Overload) : List String :=
  let name := m.name
  let define := if o.isStatic then "def_static" else "def"
  let description := o.descriptionIn m
  let options := o.arguments.map argumentBinding
    ++ if description.isEmpty then [] else [Language.cpp.stringLiteral description]
  let trailing := Text.join "" (options.map (", " ++ ·))
  match o.typeVariables with
  | [] =>
      let target := bindingTarget qualified m o
      [s!".{define}(\"{name}\", {target}{trailing})"]
  | typeVariables => o.instances.map fun type =>
      let arguments := Text.join ", " (List.replicate typeVariables.length type)
      s!".{define}(\"{name}\", &{qualified}::template {name}< {arguments} >{trailing})"

def binding (context : Context) (c : ClassModel) : List String :=
  let name := c.name
  let qualified := c.qualifiedName
  let function := initFunction context.project name
  let parent := if ClassName.isRoot name then "" else c.qualifiedParent ++ ", "
  let members :=
    [s!".def(py::init< const std::string& >(), py::arg(\"classname\") = {qualified}::classname)",
     s!".def_readonly_static(\"classname\", &{qualified}::classname)"]
    ++ c.properties.map (propertyBinding qualified)
    ++ c.relations.flatMap (relationBinding qualified)
    ++ c.methods.flatMap fun m => m.overloads.flatMap (overloadBinding qualified m)
  let chain :=
    s!"    py::class_< {qualified}, {parent}std::shared_ptr< {qualified} > >(m, \"{name}\")"
      :: Lines.indent 8 members
  header .binding context name
    ++ ["#include <pybind11/pybind11.h>",
        "#include <pybind11/stl.h>",
        "#include <pybind11/functional.h>",
        "#include <nlohmann/json.hpp>",
        "#include <pybind11_json/pybind11_json.hpp>",
        "",
        s!"#include \"{name}.hpp\"",
        "",
        "namespace py = pybind11;",
        "namespace nl = nlohmann;",
        "",
        "PYBIND11_EXPORT",
        s!"void {function}(py::module_& m)",
        "\x7b",
        Text.join "\n" chain ++ ";",
        "\x7d"]

end Artifact

end ClassSchema
