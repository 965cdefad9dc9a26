import ClassSchema.Artifact.BaseClass
import ClassSchema.Text.Blank

/-! # The user's class

Its methods are declared in the header. Templates get a body there, all others in the source. -/

namespace ClassSchema

namespace Artifact

def notImplemented (className method : String) : String :=
  s!"throw std::runtime_error(\"{className}::{method}() is not implemented yet\");"

/-- The lines of a description as comments. -/
def descriptionComment (description : String) : List String :=
  (Chars.lines description.toList).map fun line =>
    let line := String.ofList (Chars.trimEnd line)
    if line.isEmpty then "///" else "/// " ++ line

def overloadDeclaration (className : String) (m : Method) (o : Overload) : List String :=
  let signature := o.signature m.name true
  "" :: descriptionComment (o.descriptionIn m) ++
    match o.typeVariables with
    | [] => [signature ++ ";"]
    | typeVariables =>
        templateHead typeVariables :: signature :: Lines.braces [notImplemented className m.name]

def overloadDefinition (className : String) (m : Method) (o : Overload) : List String :=
  if o.isTemplate then []
  else
    let signature := o.signature (className ++ "::" ++ m.name) false
    ["", (Text.stripStart? "static " signature).getD signature]
      ++ Lines.braces [notImplemented className m.name]

end Artifact

/-- Properties whose setter the user may replace. -/
def ClassModel.customSetters (c : ClassModel) : List Property :=
  c.properties.filter fun p => p.advancedSetter && !p.isTemplate

/-- Relations whose setter the user may replace. -/
def ClassModel.customAdders (c : ClassModel) : List Relation :=
  c.relations.filter Relation.advancedSetter

namespace Artifact

def skeletonHeader (context : Context) (c : ClassModel) : List String :=
  let name := c.name
  let ns := c.ns
  let base := c.baseName
  let setter (p : Property) : List String :=
    let accessor := p.accessor
    let parameter := p.setterParameter
    ["", s!"void set_{accessor}({parameter}) override;"]
  let adder (r : Relation) : List String :=
    let relation := r.name
    let parameters := adderParameters
    ["", s!"void add_{relation}({parameters}) override;"]
  let members :=
    [s!"explicit {name}(const std::string& classname = {base}::classname);",
     s!"~{name}() override = default;"]
    ++ c.customSetters.flatMap setter
    ++ c.customAdders.flatMap adder
    ++ c.methods.flatMap fun m => m.overloads.flatMap (overloadDeclaration name m)
  header .skeletonHeader context name
    ++ ["#pragma once", "", s!"#include \"{base}.hpp\"", "", "#include <stdexcept>", ""]
    ++ s!"namespace {ns}" :: Lines.braces (
      [s!"class {name} : public {base}", "\x7b", "  public:"]
      ++ Lines.indent 4 members ++ ["\x7d;"])

def skeletonSource (context : Context) (c : ClassModel) : List String :=
  let name := c.name
  let ns := c.ns
  let base := c.baseName
  let setter (p : Property) : List String :=
    let accessor := p.accessor
    let parameter := p.setterParameter
    ["", s!"void {name}::set_{accessor}({parameter})"]
      ++ Lines.braces [s!"{base}::set_{accessor}(value);"]
  let adder (r : Relation) : List String :=
    let relation := r.name
    ["", s!"void {name}::add_{relation}(xtypes::XTypeCPtr other, const nl::json& props)"]
      ++ Lines.braces [s!"{base}::add_{relation}(other, props);"]
  header .skeletonSource context name
    ++ [s!"#include \"{name}.hpp\"", ""]
    ++ s!"namespace {ns}" :: Lines.braces (
      [s!"{name}::{name}(const std::string& classname)", s!"    : {base}(classname)"]
      ++ Lines.braces []
      ++ c.customSetters.flatMap setter
      ++ c.customAdders.flatMap adder
      ++ c.methods.flatMap fun m => m.overloads.flatMap (overloadDefinition name m))

end Artifact

end ClassSchema
