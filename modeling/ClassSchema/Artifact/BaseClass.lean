import ClassSchema.Artifact.Header
import ClassSchema.Artifact.Signature

/-! # The base class, generated anew in every run

It holds the properties and relations; the user's class derives from it. -/

namespace ClassSchema

namespace ClassModel

def baseName (c : ClassModel) : String := "_" ++ c.name

/-- The file that declares the parent. -/
def parentInclude (c : ClassModel) : String :=
  match c.localParent with
  | none => Artifact.rootInclude
  | some parent =>
      if ClassName.isRoot parent then Artifact.rootInclude
      else match ClassName.parts parent with
        | (some ns, name) => "<" ++ Text.replace "::" "/" ns ++ "/" ++ name ++ ".hpp>"
        | (none, name) => s!"\"{name}.hpp\""

/-- Adds a name to the group of its namespace. -/
def addToGroup (ns name : String) (groups : List (String × List String)) :
    List (String × List String) :=
  setEntry ns (insertName name ((groups.lookup ns).getD [])) groups

/-- The classes to declare before use, grouped by namespace: all that are mentioned but the class
itself and the root. -/
def forwardGroups (c : ClassModel) : List (String × List String) :=
  c.referenced.foldl (fun groups referenced =>
    let qualified := ClassName.qualify referenced c.ns
    if qualified = c.qualifiedName || ClassName.isRoot qualified then groups
    else match ClassName.parts qualified with
      | (some ns, name) => addToGroup ns name groups
      | (none, _) => groups) []

def forwardDeclarations (c : ClassModel) : List String :=
  c.forwardGroups.flatMap fun (ns, names) =>
    s!"namespace {ns}" :: Lines.braces (names.flatMap Artifact.pointerAliases) ++ [""]

end ClassModel

namespace Property

def setterParameter (p : Property) : String := Artifact.parameterType p.type p.rendered ++ " value"

def isTemplate (p : Property) : Bool := p.type.hasPlaceholder

def declaration (p : Property) : List String :=
  let path := p.path
  let rendered := p.rendered
  let accessor := p.accessor
  let getter := s!"{rendered} get_{accessor}() const"
  let accessors :=
    match Artifact.typeVariables [p.type] with
    | [] =>
        let parameter := p.setterParameter
        let virtual := if p.advancedSetter then "virtual " else ""
        [getter ++ ";", s!"{virtual}void set_{accessor}({parameter});"]
    | typeVariables =>
        let head := Artifact.templateHead typeVariables
        [head, getter]
          ++ Lines.braces [s!"return this->get_property(\"{path}\").template get< {rendered} >();"]
          ++ [head, s!"void set_{accessor}(const {rendered}& value)"]
          ++ Lines.braces [s!"this->set_property(\"{path}\", value);"]
  ["", s!"/// Property '{path}'"] ++ accessors

def definition (p : Property) : String :=
  let path := p.path
  let kind := (p.jsonKind?.map JsonKind.cppValueType).getD "nl::json::value_t::discarded"
  let allowed := Text.join ", " p.allowed
  let default := p.default.getD "\x7b\x7d"
  s!"this->define_property(\"{path}\", {kind}, \x7b{allowed}\x7d, {default});"

/-- The accessors of a property, unless they are templates. -/
def accessors (base : String) (p : Property) : List String :=
  if p.isTemplate then []
  else
    let path := p.path
    let rendered := p.rendered
    let accessor := p.accessor
    let parameter := p.setterParameter
    ["", s!"{rendered} {base}::get_{accessor}() const"]
      ++ Lines.braces [s!"return this->get_property(\"{path}\").get< {rendered} >();"]
      ++ ["", s!"void {base}::set_{accessor}({parameter})"]
      ++ Lines.braces [s!"this->set_property(\"{path}\", value);"]

end Property

namespace Relation

def declaration (r : Relation) : List String :=
  let name := r.name
  let kind := r.kind
  let targets := Text.join ", " r.targets
  let virtual := if r.advancedSetter then "virtual " else ""
  let parameters := Artifact.adderParameters
  ["",
   s!"/// Relation '{name}' ({kind}) to {targets}",
   s!"const std::vector< xtypes::Fact > get_{name}();",
   s!"{virtual}void add_{name}({parameters});"]

def definition (owner : String) (r : Relation) : String :=
  let name := r.name
  let kind := r.kind
  let targets := Text.join ", " (r.targets.map fun t => "\"" ++ t ++ "\"")
  let cardinality := r.cardinality
  let policy := r.deletePolicy
  let extra := Language.cpp.mapLiteral r.extra
  let supertype := r.subtypeOf
  let inverse := Language.cpp.boolLiteral r.inverse
  s!"this->define_relation(\"{name}\", xtypes::RelationType::{kind}, "
    ++ s!"\x7b\"{owner}\"\x7d, \x7b{targets}\x7d, "
    ++ s!"xtypes::Constraint::{cardinality}, xtypes::DeletePolicy::{policy}, {extra}, "
    ++ s!"xtypes::RelationType::{supertype}, {inverse});"

def accessors (base : String) (r : Relation) : List String :=
  let name := r.name
  ["", s!"const std::vector< xtypes::Fact > {base}::get_{name}()"]
    ++ Lines.braces [s!"return this->get_facts(\"{name}\");"]
    ++ ["", s!"void {base}::add_{name}(xtypes::XTypeCPtr other, const nl::json& props)"]
    ++ Lines.braces [s!"this->add_fact(\"{name}\", other, props);"]

end Relation

namespace UriPart

/-- Appends a part to the URI; a required one must be set. -/
def segment (className base : String) (p : UriPart) : List String :=
  let name := p.name
  let missing :=
    s!"throw std::invalid_argument(\"{className}::uri(): required field '{name}' is not set\");"
  let append := "append(value.is_string() ? value.get< std::string >() : value.dump());"
  Lines.braces <|
    if p.source = .relation then
      s!"const auto facts = const_cast< {base}* >(this)->get_facts(\"{name}\");"
        :: (if p.required then "if (facts.empty())" :: Lines.braces [missing] else [])
        ++ "for (const auto& fact : facts)" :: Lines.braces
          ("if (const auto target = fact.target.lock())" :: Lines.braces ["append(target->uri());"])
    else
      s!"const nl::json value = this->get_property(\"{name}\");"
        :: if p.required then "if (value.is_null())" :: Lines.braces [missing] ++ [append]
          else "if (!value.is_null())" :: Lines.braces [append]

end UriPart

/-- The function that computes the URI. -/
def Uri.definition (className base : String) (u : Uri) : List String :=
  let scheme := u.scheme
  let rootPath := String.ofList (u.rootPath.toList.dropWhile (· == '/'))
  ["", s!"std::string {base}::uri() const"] ++ Lines.braces (
    [s!"std::string result = \"{scheme}://{rootPath}\";",
     "auto append = [&result](const std::string& segment) \x7b"]
    ++ Lines.indent 4 ("if (!result.empty() && result.back() != '/')"
      :: Lines.braces ["result += \"/\";"] ++ ["result += segment;"])
    ++ ["\x7d;"]
    ++ u.parts.flatMap (UriPart.segment className base)
    ++ ["return result;"])

namespace Artifact

def baseHeader (context : Context) (c : ClassModel) : List String :=
  let ns := c.ns
  let base := c.baseName
  let parent := c.qualifiedParent
  let file := c.parentInclude
  let members :=
    ["/// Name under which instances are registered",
     "static const std::string classname;",
     "",
     s!"explicit {base}(const std::string& classname = {base}::classname);",
     s!"virtual ~{base}() = default;"]
    ++ c.properties.flatMap Property.declaration
    ++ c.relations.flatMap Relation.declaration
    ++ if c.uri.isSome then
        ["", "/// Computes the URI from the configured fields",
         "std::string uri() const override;"]
      else []
  header .baseHeader context c.name
    ++ ["#pragma once", "",
        "#include <memory>", "#include <string>", "#include <vector>",
        "#include <nlohmann/json.hpp>", s!"#include {file}", "",
        "namespace nl = nlohmann;", ""]
    ++ c.forwardDeclarations
    ++ s!"namespace {ns}" :: Lines.braces (
      pointerAliases c.name
      ++ ["", s!"class {base} : public {parent}", "\x7b", "  public:"]
      ++ Lines.indent 4 members ++ ["\x7d;"])

def baseSource (context : Context) (c : ClassModel) : List String :=
  let ns := c.ns
  let base := c.baseName
  let parent := c.qualifiedParent
  let qualified := c.qualifiedName
  header .baseSource context c.name
    ++ [s!"#include \"{base}.hpp\"", "", "#include <stdexcept>", ""]
    ++ s!"namespace {ns}" :: Lines.braces (
      [s!"const std::string {base}::classname = \"{qualified}\";",
       "",
       s!"{base}::{base}(const std::string& classname)",
       s!"    : {parent}(classname)"]
      ++ Lines.braces (c.properties.map Property.definition
        ++ c.relations.map (Relation.definition qualified))
      ++ c.properties.flatMap (Property.accessors base)
      ++ c.relations.flatMap (Relation.accessors base)
      ++ (c.uri.map (Uri.definition c.name base)).getD [])

end Artifact

end ClassSchema
