import ClassSchema.Artifact.Binding

/-! # Typing stubs of a class -/

namespace ClassSchema

namespace ClassModel

/-- The parent as the stub calls it. -/
def stubParent (c : ClassModel) : String :=
  if ClassName.isRoot c.name then "object"
  else match c.localParent with
    | some parent =>
        if ClassName.isRoot parent then ClassName.root else (ClassName.parts parent).2
    | none => ClassName.root

/-- The line that imports a class. -/
def importLine (name : String) : String :=
  match ClassName.parts name with
  | (some ns, last) => "from " ++ Text.replace "::" "." ns ++ " import " ++ last
  | (none, last) => s!"from .{last} import {last}"

/-- The imports of the parent and of all classes that are mentioned, in increasing order. -/
def stubImports (c : ClassModel) : List String :=
  let runtime := Artifact.runtimeProject
  let root := ClassName.root
  let names := (c.localParent.toList ++ c.referenced).filter fun name =>
    !ClassName.isRoot name && name != c.name
  nameSet <| (if ClassName.isRoot c.name then [] else [s!"from {runtime} import {root}"])
    ++ names.map importLine

def typeVariables (c : ClassModel) : List String :=
  Artifact.typeVariables <| c.properties.map Property.type
    ++ c.methods.flatMap fun m => m.overloads.flatMap Overload.types

end ClassModel

namespace Artifact

def stubParameter (a : Argument) : String :=
  a.name ++ ": " ++ a.rendered ++ match a.default with
    | some value => " = " ++ value
    | none => ""

def overloadStub (m : Method) (o : Overload) : List String :=
  let name := m.name
  let parameters := Text.join ", " <|
    (if o.isStatic then [] else ["self"]) ++ o.arguments.map stubParameter
  let result := o.returns.rendered
  let description := o.descriptionIn m
  let signature := s!"def {name}({parameters}) -> {result}:"
  ""
    :: (if m.isOverloaded then ["@overload"] else [])
    ++ (if o.isStatic then ["@staticmethod"] else [])
    ++ if description.isEmpty then [signature ++ " ..."]
      else [signature, "    \"\"\"" ++ description ++ "\"\"\"", "    ..."]

def stub (context : Context) (c : ClassModel) : List String :=
  let name := c.name
  let parent := c.stubParent
  let root := ClassName.root
  let member (p : Property) : String := p.accessor ++ ": " ++ p.rendered
  let relation (r : Relation) : List String :=
    let relation := r.name
    ["",
     s!"def get_{relation}(self) -> List[Any]: ...",
     s!"def add_{relation}(self, other: {root}, props: Dict[str, Any] = ...) -> None: ..."]
  let members :=
    "classname: str" :: c.properties.map member
    ++ ["", "def __init__(self, classname: str = ...) -> None: ..."]
    ++ c.relations.flatMap relation
    ++ c.methods.flatMap fun m => m.overloads.flatMap (overloadStub m)
  header .stub context name
    ++ ["from typing import Any, Callable, Dict, List, Set, Tuple, TypeVar, overload", ""]
    ++ c.stubImports
    ++ [""]
    ++ (match c.typeVariables with
      | [] => []
      | typeVariables => typeVariables.map (fun v => s!"{v} = TypeVar(\"{v}\")") ++ [""])
    ++ ["", s!"class {name}({parent}):"]
    ++ Lines.indent 4 members

end Artifact

end ClassSchema
