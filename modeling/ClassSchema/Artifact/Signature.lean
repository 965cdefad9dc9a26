import ClassSchema.ClassModel
import ClassSchema.Text.Lines

/-! # Signatures of generated functions -/

namespace ClassSchema

namespace Artifact

/-- The file that declares the root class. -/
def rootInclude : String := "<xtypes_generator/XType.hpp>"

/-- Scalars are passed by value, all else by constant reference. -/
def parameterType (t : TypeExpr) (rendered : String) : String :=
  if t.primitive?.any Primitive.isScalar then rendered else s!"const {rendered}&"

/-- The parameters of the function that adds a fact to a relation. -/
def adderParameters : String :=
  "xtypes::XTypeCPtr other, const nl::json& props = nl::json::object()"

/-- The type variables of types, in the order of their first occurrence. -/
def typeVariables (types : List TypeExpr) : List String :=
  firstOccurrences (types.flatMap TypeExpr.typeVariables)

def templateHead (typeVariables : List String) : String :=
  "template <" ++ Text.join ", " (typeVariables.map ("typename " ++ ·)) ++ ">"

/-- A class with the pointers to it. -/
def pointerAliases (name : String) : List String :=
  [s!"class {name};",
   s!"using {name}Ptr = std::shared_ptr< {name} >;",
   s!"using {name}CPtr = const std::shared_ptr< {name} >;",
   s!"using Const{name}Ptr = std::shared_ptr< const {name} >;"]

end Artifact

namespace Argument

def parameter (a : Argument) : String := Artifact.parameterType a.type a.rendered ++ " " ++ a.name

def parameterWithDefault (a : Argument) : String :=
  match a.default with
  | some value => a.parameter ++ " = " ++ value
  | none => a.parameter

end Argument

namespace Overload

def typeVariables (o : Overload) : List String := Artifact.typeVariables o.types

/-- Only a method of an instance can be constant. -/
def isConstMember (o : Overload) : Bool := o.isConst && !o.isStatic

/-- The own description of an overload, or that of its method. -/
def descriptionIn (o : Overload) (m : Method) : String :=
  if o.description.isEmpty then m.description else o.description

/-- The signature under that name, with or without default values. -/
def signature (name : String) (withDefaults : Bool) (o : Overload) : String :=
  let parameters := o.arguments.map fun a =>
    if withDefaults then a.parameterWithDefault else a.parameter
  (if o.isStatic then "static " else "") ++ o.returns.rendered ++ " " ++ name ++ "("
    ++ Text.join ", " parameters ++ ")" ++ (if o.isConstMember then " const" else "")

end Overload

end ClassSchema
