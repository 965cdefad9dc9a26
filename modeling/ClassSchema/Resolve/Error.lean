import ClassSchema.Document.Shape
import ClassSchema.Literal

/-! # Why a class cannot be resolved -/

namespace ClassSchema.Resolve

/-- What has a name of its own in a class. -/
inductive Member where
  | property
  | relation
  | argument
deriving DecidableEq, Repr

def Member.noun : Member → String
  | .property => "property"
  | .relation => "relation"
  | .argument => "argument"

inductive Cause where
  | type (error : TypeExpr.Error)
  | literal (error : Literal.Error)
  | shape (error : Shape.Error)
  | propertyMustBeRelation (expr : String)
  | duplicateName (member : Member) (name : String) (existing : Member)
  | unknownUriPart (name : String)
  | nonScalarKey
  | notMapping (path : String)
  | noTargets
deriving Repr

def Cause.message : Cause → String
  | .type e => e.message
  | .literal e => e.message
  | .shape e => "invalid definition: " ++ e.message
  | .propertyMustBeRelation expr =>
      "type '" ++ expr ++ "' is not allowed as a property type, use a relation"
  | .duplicateName member name existing =>
      member.noun ++ " '" ++ name ++ "' is already defined as a " ++ existing.noun
  | .unknownUriPart name => "'" ++ name ++ "' is neither a property nor a relation"
  | .nonScalarKey => "invalid definition: keys must be scalars"
  | .notMapping path => "invalid definition: property '" ++ path ++ "' must be a mapping"
  | .noTargets => "invalid definition: relation has no 'other_classnames' entry"

/-- A cause with the class and the field where it arises. -/
structure Error where
  className : String
  field : String
  cause : Cause
deriving Repr

def Error.message (e : Error) : String :=
  "error in definition of " ++ e.className ++ "::" ++ e.field ++ ": " ++ e.cause.message

/-- Names the place of a cause. -/
def inField {α : Type} (className field : String) : Except Cause α → Except Error α
  | .ok a => .ok a
  | .error cause => .error ⟨className, field, cause⟩

/-- The text of a key of a section. -/
def keyText : Yaml.Value → Except Cause String
  | .string s => .ok s
  | .number n => .ok n.text
  | .bool b => .ok (if b then "true" else "false")
  | _ => .error .nonScalarKey

end ClassSchema.Resolve
