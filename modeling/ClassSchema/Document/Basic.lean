import ClassSchema.Yaml.Value

/-! # Documents that describe a class

The sections for properties, relations and methods keep their entries in the order of the text;
the entries themselves are read when the class is resolved. -/

namespace ClassSchema

abbrev Entries := List (Yaml.Value × Yaml.Value)

structure PropertySpec where
  type : String := ""
  default : Option Yaml.Value := none
  allowed : Option (List Yaml.Value) := none
  advancedSetter : Bool := false
deriving Repr, Inhabited

structure RelationSpec where
  type : String := ""
  targets : Option (List String) := none
  /-- The only target, in the older form of a relation. -/
  target : Option String := none
  properties : Option Entries := none
  inverse : Bool := false
  cardinality : Option String := none
  deletePolicy : Option String := none
  subtypeOf : Option String := none
  advancedSetter : Bool := false
deriving Repr, Inhabited

structure ReturnSpec where
  type : Option String := none
deriving Repr, Inhabited

structure ArgumentSpec where
  name : String := ""
  type : String := ""
  default : Option Yaml.Value := none
deriving Repr, Inhabited

/-- A method, or one of its overloads. -/
structure MethodSpec where
  description : Option String := none
  returns : Option ReturnSpec := none
  arguments : Option (List ArgumentSpec) := none
  isStatic : Bool := false
  isConst : Bool := false
  /-- The overloads, which take the place of the method's own signature. -/
  overloads : Option (List MethodSpec) := none
deriving Repr, Inhabited

/-- A member of which a URI is made. -/
structure UriPartSpec where
  name : String := ""
  required : Option Bool := none
deriving DecidableEq, Repr, Inhabited

structure UriSpec where
  scheme : Option String := none
  rootPath : Option String := none
  parts : Option (List UriPartSpec) := none
deriving DecidableEq, Repr, Inhabited

structure Document where
  name : String := ""
  parent : Option String := none
  properties : Option Entries := none
  relations : Option Entries := none
  methods : Option Entries := none
  uri : Option UriSpec := none
  /-- The URI under its older name. -/
  uuid : Option UriSpec := none
deriving Repr, Inhabited

end ClassSchema
