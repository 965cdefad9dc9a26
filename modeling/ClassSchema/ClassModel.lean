import ClassSchema.Text.Sorted
import ClassSchema.TypeExpr.Basic

/-! # Classes, resolved for one target language

All types are given both as expressions and as texts of the language. What is asked of a type later
on is noted when the type is read, before its placeholders get their candidates. -/

namespace ClassSchema

structure Property where
  /-- The keys that lead to the property, with `/` between them. -/
  path : String
  type : TypeExpr
  rendered : String
  default : Option String
  /-- The allowed values in increasing order; none means that all are. -/
  allowed : List String
  advancedSetter : Bool
  /-- How a value is stored without schema, if the type says so. -/
  jsonKind? : Option JsonKind
deriving Repr, Inhabited

def Property.accessor (p : Property) : String := ClassName.accessor p.path

/-- Gives the candidates `defaults` to the placeholders of the type that have none. -/
def Property.fill (defaults : List String) (p : Property) : Property :=
  { p with type := p.type.fill defaults }

structure Relation where
  name : String
  type : TypeExpr
  /-- The targets as they are written. -/
  declared : List String
  /-- The qualified names of the targets, in increasing order. -/
  targets : List String
  cardinality : String
  deletePolicy : String
  subtypeOf : String
  inverse : Bool
  advancedSetter : Bool
  /-- Further entries with their literals, by increasing key. -/
  extra : List (String × String)
deriving Repr, Inhabited

def Relation.kind (r : Relation) : String := r.type.base

structure Argument where
  name : String
  type : TypeExpr
  rendered : String
  default : Option String
  /-- There is a placeholder in the type. -/
  isTemplate : Bool
  /-- The type is a class. -/
  isReference : Bool
  /-- The class, if the type is one. -/
  className? : Option String
deriving Repr, Inhabited

def Argument.fill (defaults : List String) (a : Argument) : Argument :=
  { a with type := a.type.fill defaults }

/-- What a method returns; without type, nothing. -/
structure Return where
  type : Option TypeExpr
  rendered : String
  /-- There is a placeholder in the type. -/
  isTemplate : Bool
  /-- The class, if the type is one. -/
  className? : Option String
deriving Repr, Inhabited

def Return.fill (defaults : List String) (r : Return) : Return :=
  { r with type := r.type.map (TypeExpr.fill defaults) }

/-- A type that may take the place of a placeholder. -/
structure Candidate where
  type : TypeExpr
  rendered : String
deriving Repr, Inhabited

structure Overload where
  description : String
  arguments : List Argument
  returns : Return
  isStatic : Bool
  isConst : Bool
  /-- There is a placeholder in the result or in an argument. -/
  isTemplate : Bool
  /-- The names of the arguments with a placeholder. -/
  templateArguments : List String
  /-- The candidates of all placeholders, those of the result first. -/
  candidates : List Candidate
deriving Repr, Inhabited

namespace Overload

/-- The types of the result and of the arguments. -/
def types (o : Overload) : List TypeExpr := o.returns.type.toList ++ o.arguments.map Argument.type

def fill (defaults : List String) (o : Overload) : Overload :=
  { o with
    returns := o.returns.fill defaults
    arguments := o.arguments.map (Argument.fill defaults) }

/-- The types for which a template is instantiated. -/
def instances (o : Overload) : List String := firstOccurrences (o.candidates.map Candidate.rendered)

end Overload

structure Method where
  name : String
  description : String
  /-- There is more than one overload. -/
  isOverloaded : Bool
  overloads : List Overload
deriving Repr, Inhabited

/-- Where a part of a URI comes from. -/
inductive UriSource where
  | property
  | relation
  /-- A member of a parent class. -/
  | inherited
deriving DecidableEq, Repr, Inhabited

structure UriPart where
  name : String
  source : UriSource
  required : Bool
deriving DecidableEq, Repr, Inhabited

structure Uri where
  scheme : String
  rootPath : String
  parts : List UriPart
deriving DecidableEq, Repr, Inhabited

structure ClassModel where
  name : String
  ns : String
  language : Language
  /-- The parent as it is written. -/
  parent : Option String
  /-- By increasing path. -/
  properties : List Property
  /-- By increasing name. -/
  relations : List Relation
  methods : List Method
  /-- The names of all classes that are mentioned, as they are written and in increasing order. -/
  referenced : List String
  uri : Option Uri
  /-- The candidates that placeholders of the class name, each once. -/
  templateTypes : List String
deriving Repr, Inhabited

namespace ClassModel

def qualifiedName (c : ClassModel) : String := ClassName.qualify c.name c.ns

def qualifiedParent (c : ClassModel) : String :=
  match c.parent with
  | some parent => ClassName.qualify parent c.ns
  | none => ClassName.qualifiedRoot

/-- The parent as the classes of the same project call it. -/
def localParent (c : ClassModel) : Option String := c.parent.map (ClassName.localTo c.ns)

end ClassModel

end ClassSchema
