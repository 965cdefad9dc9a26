import ClassSchema.ClassName
import ClassSchema.Language

/-! # Type expressions

The types that a schema may give to properties, arguments and results: known primitives and native
names, references to classes, placeholders for template types, callables, and constructors applied
to arguments. Every node keeps the text that it was read from. -/

namespace ClassSchema

/-- The pointer that a class reference stands for. -/
inductive Pointer where
  | absent
  | plain
  | const
deriving DecidableEq, Repr, Inhabited

inductive TypeExpr where
  | primitive (source : String)
  | reference (className : String) (isConst : Bool) (pointer : Pointer) (source : String)
  | placeholder (index : Option Nat) (candidates : List String) (source : String)
  | function (signature : String) (source : String)
  | composite (base : String) (args : List TypeExpr) (source : String)
deriving Repr, Inhabited

/-- How a value is kept in untyped storage. -/
inductive JsonKind where
  | boolean
  | string
  | integer
  | float
  | object
  | array
deriving DecidableEq, Repr

def JsonKind.cppValueType : JsonKind → String
  | .boolean => "nl::json::value_t::boolean"
  | .string => "nl::json::value_t::string"
  | .integer => "nl::json::value_t::number_integer"
  | .float => "nl::json::value_t::number_float"
  | .object => "nl::json::value_t::object"
  | .array => "nl::json::value_t::array"

inductive Primitive where
  | boolean
  | string
  | integer
  | integer64
  | float
  | float64
  | json
  | enum
deriving DecidableEq, Repr

namespace Primitive

def name : Primitive → String
  | .boolean => "BOOLEAN"
  | .string => "STRING"
  | .integer => "INTEGER"
  | .integer64 => "INTEGER64"
  | .float => "FLOAT"
  | .float64 => "FLOAT64"
  | .json => "JSON"
  | .enum => "ENUM"

def ofName? : String → Option Primitive
  | "BOOLEAN" => some .boolean
  | "STRING" => some .string
  | "INTEGER" => some .integer
  | "INTEGER64" => some .integer64
  | "FLOAT" => some .float
  | "FLOAT64" => some .float64
  | "JSON" => some .json
  | "ENUM" => some .enum
  | _ => none

def jsonKind : Primitive → JsonKind
  | .boolean => .boolean
  | .string => .string
  | .integer | .integer64 | .enum => .integer
  | .float | .float64 => .float
  | .json => .object

/-- Scalars are passed by value. -/
def isScalar : Primitive → Bool
  | .string | .json => false
  | _ => true

end Primitive

inductive Container where
  | vector
  | set
  | unorderedSet
  | map
  | unorderedMap
  | pair
deriving DecidableEq, Repr

namespace Container

def ofName? : String → Option Container
  | "VECTOR" => some .vector
  | "SET" => some .set
  | "UNORDERED_SET" => some .unorderedSet
  | "MAP" => some .map
  | "UNORDERED_MAP" => some .unorderedMap
  | "PAIR" => some .pair
  | _ => none

/-- The names of the type parameters, in the order of the arguments. -/
def params : Container → List String
  | .vector | .set | .unorderedSet => ["T"]
  | .map | .unorderedMap => ["K", "V"]
  | .pair => ["A", "B"]

def jsonKind : Container → JsonKind
  | .map | .unorderedMap => .object
  | .vector | .set | .unorderedSet | .pair => .array

/-- Whether a constructor of that name makes sets, whose elements must not be references. -/
def isSetLike (base : String) : Bool := Text.startsWith "SET" base || base == "UNORDERED_SET"

end Container

namespace TypeExpr

def source : TypeExpr → String
  | .primitive s | .reference _ _ _ s | .placeholder _ _ s | .function _ s | .composite _ _ s => s

/-- The name of the constructor, or of the class for a reference. -/
def base : TypeExpr → String
  | .primitive s => Text.upper s
  | .reference c .. => c
  | .placeholder .. => "TEMPLATE"
  | .function .. => "FUNCTION"
  | .composite b .. => b

def isReference : TypeExpr → Bool
  | .reference .. => true
  | _ => false

def isPlaceholder : TypeExpr → Bool
  | .placeholder .. => true
  | _ => false

def primitive? : TypeExpr → Option Primitive
  | .primitive s => Primitive.ofName? (Text.upper s)
  | _ => none

def container? : TypeExpr → Option Container
  | .composite b .. => Container.ofName? b
  | _ => none

def jsonKind? (t : TypeExpr) : Option JsonKind :=
  match t.primitive? with
  | some p => some p.jsonKind
  | none => t.container?.map Container.jsonKind

def className? : TypeExpr → Option String
  | .reference c .. => some c
  | _ => none

/-- The type variable that a placeholder with that index becomes. -/
def variableName : Option Nat → String
  | some i => "T" ++ String.ofList (Nat.toDigits 10 i)
  | none => "T"

mutual

/-- The classes referred to anywhere in the expression, from left to right. -/
def classNames : TypeExpr → List String
  | .reference c .. => [c]
  | .composite _ args _ => classNamesIn args
  | _ => []

def classNamesIn : List TypeExpr → List String
  | [] => []
  | t :: ts => classNames t ++ classNamesIn ts

end

mutual

/-- The candidates of all placeholders in the expression, from left to right. -/
def candidates : TypeExpr → List String
  | .placeholder _ cs _ => cs
  | .composite _ args _ => candidatesIn args
  | _ => []

def candidatesIn : List TypeExpr → List String
  | [] => []
  | t :: ts => candidates t ++ candidatesIn ts

end

mutual

/-- The type variables of all placeholders in the expression, from left to right. -/
def typeVariables : TypeExpr → List String
  | .placeholder i .. => [variableName i]
  | .composite _ args _ => typeVariablesIn args
  | _ => []

def typeVariablesIn : List TypeExpr → List String
  | [] => []
  | t :: ts => typeVariables t ++ typeVariablesIn ts

end

def hasPlaceholder (t : TypeExpr) : Bool := !t.typeVariables.isEmpty

mutual

/-- Gives the candidates `defaults` to every placeholder that has none. -/
def fill (defaults : List String) : TypeExpr → TypeExpr
  | .placeholder i cs s => .placeholder i (if cs.isEmpty then defaults else cs) s
  | .composite b args s => .composite b (fillAll defaults args) s
  | t => t

def fillAll (defaults : List String) : List TypeExpr → List TypeExpr
  | [] => []
  | t :: ts => fill defaults t :: fillAll defaults ts

end

/-- What is wrong with the text of a type. -/
inductive Flaw where
  | empty
  | unexpectedClose
  | unbalanced
  | noIndex
  | noCandidateList
  | afterReference
  | noClassName
  | afterFunction
  | afterComposite
  | noConstructor
  | openArguments
  | emptyArgument
  | arity (base : String) (expected : Nat)
deriving DecidableEq, Repr

def Flaw.text : Flaw → String
  | .empty => "empty type expression"
  | .unexpectedClose => "unexpected ')'"
  | .unbalanced => "unbalanced parentheses"
  | .noIndex => "expected a template index after ':'"
  | .noCandidateList => "expected '[...]' after TEMPLATE"
  | .afterReference => "trailing characters after XTYPE(...)"
  | .noClassName => "expected a class name inside XTYPE(...)"
  | .afterFunction => "trailing characters after FUNCTION(...)"
  | .afterComposite => "trailing characters after ')'"
  | .noConstructor => "missing type constructor before '('"
  | .openArguments => "unparsable composite arguments"
  | .emptyArgument => "empty type argument"
  | .arity base n => base ++ " expects " ++ Number.integerText n ++ " type argument(s)"

inductive Error where
  | malformed (expr : String) (flaw : Flaw)
  | containerOfReference (container expr : String)
  | unknownConstructor (base : String) (language : Language)
deriving DecidableEq, Repr

def Error.message : Error → String
  | .malformed expr flaw => "malformed type expression '" ++ expr ++ "': " ++ flaw.text
  | .containerOfReference container expr =>
      "container '" ++ container
        ++ "' cannot hold XType references, aliasing would be undefined (type was: " ++ expr ++ ")"
  | .unknownConstructor base language =>
      "unknown type constructor '" ++ base ++ "' for language " ++ language.name

end TypeExpr

end ClassSchema
