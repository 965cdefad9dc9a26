import ClassSchema.ClassModel
import ClassSchema.Document.Decode
import ClassSchema.Resolve.PropertyTree
import ClassSchema.TypeExpr.Parser
import ClassSchema.TypeExpr.Render

/-! # From documents to classes -/

namespace ClassSchema

namespace Resolve

/-- The project and the language for which a class is resolved. -/
structure Target where
  ns : String
  language : Language
deriving Repr

def liftType {α : Type} : Except TypeExpr.Error α → Except Cause α := Except.mapError .type

def liftLiteral {α : Type} : Except Literal.Error α → Except Cause α := Except.mapError .literal

def liftShape {α : Type} : Except Shape.Error α → Except Cause α := Except.mapError .shape

def parseType (expr : String) : Except Cause TypeExpr := liftType (TypeExpr.parse expr)

def renderType (target : Target) (t : TypeExpr) : Except Cause String :=
  liftType (t.render target.language target.ns)

def defaultLiteral (target : Target) (t : TypeExpr) (role : Literal.Role) :
    Option Yaml.Value → Except Cause (Option String)
  | none => .ok none
  | some v => (liftLiteral (Literal.typed target.language t role v)).map some

/-! ## Properties -/

def property (target : Target) (path : String) (node : Yaml.Value) : Except Cause Property := do
  let spec ← liftShape (PropertySpec.ofValue node)
  let type ← parseType spec.type
  if type.isReference then .error (.propertyMustBeRelation spec.type)
  else
    let rendered ← renderType target type
    let default ← defaultLiteral target type .property spec.default
    let allowed ← liftLiteral (Literal.allowed target.language type (spec.allowed.getD []))
    return {
      path
      type
      rendered
      default
      allowed
      advancedSetter := spec.advancedSetter
      jsonKind? := type.jsonKind? }

/-- Resolves properties one after the other; no path may occur twice. -/
def propertiesFrom (target : Target) (className : String) :
    (taken : List String) → List PathNode → Except Error (List Property)
  | _, [] => .ok []
  | taken, (path, node) :: nodes => do
      let p ← inField className path <|
        if path ∈ taken then .error (.duplicateName .property path .property)
        else property target path node
      let ps ← propertiesFrom target className (path :: taken) nodes
      return p :: ps

/-- The properties of a document, in the order of the tree. -/
def properties (target : Target) (doc : Document) : Except Error (List Property) := do
  let nodes ← inField doc.name "properties" (leaves (doc.properties.getD []))
  propertiesFrom target doc.name [] nodes

/-! ## Relations -/

def upperOr (default : String) : Option String → String
  | some s => Text.upper s
  | none => default

/-- The targets of a relation: the single one wins over the list. -/
def declaredTargets (spec : RelationSpec) : Except Cause (List String) :=
  match spec.target, spec.targets with
  | some single, _ => .ok [single]
  | none, some many => .ok many
  | none, none => .error .noTargets

def relation (target : Target) (name : String) (node : Yaml.Value) : Except Cause Relation := do
  let spec ← liftShape (RelationSpec.ofValue node)
  let type ← parseType spec.type
  let declared ← declaredTargets spec
  let extra ← liftLiteral (Literal.entries target.language (spec.properties.getD []))
  return {
    name
    type
    declared
    targets := nameSet (declared.map (ClassName.qualify · target.ns))
    cardinality := upperOr "MANY2MANY" spec.cardinality
    deletePolicy := upperOr "DELETENONE" spec.deletePolicy
    subtypeOf := upperOr "NONE" spec.subtypeOf
    inverse := spec.inverse
    advancedSetter := spec.advancedSetter
    extra }

/-- Resolves relations one after the other; no name may occur twice or be that of a property. -/
def relationsFrom (target : Target) (className : String) (paths : List String) :
    (taken : List String) → Entries → Except Error (List Relation)
  | _, [] => .ok []
  | taken, (key, node) :: entries => do
      let name ← inField className "relations" (keyText key)
      let r ← inField className name <|
        if name ∈ taken then .error (.duplicateName .relation name .relation)
        else if name ∈ paths then .error (.duplicateName .relation name .property)
        else relation target name node
      let rs ← relationsFrom target className paths (name :: taken) entries
      return r :: rs

/-! ## The URI -/

/-- The parts of a URI are members of the class; in a class with a parent, any other name is taken
for one of its members. -/
def uriPart (hasParent : Bool) (relations properties : List String) (spec : UriPartSpec) :
    Except Cause UriPart :=
  let part (source : UriSource) : UriPart := ⟨spec.name, source, spec.required.getD true⟩
  if spec.name ∈ relations then .ok (part .relation)
  else if spec.name ∈ properties then .ok (part .property)
  else if hasParent then .ok (part .inherited)
  else .error (.unknownUriPart spec.name)

def uri (doc : Document) (relations properties : List String) : Except Error (Option Uri) :=
  match doc.uri.or doc.uuid with
  | none => .ok none
  | some spec => do
      let parts ← inField doc.name "uri" <|
        (spec.parts.getD []).mapM (uriPart doc.parent.isSome relations properties)
      return some ⟨spec.scheme.getD "unknown", spec.rootPath.getD "/", parts⟩

/-! ## Methods -/

def returns (target : Target) (spec : Option ReturnSpec) : Except Cause Return :=
  match spec.bind ReturnSpec.type with
  | none => .ok {
      type := none
      rendered := target.language.voidType
      isTemplate := false
      className? := none }
  | some expr => do
      let type ← parseType expr
      let rendered ← renderType target type
      return {
        type := some type
        rendered
        isTemplate := type.hasPlaceholder
        className? := type.className? }

def argument (target : Target) (spec : ArgumentSpec) : Except Cause Argument := do
  let type ← parseType spec.type
  let rendered ← renderType target type
  let default ← defaultLiteral target type .argument spec.default
  return {
    name := spec.name
    type
    rendered
    default
    isTemplate := type.hasPlaceholder
    isReference := type.isReference
    className? := type.className? }

/-- Resolves arguments one after the other; no name may occur twice. -/
def argumentsFrom (target : Target) (className method : String) :
    (taken : List String) → List ArgumentSpec → Except Error (List Argument)
  | _, [] => .ok []
  | taken, spec :: specs => do
      let a ← inField className (method ++ "(" ++ spec.name ++ ")") <|
        if spec.name ∈ taken then .error (.duplicateName .argument spec.name .argument)
        else argument target spec
      let as ← argumentsFrom target className method (spec.name :: taken) specs
      return a :: as

/-- An overload, the candidates of its placeholders still to be found. -/
def overload (target : Target) (className method : String) (spec : MethodSpec) :
    Except Error Overload := do
  let returns ← inField className method (returns target spec.returns)
  let arguments ← argumentsFrom target className method [] (spec.arguments.getD [])
  let templateArguments := (arguments.filter Argument.isTemplate).map Argument.name
  return {
    description := spec.description.getD ""
    arguments
    returns
    isStatic := spec.isStatic
    isConst := spec.isConst
    isTemplate := returns.isTemplate || !templateArguments.isEmpty
    templateArguments
    candidates := [] }

/-- The signatures of a method: its overloads, or its own if there are none. -/
def signatures (spec : MethodSpec) : List MethodSpec :=
  match spec.overloads with
  | some (o :: os) => o :: os
  | _ => [spec]

def method (target : Target) (className name : String) (spec : MethodSpec) :
    Except Error Method := do
  let overloads ← (signatures spec).mapM (overload target className name)
  let own := spec.description.getD ""
  let description :=
    if own.isEmpty then (overloads.head?.map Overload.description).getD "" else own
  return { name, description, isOverloaded := overloads.length > 1, overloads }

def methodEntry (target : Target) (className : String) (entry : Yaml.Value × Yaml.Value) :
    Except Error Method := do
  let name ← inField className "methods" (keyText entry.1)
  let spec ← inField className name (liftShape (MethodSpec.ofValue entry.2))
  method target className name spec

/-! ## Placeholders -/

/-- The candidates of placeholders in a class that names none. -/
def builtinCandidates : List String := ["BOOLEAN", "INTEGER", "FLOAT64", "STRING", "JSON"]

def candidate (target : Target) (expr : String) : Except Cause Candidate := do
  let type ← parseType expr
  let rendered ← renderType target type
  return ⟨type, rendered⟩

/-- Gives candidates to the placeholders of a template; other overloads stay as they are. -/
def instantiate (target : Target) (className method : String) (defaults : List String)
    (o : Overload) : Except Error Overload :=
  if o.isTemplate then do
    let filled := o.fill defaults
    let candidates ← inField className method <|
      (filled.types.flatMap TypeExpr.candidates).mapM (candidate target)
    return { filled with candidates }
  else .ok o

def instantiateMethod (target : Target) (className : String) (defaults : List String)
    (m : Method) : Except Error Method := do
  let overloads ← m.overloads.mapM (instantiate target className m.name defaults)
  return { m with overloads }

/-- The candidates that are named anywhere, each once. -/
def namedCandidates (properties : List Property) (methods : List Method) : List String :=
  let types := properties.map Property.type
    ++ methods.flatMap fun m => m.overloads.flatMap Overload.types
  firstOccurrences (types.flatMap TypeExpr.candidates)

/-- The classes that are mentioned anywhere. -/
def mentioned (properties : List Property) (relations : List Relation) (methods : List Method) :
    List String :=
  let ofOverload (o : Overload) : List String :=
    (o.types ++ o.candidates.map Candidate.type).flatMap TypeExpr.classNames
  nameSet <| properties.flatMap (·.type.classNames) ++ relations.flatMap Relation.declared
    ++ methods.flatMap fun m => m.overloads.flatMap ofOverload

end Resolve

open Resolve in
/-- Resolves a document: its properties, relations, URI and methods in this order, and then the
placeholders of its methods. The first failure counts. -/
def resolve (target : Target) (doc : Document) : Except Resolve.Error ClassModel := do
  let properties ← properties target doc
  let paths := properties.map Property.path
  let relations ← relationsFrom target doc.name paths [] (doc.relations.getD [])
  let uri ← uri doc (relations.map Relation.name) paths
  let methods ← (doc.methods.getD []).mapM (methodEntry target doc.name)
  let templateTypes := namedCandidates properties methods
  let defaults := if templateTypes.isEmpty then builtinCandidates else templateTypes
  let methods ← methods.mapM (instantiateMethod target doc.name defaults)
  let properties := properties.map (Property.fill defaults)
  return {
    name := doc.name
    ns := target.ns
    language := target.language
    parent := doc.parent
    properties := sortBy Property.path properties
    relations := sortBy Relation.name relations
    methods
    referenced := mentioned properties relations methods
    uri
    templateTypes }

end ClassSchema
