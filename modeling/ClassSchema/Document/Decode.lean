import ClassSchema.Document.Basic
import ClassSchema.Document.Shape

/-! # Reading the parts of a document -/

namespace ClassSchema

open Shape

def PropertySpec.ofValue : Yaml.Value → Except Shape.Error PropertySpec :=
  record "struct PropertySpec" ["type"] fun
    | "type" => field string fun s x => { s with type := x }
    | "default" => field (optional any) fun s x => { s with default := x }
    | "allowed" => field (optional (list any)) fun s x => { s with allowed := x }
    | "advanced_setter" => field bool fun s x => { s with advancedSetter := x }
    | _ => none

def RelationSpec.ofValue : Yaml.Value → Except Shape.Error RelationSpec :=
  record "struct RelationSpec" ["type"] fun
    | "type" => field string fun s x => { s with type := x }
    | "other_classnames" => field (optional (list string)) fun s x => { s with targets := x }
    | "other_classname" => field (optional string) fun s x => { s with target := x }
    | "properties" => field (optional mapping) fun s x => { s with properties := x }
    | "inverse" => field bool fun s x => { s with inverse := x }
    | "cardinality" => field (optional string) fun s x => { s with cardinality := x }
    | "delete_policy" => field (optional string) fun s x => { s with deletePolicy := x }
    | "subtype_of" => field (optional string) fun s x => { s with subtypeOf := x }
    | "advanced_setter" => field bool fun s x => { s with advancedSetter := x }
    | _ => none

def ReturnSpec.ofValue : Yaml.Value → Except Shape.Error ReturnSpec :=
  record "struct ReturnSpec" [] fun
    | "type" => field (optional string) fun _ x => { type := x }
    | _ => none

def ArgumentSpec.ofValue : Yaml.Value → Except Shape.Error ArgumentSpec :=
  record "struct ArgumentSpec" ["name", "type"] fun
    | "name" => field string fun s x => { s with name := x }
    | "type" => field string fun s x => { s with type := x }
    | "default" => field (optional any) fun s x => { s with default := x }
    | _ => none

/-- Reads a method from a value of at most that depth. -/
def MethodSpec.ofValueWithin : (depth : Nat) → Yaml.Value → Except Shape.Error MethodSpec
  | 0 => record "struct MethodSpec" [] fun _ => none
  | depth + 1 =>
      record "struct MethodSpec" [] fun
        | "description" => field (optional string) fun s x => { s with description := x }
        | "returns" => field (optional ReturnSpec.ofValue) fun s x => { s with returns := x }
        | "arguments" =>
            field (optional (list ArgumentSpec.ofValue)) fun s x => { s with arguments := x }
        | "static" => field bool fun s x => { s with isStatic := x }
        | "const" => field bool fun s x => { s with isConst := x }
        | "overrides" =>
            field (optional (list (ofValueWithin depth))) fun s x => { s with overloads := x }
        | _ => none

def MethodSpec.ofValue (v : Yaml.Value) : Except Shape.Error MethodSpec :=
  ofValueWithin (v.depth + 1) v

def UriPartSpec.ofValue : Yaml.Value → Except Shape.Error UriPartSpec :=
  record "struct UriFromSpec" ["name"] fun
    | "name" => field string fun s x => { s with name := x }
    | "required" => field (optional bool) fun s x => { s with required := x }
    | _ => none

def UriSpec.ofValue : Yaml.Value → Except Shape.Error UriSpec :=
  record "struct UriSpec" [] fun
    | "scheme" => field (optional string) fun s x => { s with scheme := x }
    | "root_path" => field (optional string) fun s x => { s with rootPath := x }
    | "from" => field (optional (list UriPartSpec.ofValue)) fun s x => { s with parts := x }
    | _ => none

def Document.ofValue : Yaml.Value → Except Shape.Error Document :=
  record "struct SchemaDocument" ["name"] fun
    | "name" => field string fun s x => { s with name := x }
    | "inherit" => field (optional string) fun s x => { s with parent := x }
    | "properties" => field (optional mapping) fun s x => { s with properties := x }
    | "relations" => field (optional mapping) fun s x => { s with relations := x }
    | "methods" => field (optional mapping) fun s x => { s with methods := x }
    | "uri" => field (optional UriSpec.ofValue) fun s x => { s with uri := x }
    | "uuid" => field (optional UriSpec.ofValue) fun s x => { s with uuid := x }
    | _ => none

end ClassSchema
