import ClassSchema.Text.Quoted
import ClassSchema.Yaml.Value

/-! # Reading values of a given shape

Tags say nothing about the shape and are ignored, except that only a null without tag is absent. -/

namespace ClassSchema.Shape

inductive Error where
  | wrongType (found : Yaml.Value) (wanted : String)
  | missingField (name : String)
  | duplicateField (name : String)
deriving Repr

/-- What a value is called in a message. -/
def describe : Yaml.Value → String
  | .null => "unit value"
  | .bool b => "boolean `" ++ (if b then "true" else "false") ++ "`"
  | .number (.integer i) => "integer `" ++ Number.integerText i ++ "`"
  | .number (.float x) =>
      "floating point `" ++ Number.textIn Number.messageLayout (.float x) ++ "`"
  | .string s => "string " ++ Text.quoted s
  | .sequence _ => "sequence"
  | .mapping _ => "map"
  | .tagged _ v => describe v

def Error.message : Error → String
  | .wrongType found wanted => "invalid type: " ++ describe found ++ ", expected " ++ wanted
  | .missingField name => "missing field `" ++ name ++ "`"
  | .duplicateField name => "duplicate field `" ++ name ++ "`"

def string (v : Yaml.Value) : Except Error String :=
  match v.untagged with
  | .string s => .ok s
  | other => .error (.wrongType other "a string")

def bool (v : Yaml.Value) : Except Error Bool :=
  match v.untagged with
  | .bool b => .ok b
  | other => .error (.wrongType other "a boolean")

def any (v : Yaml.Value) : Except Error Yaml.Value := .ok v

def optional {α : Type} (read : Yaml.Value → Except Error α) (v : Yaml.Value) :
    Except Error (Option α) :=
  match v with
  | .null => .ok none
  | v => (read v).map some

def list {α : Type} (read : Yaml.Value → Except Error α) (v : Yaml.Value) :
    Except Error (List α) :=
  match v.untagged with
  | .sequence vs => vs.mapM read
  | .null => .ok []
  | other => .error (.wrongType other "a sequence")

def entries (wanted : String) (v : Yaml.Value) : Except Error (List (Yaml.Value × Yaml.Value)) :=
  match v.untagged with
  | .mapping es => .ok es
  | .null => .ok []
  | other => .error (.wrongType other wanted)

def mapping : Yaml.Value → Except Error (List (Yaml.Value × Yaml.Value)) := entries "a YAML mapping"

/-- How a field of that name changes the record, if there is one. -/
abbrev Fields (α : Type) := String → Option (Yaml.Value → α → Except Error α)

/-- Reads a field with `read` and puts it into the record with `put`. -/
def field {α β : Type} (read : Yaml.Value → Except Error β) (put : α → β → α) :
    Option (Yaml.Value → α → Except Error α) :=
  some fun v record => (read v).map (put record)

/-- Reads fields in the order of the text. Fields that the record does not have are ignored. -/
def recordFrom {α : Type} (fields : Fields α) : (seen : List String) → α →
    List (Yaml.Value × Yaml.Value) → Except Error (List String × α)
  | seen, record, [] => .ok (seen, record)
  | seen, record, (k, v) :: es =>
      match k.untagged with
      | .string name => match fields name with
        | none => recordFrom fields seen record es
        | some set =>
            if name ∈ seen then .error (.duplicateField name)
            else match set v record with
              | .error e => .error e
              | .ok record => recordFrom fields (name :: seen) record es
      | other => .error (.wrongType other "field identifier")

/-- Reads a record from its default; the fields in `required` must be there. -/
def record {α : Type} [Inhabited α] (wanted : String) (required : List String) (fields : Fields α)
    (v : Yaml.Value) : Except Error α := do
  let es ← entries wanted v
  let (seen, record) ← recordFrom fields [] default es
  match required.find? fun name => name ∉ seen with
  | some name => .error (.missingField name)
  | none => return record

end ClassSchema.Shape
