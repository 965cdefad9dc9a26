import ClassSchema.Language
import ClassSchema.Text.Blank
import ClassSchema.Text.Sorted
import ClassSchema.TypeExpr.Basic
import ClassSchema.Yaml.Outline
import ClassSchema.Yaml.Write

/-! # Values of a schema as literals of a target language -/

namespace ClassSchema

namespace Literal

/-- The text of a key of an aggregate. Only strings, booleans and finite numbers have one. -/
def keyText? : Yaml.Value → Option String
  | .string s => some s
  | .bool b => some (if b then "true" else "false")
  | .number (.integer i) => some (Number.integerText i)
  | .number (.float x) =>
      if x.isFinite then some (Number.textIn Number.aggregateLayout (.float x)) else none
  | _ => none

/-- A number that is not finite has no text in an aggregate. -/
def ofNumber : Number → Json
  | .float x => if x.isFinite then .number (.float x) else .null
  | n => .number n

mutual

/-- A value as aggregate; the fields of an object are sorted, and of two with the same key the
later one counts. -/
def aggregate? : Yaml.Value → Option Json
  | .null => some .null
  | .bool b => some (.bool b)
  | .number n => some (ofNumber n)
  | .string s => some (.string s)
  | .sequence items => (aggregates? items).map .array
  | .mapping entries => (fields? entries []).map .object
  | .tagged t v => (aggregate? v).map fun j => .object [("!" ++ t, j)]

def aggregates? : List Yaml.Value → Option (List Json)
  | [] => some []
  | v :: vs =>
      match aggregate? v with
      | none => none
      | some j => (aggregates? vs).map (j :: ·)

def fields? : List (Yaml.Value × Yaml.Value) → List (String × Json) → Option (List (String × Json))
  | [], fields => some fields
  | (k, v) :: entries, fields =>
      match keyText? k, aggregate? v with
      | some key, some j => fields? entries (setEntry key j fields)
      | _, _ => none

end

/-- Why there is no literal. -/
inductive Error where
  | unsupported (value : String)
  | nonStringKey
deriving DecidableEq, Repr

def Error.message : Error → String
  | .unsupported value => "unsupported default literal '" ++ value ++ "'"
  | .nonStringKey => "invalid definition: relation property keys must be strings"

def unsupported {α : Type} (v : Yaml.Value) : Except Error α :=
  .error (.unsupported (Text.trimEnd ((Yaml.write? v).getD (Yaml.outline v))))

/-- The literal of a value without declared type; strings are quoted. -/
def untyped (language : Language) (v : Yaml.Value) : Except Error String :=
  match v with
  | .null => .ok language.nullLiteral
  | .bool b => .ok (language.boolLiteral b)
  | .number n => .ok n.text
  | .string s => .ok (language.stringLiteral s)
  | .sequence _ | .mapping _ => match aggregate? v with
    | some j => .ok (language.jsonLiteral j)
    | none => unsupported v
  | .tagged _ _ => unsupported v

def isEmptyObject : Yaml.Value → Bool
  | .mapping entries => entries.isEmpty
  | .string s => Text.trim s == "\x7b\x7d"
  | _ => false

/-- What a value is given for. -/
inductive Role where
  | property
  | argument
deriving DecidableEq, Repr

/-- The literal of a value of type `t`. Strings of another type than `STRING` are expressions of
the target language and stand for themselves; an empty object given to a `JSON` argument is
constructed explicitly. -/
def typed (language : Language) (t : TypeExpr) (role : Role) (v : Yaml.Value) :
    Except Error String :=
  if role = .argument && t.primitive? = some .json && isEmptyObject v then .ok language.emptyObject
  else match v with
    | .string s =>
        if t.primitive? = some .string then .ok (language.stringLiteral s) else .ok s
    | v => untyped language v

def typedAll (language : Language) (t : TypeExpr) : List Yaml.Value → Except Error (List String)
  | [] => .ok []
  | v :: vs =>
      match typed language t .property v with
      | .error e => .error e
      | .ok s => match typedAll language t vs with
        | .error e => .error e
        | .ok ss => .ok (s :: ss)

/-- The literals of the allowed values, sorted and each once. -/
def allowed (language : Language) (t : TypeExpr) (vs : List Yaml.Value) :
    Except Error (List String) :=
  match typedAll language t vs with
  | .error e => .error e
  | .ok ss => .ok (nameSet ss)

/-- Adds the literals of the entries to `map`, which is sorted by keys. -/
def entriesFrom (language : Language) : List (Yaml.Value × Yaml.Value) → List (String × String) →
    Except Error (List (String × String))
  | [], map => .ok map
  | (k, v) :: rest, map =>
      match k.string? with
      | some key => match untyped language v with
        | .ok literal => entriesFrom language rest (setEntry key literal map)
        | .error e => .error e
      | none => .error .nonStringKey

/-- The literals of extra entries, sorted by their keys, which must be strings. -/
def entries (language : Language) (es : List (Yaml.Value × Yaml.Value)) :
    Except Error (List (String × String)) :=
  entriesFrom language es []

end Literal

end ClassSchema
