import ClassSchema.Json

/-! # Target languages and the spelling of their literals -/

namespace ClassSchema

inductive Language where
  | cpp
  | python
deriving DecidableEq, Repr, Inhabited

namespace Language

/-- All languages, in the order in which they are generated. -/
def all : List Language := [.cpp, .python]

def name : Language → String
  | .cpp => "CPP"
  | .python => "PYTHON"

/-- The language of that name, in letters of either case. -/
def ofName? (s : String) : Option Language :=
  match Text.upper s with
  | "CPP" | "C++" => some .cpp
  | "PYTHON" => some .python
  | _ => none

/-- The return type of a method that declares none. -/
def voidType : Language → String
  | .cpp => "void"
  | .python => "None"

def boolLiteral : Language → Bool → String
  | .cpp, true => "true"
  | .cpp, false => "false"
  | .python, true => "True"
  | .python, false => "False"

def nullLiteral : Language → String
  | .cpp => "nullptr"
  | .python => "None"

/-- The explicit constructor of an object without fields. -/
def emptyObject : Language → String
  | .cpp => "nl::json(nl::json::value_t::object)"
  | .python => "dict()"

def stringLiteral (_ : Language) (s : String) : String := Json.quoted s

mutual

def pythonLiteral : Json → String
  | .null => nullLiteral .python
  | .bool b => boolLiteral .python b
  | .number n => n.textIn Number.aggregateLayout
  | .string s => Json.quoted s
  | .array items => "[" ++ Text.join ", " (pythonItems items) ++ "]"
  | .object fields => "\x7b" ++ Text.join ", " (pythonFields fields) ++ "\x7d"

def pythonItems : List Json → List String
  | [] => []
  | j :: js => pythonLiteral j :: pythonItems js

def pythonFields : List (String × Json) → List String
  | [] => []
  | (k, v) :: fs => (Json.quoted k ++ ": " ++ pythonLiteral v) :: pythonFields fs

end

/-- An aggregate as an expression: parsed from a raw string, or written out. -/
def jsonLiteral : Language → Json → String
  | .cpp, j => "nl::json::parse(R\"(" ++ j.text ++ ")\")"
  | .python, j => pythonLiteral j

def mapItem : Language → String × String → String
  | .cpp, (key, value) => "\x7b" ++ Json.quoted key ++ ", " ++ value ++ "\x7d"
  | .python, (key, value) => Json.quoted key ++ ": " ++ value

/-- Keys with literals as a map. -/
def mapLiteral (language : Language) (entries : List (String × String)) : String :=
  "\x7b" ++ Text.join ", " (entries.map language.mapItem) ++ "\x7d"

end Language

end ClassSchema
