import ClassSchema.Text.Cut
import ClassSchema.Text.Quoted
import ClassSchema.Yaml.Value

/-! # The outline of a YAML value

It names the kind of each part, and is there for every value. -/

namespace ClassSchema.Yaml

def boolWord (b : Bool) : String := if b then "true" else "false"

/-- The text of a key. One that is a string, a number or a boolean stands for itself, and every
other one is given by its outline. -/
def keyText (outline : String) : Value → String
  | .bool b => boolWord b
  | .number n => n.text
  | .string s => Text.quoted s
  | _ => outline

mutual

def outline : Value → String
  | .null => "Null"
  | .bool b => "Bool(" ++ boolWord b ++ ")"
  | .number n => "Number(" ++ n.text ++ ")"
  | .string s => "String(" ++ Text.quoted s ++ ")"
  | .sequence items => "Sequence [" ++ Text.join ", " (outlines items) ++ "]"
  | .mapping entries => "Mapping \x7b" ++ Text.join ", " (entryOutlines entries) ++ "\x7d"
  | .tagged t v => "TaggedValue \x7b tag: !" ++ t ++ ", value: " ++ outline v ++ " \x7d"

def outlines : List Value → List String
  | [] => []
  | v :: vs => outline v :: outlines vs

def entryOutlines : List (Value × Value) → List String
  | [] => []
  | (k, v) :: es => (keyText (outline k) k ++ ": " ++ outline v) :: entryOutlines es

end

end ClassSchema.Yaml
