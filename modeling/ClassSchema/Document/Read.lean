import ClassSchema.Document.Decode
import ClassSchema.Text.Blank
import ClassSchema.Yaml.Read

/-! # Reading documents -/

namespace ClassSchema.Document

inductive Error where
  | yaml (fault : Yaml.Fault)
  | shape (error : Shape.Error)
  | missingKey (key : String)
  | invalidValue (key value : String)
  /-- The file with the document cannot be read. -/
  | unreadable (reason : String)
deriving Repr

def Error.message : Error → String
  | .yaml fault => "YAML parsing error: " ++ fault.text
  | .shape error => "YAML parsing error: " ++ error.message
  | .missingKey key => "missing required key '" ++ key ++ "' in schema document"
  | .invalidValue key value => "invalid value '" ++ value ++ "' for key '" ++ key ++ "'"
  | .unreadable reason => "IO error: " ++ reason

/-- The name of the class must be there, and must not be blank. -/
def checkName (root : Yaml.Value) : Except Error Unit :=
  match root.get? "name" with
  | none | some .null => .error (.missingKey "name")
  | some (.string name) =>
      if (Text.trim name).isEmpty then .error (.invalidValue "name" name) else .ok ()
  | some _ => .ok ()

/-- Reads a document from its text. -/
def read (text : String) : Except Error Document :=
  match Yaml.read text with
  | .error fault => .error (.yaml fault)
  | .ok (.mapping es) => do
      checkName (.mapping es)
      (Document.ofValue (.mapping es)).mapError .shape
  | .ok _ => .error (.invalidValue "<document>" "expected a mapping at the top level")

end ClassSchema.Document
