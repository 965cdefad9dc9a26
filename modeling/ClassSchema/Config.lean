import ClassSchema.Language

/-! # What to generate, and where -/

namespace ClassSchema

structure UnsupportedLanguage where
  name : String
deriving DecidableEq, Repr

def UnsupportedLanguage.message (e : UnsupportedLanguage) : String :=
  "unsupported language '" ++ e.name ++ "'"

namespace Language

def parse (name : String) : Except UnsupportedLanguage Language :=
  match ofName? name with
  | some language => .ok language
  | none => .error ⟨name⟩

/-- The languages of a list of names, in which `ALL` stands for every language. -/
def parseAll : List String → Except UnsupportedLanguage (List Language)
  | [] => .ok []
  | name :: names => do
      let languages ← if Text.upper name == "ALL" then .ok all else (parse name).map ([·])
      let rest ← parseAll names
      return languages ++ rest

end Language

structure Config where
  project : String
  output : String := "build/autogenerated_files"
  /-- Where skeletons go; without it there are none. -/
  skeletons : Option String := none
  overwriteSkeletons : Bool := false
  languages : List Language := Language.all
  registry : Bool := true
deriving Repr, Inhabited

namespace Config

/-- Sets the languages; one that is repeated counts once. -/
def withLanguages (languages : List Language) (c : Config) : Config :=
  { c with languages := languages.foldl (fun ls l => if l ∈ ls then ls else ls ++ [l]) [] }

def targets (c : Config) (language : Language) : Bool := c.languages.contains language

end Config

end ClassSchema
