import ClassSchema.Language
import ClassSchema.Path

/-! # Kinds of generated files -/

namespace ClassSchema

inductive ArtifactKind where
  | baseHeader
  | baseSource
  | skeletonHeader
  | skeletonSource
  | binding
  | stub
  | umbrellaHeader
  | bindingModule
deriving DecidableEq, Repr, Inhabited

namespace ArtifactKind

/-- The files of a class in C++. -/
def cppKinds : List ArtifactKind := [.baseHeader, .baseSource, .skeletonHeader, .skeletonSource]

/-- The files of a class in Python. -/
def pythonKinds : List ArtifactKind := [.binding, .stub]

def name : ArtifactKind → String
  | .baseHeader => "base header"
  | .baseSource => "base source"
  | .skeletonHeader => "skeleton header"
  | .skeletonSource => "skeleton source"
  | .binding => "binding source"
  | .stub => "typing stub"
  | .umbrellaHeader => "umbrella header"
  | .bindingModule => "binding module"

/-- Skeletons are written once and then belong to the user. -/
def isSkeleton : ArtifactKind → Bool
  | .skeletonHeader | .skeletonSource => true
  | _ => false

/-- There is one such file for a whole batch. -/
def isBatch : ArtifactKind → Bool
  | .umbrellaHeader | .bindingModule => true
  | _ => false

/-- The language for which the class must be resolved. -/
def language : ArtifactKind → Language
  | .stub => .python
  | _ => .cpp

/-- The path below the output or skeleton directory. -/
def path (className : String) : ArtifactKind → String
  | .baseHeader => Path.join "include" ("_" ++ className ++ ".hpp")
  | .baseSource => Path.join "src" ("_" ++ className ++ ".cpp")
  | .skeletonHeader => Path.join "include" (className ++ ".hpp")
  | .skeletonSource => Path.join "src" (className ++ ".cpp")
  | .binding => Path.join "pybind" ("py" ++ className ++ ".cpp")
  | .stub => Path.join "python" (className ++ ".pyi")
  | .umbrellaHeader => Path.join "include" "xtypes.hpp"
  | .bindingModule => Path.join "pybind" "pybind11_module.cpp"

/-- What starts a comment in the file. -/
def commentMark : ArtifactKind → String
  | .stub => "#"
  | _ => "//"

end ArtifactKind

end ClassSchema
