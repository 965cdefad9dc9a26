import ClassSchema.Artifact.Project
import ClassSchema.Artifact.Skeleton
import ClassSchema.Artifact.Stub

/-! # Generated files -/

namespace ClassSchema.Artifact

/-- Why a file cannot be rendered. -/
inductive Error where
  | wrongLanguage (kind : ArtifactKind) (found : Language)
  | notPerClass (kind : ArtifactKind)
  | notPerBatch (kind : ArtifactKind)
deriving DecidableEq, Repr

def Error.message : Error → String
  | .wrongLanguage kind found =>
      "cannot render " ++ kind.name ++ ": expects types rendered for " ++ kind.language.name
        ++ ", got " ++ found.name
  | .notPerClass kind => "cannot render " ++ kind.name ++ ": not a per-class artifact"
  | .notPerBatch kind => "cannot render " ++ kind.name ++ ": not a batch artifact"

/-- The lines of a file of a class. -/
def classLines (context : Context) (c : ClassModel) : ArtifactKind → Option (List String)
  | .baseHeader => some (baseHeader context c)
  | .baseSource => some (baseSource context c)
  | .skeletonHeader => some (skeletonHeader context c)
  | .skeletonSource => some (skeletonSource context c)
  | .binding => some (binding context c)
  | .stub => some (stub context c)
  | .umbrellaHeader | .bindingModule => none

/-- The text of a file of a class, which must be resolved for the language of the file. -/
def renderClass (kind : ArtifactKind) (context : Context) (c : ClassModel) : Except Error String :=
  match classLines context c kind with
  | none => .error (.notPerClass kind)
  | some lines =>
      if c.language = kind.language then .ok (Lines.text lines)
      else .error (.wrongLanguage kind c.language)

/-- The text of a file of a batch. -/
def renderBatch (kind : ArtifactKind) (b : BatchContext) : Except Error String :=
  match kind with
  | .umbrellaHeader => .ok (Lines.text (umbrellaHeader b))
  | .bindingModule => .ok (Lines.text (bindingModule b))
  | kind => .error (.notPerBatch kind)

end ClassSchema.Artifact
