import ClassSchema.Artifact
import ClassSchema.Batch
import ClassSchema.Config
import ClassSchema.Document.Read
import ClassSchema.FileTree
import ClassSchema.Resolve

/-! # Generating the files of a project

All documents are resolved and ordered first; this gives the list of files to write. Only then are
they written, one after the other. What a run does is said once, for whatever files it is given:
those of a tree, or those of the operating system. -/

namespace ClassSchema

namespace Generate

/-- Why a path cannot be used. -/
inductive PathFault where
  /-- The input is neither a file nor a directory. -/
  | noInput
  | blocked (by_ : Obstacle)
deriving DecidableEq, Repr

def PathFault.message : PathFault → String
  | .noInput => "input does not exist"
  | .blocked obstacle => obstacle.message

inductive Error where
  | load (path : String) (error : Document.Error)
  | resolve (error : Resolve.Error)
  | batch (error : Batch.Error)
  | io (path : String) (fault : PathFault)
  | language (error : UnsupportedLanguage)
  | artifact (error : Artifact.Error)
deriving Repr

def Error.message : Error → String
  | .load path e => "failed to load schema '" ++ path ++ "': " ++ e.message
  | .resolve e => "schema error: " ++ e.message
  | .batch e => "schema error: " ++ e.message
  | .io path fault => "IO error on '" ++ path ++ "': " ++ fault.message
  | .language e => e.message
  | .artifact e => e.message

/-- A document with its path, and with its text if it can be read. -/
structure Source where
  path : String
  text : Except Obstacle String
deriving Repr, Inhabited

/-- A class resolved for the languages of a configuration. -/
structure ResolvedFile where
  path : String
  cpp : ClassModel
  python : Option ClassModel
  /-- Only bindings are generated. -/
  bindingOnly : Bool
deriving Repr, Inhabited

/-- The end of the names of documents that only give bindings. -/
def bindingOnlyEnd : String := "xtype.yaml"

def Source.resolve (config : Config) (s : Source) : Except Error ResolvedFile := do
  let doc ← match s.text with
    | .error obstacle => .error (.load s.path (.unreadable obstacle.message))
    | .ok text => (Document.read text).mapError (.load s.path)
  let cpp ← (ClassSchema.resolve ⟨config.project, .cpp⟩ doc).mapError .resolve
  let python ←
    if config.targets .python then
      ((ClassSchema.resolve ⟨config.project, .python⟩ doc).mapError .resolve).map some
    else .ok none
  return {
    path := s.path
    cpp
    python
    bindingOnly := (Path.fileName? s.path).any (Text.endsWith bindingOnlyEnd) }

/-- A file to be written. -/
structure Planned where
  path : String
  kind : ArtifactKind
  text : String
deriving Repr, Inhabited

/-- The file of a class; there is no skeleton without a directory for it. -/
def planClass (config : Config) (context : Artifact.Context) (c : ClassModel)
    (kind : ArtifactKind) : Except Artifact.Error (Option Planned) :=
  match Artifact.renderClass kind context c with
  | .error e => .error e
  | .ok text =>
      let dir := if kind.isSkeleton then config.skeletons else some config.output
      .ok (dir.map fun dir => ⟨Path.join dir (kind.path c.name), kind, text⟩)

def planClasses (config : Config) (context : Artifact.Context) :
    List (ClassModel × ArtifactKind) → Except Artifact.Error (List Planned)
  | [] => .ok []
  | (c, kind) :: rest => do
      let planned ← planClass config context c kind
      let others ← planClasses config context rest
      return planned.toList ++ others

/-- The files that a class has: those in C++ unless only bindings are wanted, then those in
Python. -/
def ResolvedFile.artifacts (config : Config) (f : ResolvedFile) :
    List (ClassModel × ArtifactKind) :=
  let cpp :=
    if config.targets .cpp && !f.bindingOnly then ArtifactKind.cppKinds.map (f.cpp, ·) else []
  cpp ++ match f.python with
    | none => []
    | some python => ArtifactKind.pythonKinds.map fun kind =>
        (if kind.language = .python then python else f.cpp, kind)

def ResolvedFile.plan (config : Config) (context : Artifact.Context) (f : ResolvedFile) :
    Except Artifact.Error (List Planned) :=
  planClasses config context (f.artifacts config)

/-- The kinds of files of a whole batch. -/
def batchKinds (config : Config) : List ArtifactKind :=
  (if config.targets .python then [.bindingModule] else [])
    ++ if config.targets .cpp && config.registry then [.umbrellaHeader] else []

def planBatch (config : Config) (b : Artifact.BatchContext) :
    List ArtifactKind → Except Artifact.Error (List Planned)
  | [] => .ok []
  | kind :: kinds => do
      let text ← Artifact.renderBatch kind b
      let others ← planBatch config b kinds
      return ⟨Path.join config.output (kind.path ""), kind, text⟩ :: others

/-- A batch that is ready to be written. -/
structure Compiled where
  files : List ResolvedFile
  order : Batch.Order
deriving Repr, Inhabited

/-- Resolves documents in turn, and orders their classes. -/
def compile (config : Config) (sources : List Source) : Except Error Compiled := do
  let files ← sources.mapM (Source.resolve config)
  let classes := files.map ResolvedFile.cpp
  (Batch.validate classes).mapError .batch
  let order ← (Batch.order classes).mapError .batch
  return ⟨files, order⟩

/-- The files of a batch. All texts are made before the first of them is written, and not each right
before its file is: no text depends on a file that was written before, and those of resolved classes
can all be made, so a run can neither see the difference nor stop in between because of it. -/
def Compiled.plan (config : Config) (context : Artifact.Context) (c : Compiled) :
    Except Artifact.Error (List Planned) := do
  let ofClasses ← planClasses config context (c.files.flatMap (ResolvedFile.artifacts config))
  let ofBatch ← planBatch config ⟨context, c.order.classes, config.registry⟩ (batchKinds config)
  return ofClasses ++ ofBatch

/-- What became of a file. -/
inductive Outcome where
  | written
  /-- The file differs at most in its head. -/
  | unchanged
  /-- The file belongs to the user. -/
  | preserved
deriving DecidableEq, Repr, Inhabited

/-- A text without the lines of its head. -/
def body (text : String) : List (List Char) := (Chars.split (· == '\n') text.toList).drop 3

def sameBody (a b : String) : Bool := body a == body b

/-- What is at a path before a file is written there. -/
inductive Found where
  | nothing
  | directory
  | text (value : String)
  /-- A file that is not text. -/
  | binary
deriving DecidableEq, Repr, Inhabited

/-- What becomes of a file that is only written if its body changes. -/
def outcome (path text : String) : Found → Except Error Outcome
  | .nothing | .directory => .ok .written
  | .text old => .ok (if sameBody old text then .unchanged else .written)
  | .binary => .error (.io path (.blocked .notText))

/-- What becomes of a file of the user, which is only replaced on demand. -/
def skeletonOutcome (overwrite : Bool) (path text : String) (found : Found) :
    Except Error Outcome :=
  if found ≠ .nothing && !overwrite then .ok .preserved else outcome path text found

def Planned.outcome (config : Config) (p : Planned) (found : Found) : Except Error Outcome :=
  if p.kind.isSkeleton then skeletonOutcome config.overwriteSkeletons p.path p.text found
  else Generate.outcome p.path p.text found

structure Emitted where
  path : String
  kind : ArtifactKind
  outcome : Outcome
deriving DecidableEq, Repr, Inhabited

/-- What is known of a batch after it has been written. -/
structure Summary where
  order : Batch.Order
  artifacts : List Emitted
deriving Repr, Inhabited

def writtenCount (artifacts : List Emitted) : Nat :=
  (artifacts.filter (·.outcome = .written)).length

/-- Whether a name is that of a document. -/
def isDocumentName (name : String) : Bool :=
  let ext := Path.fileExtension? name
  ext == some "yml" || ext == some "yaml"

/-! ## Runs -/

/-- The files around a run: what it asks of them and does to them, where each of these may fail. -/
structure Files (m : Type → Type) where
  /-- The documents under a path. -/
  documents (input : String) : m (List String)
  source (path : String) : m Source
  found (path : String) : m Found
  /-- Puts a text into a file. Missing directories are created. -/
  put (path text : String) : m Unit
  /-- Takes note of what became of a file. -/
  note (emitted : Emitted) : m Unit

namespace Files

variable {m : Type → Type} [Monad m] [MonadExcept Error m] (files : Files m)

/-- Writes a file if that is to become of it. -/
def settle (path text : String) (outcome : Except Error Outcome) : m Outcome := do
  let outcome ← MonadExcept.ofExcept outcome
  if outcome = .written then
    files.put path text
  return outcome

/-- Writes a file, unless it is there and differs at most in its head. -/
def writeIfChanged (path text : String) : m Outcome := do
  files.settle path text (outcome path text (← files.found path))

/-- Writes a file of the user, which is only replaced on demand. -/
def writeSkeleton (overwrite : Bool) (path text : String) : m Outcome := do
  files.settle path text (skeletonOutcome overwrite path text (← files.found path))

/-- Writes a planned file in the way of its kind. -/
def writePlanned (config : Config) (p : Planned) : m Outcome := do
  files.settle p.path p.text (p.outcome config (← files.found p.path))

/-- Writes files one after the other, up to the first failure. -/
def writeAll (config : Config) : List Planned → m (List Emitted)
  | [] => return []
  | p :: ps => do
      let outcome ← files.writePlanned config p
      files.note ⟨p.path, p.kind, outcome⟩
      let rest ← writeAll config ps
      return ⟨p.path, p.kind, outcome⟩ :: rest

/-- Writes what is planned, if it can be rendered. -/
def writePlan (config : Config) (plan : Except Artifact.Error (List Planned)) :
    m (List Emitted) := do
  let planned ← MonadExcept.ofExcept (plan.mapError .artifact)
  files.writeAll config planned

/-- Generates the files of one document. -/
def generateFile (config : Config) (at_ : Timestamp) (path : String) : m (List Emitted) := do
  let source ← files.source path
  let file ← MonadExcept.ofExcept (source.resolve config)
  files.writePlan config (file.plan config ⟨config.project, generationComment at_⟩)

/-- Generates the files of all documents under a path. -/
def generate (config : Config) (at_ : Timestamp) (input : String) : m Summary := do
  let paths ← files.documents input
  let sources ← paths.mapM files.source
  let compiled ← MonadExcept.ofExcept (compile config sources)
  let artifacts ←
    files.writePlan config (compiled.plan config ⟨config.project, generationComment at_⟩)
  return ⟨compiled.order, artifacts⟩

end Files

end Generate

/-! ## Runs on a tree -/

namespace FileTree

open Generate

def found (t : FileTree) (path : String) : Found :=
  match t.get? path with
  | none => .nothing
  | some .directory => .directory
  | some (.file (.text s)) => .text s
  | some (.file (.binary _)) => .binary

/-- Creates the directory of a file. -/
def makeParent (path : String) (t : FileTree) : Except Generate.Error Unit × FileTree :=
  match Path.parent? path with
  | none => (.ok (), t)
  | some parent => match t.createDirectories parent with
    | (.error obstacle, t) => (.error (.io parent (.blocked obstacle)), t)
    | (.ok (), t) => (.ok (), t)

/-- Puts a text into a file. Missing directories are created. -/
def put (path text : String) (t : FileTree) : Except Generate.Error Unit × FileTree :=
  match t.makeParent path with
  | (.error e, t) => (.error e, t)
  | (.ok (), t) => match t.write path (.text text) with
    | .error obstacle => (.error (.io path (.blocked obstacle)), t)
    | .ok t => (.ok (), t)

def source (t : FileTree) (path : String) : Source :=
  ⟨path, match t.found path with
    | .text s => .ok s
    | .nothing => .error .missing
    | .directory => .error .isDirectory
    | .binary => .error .notText⟩

/-- The documents under a path: a file is one, and in a directory those right below it are, sorted
by name. -/
def documents (t : FileTree) (input : String) : Except Generate.Error (List String) :=
  if t.isFile input then .ok [input]
  else match t.locate? input with
    | none => .error (.io input .noInput)
    | some l =>
        if t.isDirectoryAt l then
          .ok <| ((t.namesBelow l).map (Path.join input)).filter fun path =>
            isDocumentName path && t.isFile path
        else .error (.io input .noInput)

/-- What runs on a tree: it may change the tree, and it gives a result or fails. A failure leaves
the changes that were made before. -/
abbrev Run (α : Type) : Type := ExceptT Generate.Error (StateM FileTree) α

/-- The result of a run, and the tree that it leaves. -/
def run {α : Type} (t : FileTree) (x : Run α) : Except Generate.Error α × FileTree :=
  (x.run.run t).run

/-- The files of a tree. -/
def files : Files Run where
  documents input := ExceptT.mk fun t => (t.documents input, t)
  source path := ExceptT.mk fun t => (.ok (t.source path), t)
  found path := ExceptT.mk fun t => (.ok (t.found path), t)
  put path text := ExceptT.mk fun t => t.put path text
  note _ := return ()

@[inherit_doc Files.writeIfChanged]
def writeIfChanged (path text : String) (t : FileTree) : Except Generate.Error Outcome × FileTree :=
  t.run (files.writeIfChanged path text)

@[inherit_doc Files.writeSkeleton]
def writeSkeleton (overwrite : Bool) (path text : String) (t : FileTree) :
    Except Generate.Error Outcome × FileTree :=
  t.run (files.writeSkeleton overwrite path text)

@[inherit_doc Files.writePlanned]
def writePlanned (config : Config) (p : Planned) (t : FileTree) :
    Except Generate.Error Outcome × FileTree :=
  t.run (files.writePlanned config p)

@[inherit_doc Files.writeAll]
def writeAll (config : Config) (ps : List Planned) (t : FileTree) :
    Except Generate.Error (List Emitted) × FileTree :=
  t.run (files.writeAll config ps)

@[inherit_doc Files.writePlan]
def writePlan (config : Config) (plan : Except Artifact.Error (List Planned)) (t : FileTree) :
    Except Generate.Error (List Emitted) × FileTree :=
  t.run (files.writePlan config plan)

@[inherit_doc Files.generateFile]
def generateFile (config : Config) (at_ : Timestamp) (path : String) (t : FileTree) :
    Except Generate.Error (List Emitted) × FileTree :=
  t.run (files.generateFile config at_ path)

@[inherit_doc Files.generate]
def generate (config : Config) (at_ : Timestamp) (input : String) (t : FileTree) :
    Except Generate.Error Summary × FileTree :=
  t.run (files.generate config at_ input)

end FileTree

end ClassSchema
