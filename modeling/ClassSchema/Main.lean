import ClassSchema.CommandLine
import Std.Time.Format

/-! # The program

What to do is decided elsewhere; here files are read and written. -/

namespace ClassSchema.Program

open Generate

/-- A path of the operating system. -/
def place (path : String) := System.mkFilePath [path]

def obstacle : IO.Error → Obstacle
  | .noFileOrDirectory .. => .missing
  | .alreadyExists .. => .occupied
  | e => .other (toString e)

/-- Runs an operation on a path, whose failure is a failure of the program. -/
def onPath {α : Type} (path : String) (action : IO α) : EIO Generate.Error α := do
  match ← action.toBaseIO with
  | .ok a => return a
  | .error e => throw (.io path (.blocked (obstacle e)))

def found (path : String) : EIO Generate.Error Found := do
  match ← (place path).metadata.toBaseIO with
  | .error _ => return .nothing
  | .ok metadata =>
      if metadata.type == .file then
        let bytes ← onPath path (IO.FS.readBinFile (place path))
        match String.fromUTF8? bytes with
        | some text => return .text text
        | none => return .binary
      else return .directory

def source (path : String) : BaseIO Source := do
  match ← (IO.FS.readBinFile (place path)).toBaseIO with
  | .error e => return ⟨path, .error (obstacle e)⟩
  | .ok bytes =>
      match String.fromUTF8? bytes with
      | some text => return ⟨path, .ok text⟩
      | none => return ⟨path, .error .notText⟩

def isRegularFile (path : String) : BaseIO Bool := do
  match ← (place path).symlinkMetadata.toBaseIO with
  | .error _ => return false
  | .ok metadata => return metadata.type == .file

def documents (input : String) : EIO Generate.Error (List String) := do
  match ← (place input).metadata.toBaseIO with
  | .error _ => throw (.io input .noInput)
  | .ok metadata =>
      match metadata.type with
      | .file => return [input]
      | .dir =>
          let entries ← onPath input (place input).readDir
          let names := nameSet (entries.toList.map (·.fileName))
          let paths := (names.map (Path.join input)).filter isDocumentName
          paths.filterM fun path => isRegularFile path
      | _ => throw (.io input .noInput)

def put (path text : String) : EIO Generate.Error Unit := do
  if let some parent := Path.parent? path then
    unless parent.isEmpty do
      onPath parent (IO.FS.createDirAll (place parent))
  onPath path (IO.FS.writeFile (place path) text)

def outcomeText : Outcome → String
  | .written => "written"
  | .unchanged => "unchanged"
  | .preserved => "preserved"

/-- The files of the operating system. What becomes of them is told if that is wanted. -/
def files (verbose : Bool) : Files (EIO Generate.Error) where
  documents := documents
  source path := source path
  found := found
  put := put
  note emitted := do
    if verbose then
      onPath emitted.path (IO.eprintln (outcomeText emitted.outcome ++ ": " ++ emitted.path))

/-- The local time. -/
def now : IO Timestamp := do
  let t ← Std.Time.PlainDateTime.now
  return ⟨t.year, t.month.toNat, t.day.toNat, t.hour.toNat, t.minute.toNat, t.second.val.toNat⟩

def run (options : CommandLine.Options) (input : String) : EIO Generate.Error Summary := do
  let config ← EIO.ofExcept options.config
  let at_ ← onPath input now
  (files options.verbose).generate config at_ input

end ClassSchema.Program

open ClassSchema in
def main (args : List String) : IO UInt32 := do
  match CommandLine.parse args with
  | none =>
      IO.eprint CommandLine.usage
      return 2
  | some .help =>
      IO.print CommandLine.usage
      return 0
  | some .version =>
      IO.print CommandLine.versionText
      return 0
  | some (.run options) =>
      let input := options.input.getD ""
      let answer := CommandLine.answer input (← (Program.run options input).toBaseIO)
      IO.print answer.output
      if let some report := answer.report then
        IO.eprint report
      return answer.exitCode.toUInt32
