import ClassSchema.Path
import ClassSchema.Text.Sorted

/-! # Trees of files -/

namespace ClassSchema

/-- What a file holds: text, or bytes that are not the encoding of a text. -/
inductive Content where
  | text (value : String)
  | binary (bytes : List UInt8)
deriving DecidableEq, Repr, Inhabited

inductive Entry where
  | directory
  | file (content : Content)
deriving DecidableEq, Repr, Inhabited

/-- What stands in the way of an operation on a file. -/
inductive Obstacle where
  | missing
  /-- A file is where a directory should be. -/
  | occupied
  | notDirectory
  | isDirectory
  | nameTooLong
  | zeroCharacter
  | notText
  | other (reason : String)
deriving DecidableEq, Repr, Inhabited

def Obstacle.message : Obstacle → String
  | .missing => "No such file or directory (os error 2)"
  | .occupied => "File exists (os error 17)"
  | .notDirectory => "Not a directory (os error 20)"
  | .isDirectory => "Is a directory (os error 21)"
  | .nameTooLong => "File name too long (os error 36)"
  | .zeroCharacter => "file name contained an unexpected NUL byte"
  | .notText => "stream did not contain valid UTF-8"
  | .other reason => reason

/-- The names that lead from the root to an entry, each after a `/`. -/
abbrev Location := String

namespace Location

def root : Location := ""

def child (l : Location) (name : String) : Location := l ++ "/" ++ name

/-- The directory of an entry and its name; the root has neither. -/
def cut? (l : Location) : Option (Location × String) := Text.cutLast? "/" l

/-- The directory above, which for the root is the root. -/
def above (l : Location) : Location := (cut? l).elim root Prod.fst

end Location

/-- Files and directories, and the directory where relative paths start. The root is always
there. -/
structure FileTree where
  workdir : Location := .root
  entries : List (Location × Entry) := []
deriving Repr, Inhabited

namespace FileTree

def entry? (t : FileTree) (l : Location) : Option Entry :=
  if l == .root then some .directory else t.entries.lookup l

def set (l : Location) (e : Entry) (t : FileTree) : FileTree :=
  { t with entries := (l, e) :: t.entries.filter (·.1 != l) }

def isDirectoryAt (t : FileTree) (l : Location) : Bool := t.entry? l == some .directory

/-- A name has at most 255 bytes, and none of them is zero. -/
def isValidName (name : String) : Bool := !name.toList.contains '\x00' && name.utf8ByteSize ≤ 255

/-- Follows the steps of a path. All but the last must lead to directories; also an empty step, as
at the end of a path, starts at one. -/
def walk (t : FileTree) : Location → List String → Option Location
  | l, [] => some l
  | l, step :: steps =>
      if !t.isDirectoryAt l then none
      else if step.isEmpty || step == "." then walk t l steps
      else if step == ".." then walk t l.above steps
      else if isValidName step then walk t (l.child step) steps
      else none

/-- A path has less than 4096 bytes. -/
def isTooLong (path : String) : Bool := path.utf8ByteSize ≥ 4096

/-- The place that a path denotes, whether or not something is there. -/
def locate? (t : FileTree) (path : String) : Option Location :=
  if path.isEmpty || isTooLong path then none
  else
    let steps := (Chars.split (· == '/') path.toList).map String.ofList
    t.walk (if Path.isAbsolute path then .root else t.workdir) steps

def get? (t : FileTree) (path : String) : Option Entry := (t.locate? path).bind t.entry?

def isFile (t : FileTree) (path : String) : Bool :=
  match t.get? path with
  | some (.file _) => true
  | _ => false

def isDirectory (t : FileTree) (path : String) : Bool := t.get? path == some .directory

def exists? (t : FileTree) (path : String) : Bool := (t.get? path).isSome

def readText? (t : FileTree) (path : String) : Option String :=
  match t.get? path with
  | some (.file (.text s)) => some s
  | _ => none

/-- The names of the entries right below a directory. -/
def namesBelow (t : FileTree) (l : Location) : List String :=
  nameSet <| t.entries.filterMap fun (place, _) =>
    match place.cut? with
    | some (dir, name) => if dir == l then some name else none
    | none => none

/-- Creates the directories along a path, as far as they are missing. -/
def createAlong : Location → List Path.Component → FileTree → Except Obstacle Unit × FileTree
  | _, [], t => (.ok (), t)
  | _, .root :: steps, t => createAlong .root steps t
  | l, .here :: steps, t => createAlong l steps t
  | l, .up :: steps, t => createAlong l.above steps t
  | l, .name name :: steps, t =>
      let l := l.child name
      match t.entry? l with
      | some .directory => createAlong l steps t
      | some (.file _) => (.error (if steps.isEmpty then .occupied else .notDirectory), t)
      | none =>
          if isValidName name then createAlong l steps (t.set l .directory)
          else (.error .nameTooLong, t)

def createDirectories (path : String) (t : FileTree) : Except Obstacle Unit × FileTree :=
  if path.toList.contains '\x00' then (.error .zeroCharacter, t)
  else if isTooLong path then (.error .nameTooLong, t)
  else createAlong t.workdir (Path.components path) t

/-- Puts content into a file, in a directory that is there. -/
def write (path : String) (content : Content) (t : FileTree) : Except Obstacle FileTree :=
  match t.locate? path with
  | none => .error .missing
  | some l => if t.isDirectoryAt l then .error .isDirectory else .ok (t.set l (.file content))

end FileTree

end ClassSchema
