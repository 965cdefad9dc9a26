import ClassSchema.Text.Cut

/-! # Paths

Paths are texts: components with `/` between them, absolute if a `/` leads. -/

namespace ClassSchema.Path

def isAbsolute (path : String) : Bool := Text.startsWith "/" path

/-- A path below a directory; an absolute one replaces the directory. -/
def join (dir path : String) : String :=
  if isAbsolute path || dir.isEmpty then path
  else if Text.endsWith "/" dir then dir ++ path
  else dir ++ "/" ++ path

/-- A step of a path. -/
inductive Component where
  | root
  /-- The directory itself; it only counts at the start of a path. -/
  | here
  | up
  | name (text : String)
deriving DecidableEq, Repr, Inhabited

/-- The steps of a path: repeated slashes count once, and a dot is only kept at the start. -/
def components (path : String) : List Component :=
  let pieces := ((Chars.split (· == '/') path.toList).filter (!·.isEmpty)).map String.ofList
  let steps := pieces.filterMap fun
    | "." => none
    | ".." => some Component.up
    | piece => some (Component.name piece)
  if isAbsolute path then .root :: steps
  else if pieces.head? == some "." then .here :: steps
  else steps

/-- The last component, if it is a name. -/
def fileName? (path : String) : Option String :=
  match (components path).getLast? with
  | some (.name text) => some text
  | _ => none

/-- What follows the last dot of the last component, if something precedes it. -/
def fileExtension? (path : String) : Option String :=
  match (fileName? path).bind (Text.cutLast? ".") with
  | some (before, after) => if before.isEmpty then none else some after
  | none => none

/-- Whether a piece between slashes is no step: it is empty, or a dot after the start. -/
def isIdle (piece : String) : Bool := piece.isEmpty || piece == "."

/-- The pieces of a path without those at its end that are no steps. The first piece of a relative
path counts also if it is a dot. -/
def dropIdleEnd (pieces : List String) : List String :=
  match pieces with
  | [] => []
  | first :: rest =>
      let rest := (rest.reverse.dropWhile isIdle).reverse
      if rest.isEmpty && first.isEmpty then [] else first :: rest

/-- The path without its last component; the root and the empty path have no parent. -/
def parent? (path : String) : Option String :=
  let pieces := (Chars.split (· == '/') path.toList).map String.ofList
  if isAbsolute path then
    match (dropIdleEnd ("." :: pieces.drop 1)).drop 1 with
    | [] => none
    | steps => some ("/" ++ Text.join "/" ((dropIdleEnd ("." :: steps.dropLast)).drop 1))
  else
    match dropIdleEnd pieces with
    | [] => none
    | steps => some (Text.join "/" (dropIdleEnd steps.dropLast))

end ClassSchema.Path
