import ClassSchema.ClassModel

/-! # Batches of classes

A batch is valid if its classes have different names and none is its own parent. Its classes are
ordered such that parents come before their children. -/

namespace ClassSchema.Batch

inductive Error where
  | duplicateClass (name : String)
  | inheritanceCycle (className parent : String)
  | unresolvedParent (className parent : String)
deriving DecidableEq, Repr

def Error.message : Error → String
  | .duplicateClass name => "class '" ++ name ++ "' is defined more than once"
  | .inheritanceCycle className parent =>
      "class '" ++ className ++ "' inherits from '" ++ parent ++ "' through an inheritance cycle"
  | .unresolvedParent className parent =>
      "class '" ++ className ++ "' inherits from '" ++ parent ++ "' which is not part of the batch"

def validateFrom : (seen : List String) → List ClassModel → Except Error Unit
  | _, [] => .ok ()
  | seen, c :: cs =>
      if c.name ∈ seen then .error (.duplicateClass c.name)
      else if c.localParent = some c.name then .error (.inheritanceCycle c.name c.name)
      else validateFrom (c.name :: seen) cs

def validate (classes : List ClassModel) : Except Error Unit := validateFrom [] classes

/-- The order of a batch, and the other projects on which it depends. -/
structure Order where
  classes : List String
  namespaces : List String
deriving DecidableEq, Repr, Inhabited

def Order.line (o : Order) : String := Text.join ";" o.namespaces

/-- The local parent of the last class of that name that has one. -/
def parentOf? (classes : List ClassModel) (name : String) : Option String :=
  (classes.reverse.find? fun c => c.name == name && c.parent.isSome).bind ClassModel.localParent

/-- A pass over the names that are left, in increasing order: those whose parent is the root or has
been placed, also by the same pass, are placed. -/
def pass (parent : String → String) : (placed : List String) → List String →
    List String × List String
  | _, [] => ([], [])
  | placed, n :: ns =>
      if ClassName.isRoot (parent n) || parent n ∈ placed then
        let (done, left) := pass parent (n :: placed) ns
        (n :: done, left)
      else
        let (done, left) := pass parent placed ns
        (done, n :: left)

/-- Passes until one places nothing; each but the last places a name, so `fuel` need not exceed the
number of names. Gives the names that are placed and those that cannot be. -/
def passes (parent : String → String) : (fuel : Nat) → (placed left : List String) →
    List String × List String
  | 0, _, left => ([], left)
  | fuel + 1, placed, left =>
      match pass parent placed left with
      | ([], left) => ([], left)
      | (done, left) =>
          let (more, left) := passes parent fuel (done ++ placed) left
          (done ++ more, left)

/-- The namespaces of the qualified classes that are mentioned. -/
def namespaces (classes : List ClassModel) : List String :=
  nameSet <| (classes.flatMap ClassModel.referenced).filterMap fun name =>
    (Text.cut? "::" name).map Prod.fst

def names (classes : List ClassModel) : List String := nameSet (classes.map ClassModel.name)

/-- The parent for which a class waits; a class without parent waits for the root. -/
def parentName (classes : List ClassModel) (name : String) : String :=
  (parentOf? classes name).getD ClassName.root

/-- Whether a class is placed before the first pass. -/
def isSeed (classes : List ClassModel) (name : String) : Bool :=
  name == ClassName.root || (parentOf? classes name).isNone

def seeds (classes : List ClassModel) : List String :=
  (names classes).filter (· == ClassName.root)
    ++ (names classes).filter fun n => isSeed classes n && n != ClassName.root

def later (classes : List ClassModel) : List String :=
  (names classes).filter fun n => !isSeed classes n

/-- The names that the passes place, and those that they cannot. -/
def placement (classes : List ClassModel) : List String × List String :=
  passes (parentName classes) ((later classes).length + 1) (seeds classes) (later classes)

/-- Whether the parent of a name is no class of the batch and not the root either. -/
def lacksParent (classes : List ClassModel) (name : String) : Bool :=
  !((names classes).contains (parentName classes name)
    || ClassName.isRoot (parentName classes name))

/-- The root comes first, then the classes without parent, then the others pass by pass. A parent
that is missing is reported before a cycle. -/
def order (classes : List ClassModel) : Except Error Order :=
  let (placed, stuck) := placement classes
  match stuck.find? (lacksParent classes), stuck with
  | some n, _ => .error (.unresolvedParent n (parentName classes n))
  | none, n :: _ => .error (.inheritanceCycle n (parentName classes n))
  | none, [] => .ok ⟨seeds classes ++ placed, namespaces classes⟩

end ClassSchema.Batch
