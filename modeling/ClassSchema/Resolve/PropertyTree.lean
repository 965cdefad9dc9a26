import ClassSchema.Resolve.Error

/-! # The tree of properties

A mapping with the key `type` is a property; every other mapping groups what is below it. The
properties are listed level by level, in the order of the document. -/

namespace ClassSchema.Resolve

/-- A node of the tree under its path. -/
abbrev PathNode := String × Yaml.Value

def isLeaf (entries : List (Yaml.Value × Yaml.Value)) : Bool :=
  entries.any fun (k, _) => k.same (.string "type")

def childrenOf (path : String) : List (Yaml.Value × Yaml.Value) → Except Cause (List PathNode)
  | [] => .ok []
  | (k, v) :: es =>
      match keyText k with
      | .error e => .error e
      | .ok key => match childrenOf path es with
        | .error e => .error e
        | .ok rest => .ok ((path ++ "/" ++ key, v) :: rest)

/-- The properties of a level, and the nodes of the next one. -/
def splitLevel : List PathNode → Except Cause (List PathNode × List PathNode)
  | [] => .ok ([], [])
  | (path, .mapping es) :: nodes =>
      if isLeaf es then
        match splitLevel nodes with
        | .error e => .error e
        | .ok (leaves, next) => .ok ((path, .mapping es) :: leaves, next)
      else
        match childrenOf path es with
        | .error e => .error e
        | .ok children => match splitLevel nodes with
          | .error e => .error e
          | .ok (leaves, next) => .ok (leaves, children ++ next)
  | (path, _) :: _ => .error (.notMapping path)

/-- The properties of a level and of those below it, of which there are fewer than `depth`. -/
def leavesFrom : (depth : Nat) → List PathNode → Except Cause (List PathNode)
  | 0, _ => .ok []
  | depth + 1, level =>
      match splitLevel level with
      | .error e => .error e
      | .ok (leaves, next) => match leavesFrom depth next with
        | .error e => .error e
        | .ok deeper => .ok (leaves ++ deeper)

def topLevel : List (Yaml.Value × Yaml.Value) → Except Cause (List PathNode)
  | [] => .ok []
  | (k, v) :: es =>
      match keyText k with
      | .error e => .error e
      | .ok key => match topLevel es with
        | .error e => .error e
        | .ok rest => .ok ((key, v) :: rest)

/-- The properties of a tree with their paths. -/
def leaves (tree : List (Yaml.Value × Yaml.Value)) : Except Cause (List PathNode) :=
  match topLevel tree with
  | .error e => .error e
  | .ok level => leavesFrom (Yaml.Value.depthEntries tree + 1) level

end ClassSchema.Resolve
