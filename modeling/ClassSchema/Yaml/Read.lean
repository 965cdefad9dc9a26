import ClassSchema.Yaml.Node
import ClassSchema.Yaml.Scalar
import ClassSchema.Yaml.Token.Scan
import ClassSchema.Yaml.Value

/-! # Reading YAML values -/

namespace ClassSchema.Yaml

/-- Why a text gives no value. -/
inductive Fault where
  /-- The text is not well-formed, or its first document has no value. -/
  | malformed
  /-- Aliases are followed more often than the size of the document admits. -/
  | tooManyAliases
  /-- Something follows the first document. -/
  | severalDocuments
deriving DecidableEq, Repr

def Fault.text : Fault → String
  | .malformed => "malformed YAML"
  | .tooManyAliases => "repetition limit exceeded"
  | .severalDocuments =>
      "deserializing from YAML containing more than one document is not supported"

namespace Node

mutual

/-- The number of marks and leaves of a node: two for a collection, one for all else. -/
def size {ν : Type} : Node ν → Nat
  | .broken => 0
  | .scalar .. | .alias _ => 1
  | .sequence _ items => 2 + sizeItems items
  | .mapping _ entries => 2 + sizeEntries entries

def sizeItems {ν : Type} : List (Node ν) → Nat
  | [] => 0
  | n :: ns => size n + sizeItems ns

def sizeEntries {ν : Type} : List (Node ν × Node ν) → Nat
  | [] => 0
  | (k, v) :: es => size k + size v + sizeEntries es

end

mutual

/-- The number of collections in which a text breaks off; their end marks are missing. -/
def unclosed? {ν : Type} : Node ν → Option Nat
  | .broken => some 0
  | .scalar .. | .alias _ => none
  | .sequence _ items => (unclosedItems? items).map (· + 1)
  | .mapping _ entries => (unclosedEntries? entries).map (· + 1)

def unclosedItems? {ν : Type} : List (Node ν) → Option Nat
  | [] => none
  | n :: ns => match unclosed? n with
    | some count => some count
    | none => unclosedItems? ns

def unclosedEntries? {ν : Type} : List (Node ν × Node ν) → Option Nat
  | [] => none
  | (k, v) :: es => match unclosed? k with
    | some count => some count
    | none => match unclosed? v with
      | some count => some count
      | none => unclosedEntries? es

end

/-- The size of what a text holds of a node. -/
def sizeRead {ν : Type} (n : Node ν) : Nat := n.size - n.unclosed?.getD 0

/-- The numbers of the names of anchors. -/
abbrev Names := List (String × Nat)

/-- A name gets as number how many names there are. A name that is defined again may thus share
its number with a later one. -/
def define (name : String) (names : Names) : Nat × Names :=
  let number := names.length
  if names.any (·.1 == name) then
    (number, names.map fun (m, i) => (m, if m == name then number else i))
  else (number, (name, number) :: names)

def numberProperties (p : Properties String) (names : Names) : Properties Nat × Names :=
  match p.anchor with
  | some name =>
      let (number, names) := define name names
      (⟨some number, p.tag⟩, names)
  | none => (⟨none, p.tag⟩, names)

mutual

/-- Replaces the names of anchors by numbers. The text breaks off at an alias that does not follow
its anchor. -/
def number : Node String → Names → Node Nat × Option Names
  | .broken, _ => (.broken, none)
  | .scalar p isPlain text, names =>
      let (p, names) := numberProperties p names
      (.scalar p isPlain text, some names)
  | .alias name, names => match names.lookup name with
    | some i => (.alias i, some names)
    | none => (.broken, none)
  | .sequence p items, names =>
      let (p, names) := numberProperties p names
      let (items, names) := numberItems items names
      (.sequence p items, names)
  | .mapping p entries, names =>
      let (p, names) := numberProperties p names
      let (entries, names) := numberEntries entries names
      (.mapping p entries, names)

def numberItems : List (Node String) → Names → List (Node Nat) × Option Names
  | [], names => ([], some names)
  | n :: ns, names => match number n names with
    | (n, none) => ([n], none)
    | (n, some names) =>
        let (ns, names) := numberItems ns names
        (n :: ns, names)

def numberEntries : List (Node String × Node String) → Names →
    List (Node Nat × Node Nat) × Option Names
  | [], names => ([], some names)
  | (k, v) :: es, names => match number k names with
    | (k, none) => ([(k, .broken)], none)
    | (k, some names) => match number v names with
      | (v, none) => ([(k, v)], none)
      | (v, some names) =>
          let (es, names) := numberEntries es names
          ((k, v) :: es, names)

end

/-- A node under the number of its anchor. -/
def underAnchor (p : Properties Nat) (n : Node Nat) : List (Nat × Node Nat) :=
  match p.anchor with
  | some i => [(i, n)]
  | none => []

mutual

/-- The nodes with an anchor, in the order of the document. -/
def anchored : Node Nat → List (Nat × Node Nat)
  | .scalar p isPlain text => underAnchor p (.scalar p isPlain text)
  | .alias _ | .broken => []
  | .sequence p items => underAnchor p (.sequence p items) ++ anchoredItems items
  | .mapping p entries => underAnchor p (.mapping p entries) ++ anchoredEntries entries

def anchoredItems : List (Node Nat) → List (Nat × Node Nat)
  | [] => []
  | n :: ns => anchored n ++ anchoredItems ns

def anchoredEntries : List (Node Nat × Node Nat) → List (Nat × Node Nat)
  | [] => []
  | (k, v) :: es => anchored k ++ anchored v ++ anchoredEntries es

end

/-- Drops a `!` that something follows. -/
def dropMark : List Char → List Char
  | '!' :: c :: cs => c :: cs
  | cs => cs

/-- A local tag is kept with the value, without up to two marks before it; other tags only say how
to read the value. -/
def keptTag? : Tag → Option String
  | .named text => match text.toList with
    | '!' :: cs => some (String.ofList (dropMark (dropMark ('!' :: cs))))
    | _ => none
  | .garbled _ => none

def ofScalar : Scalar → Except Fault Value
  | .null => .ok .null
  | .bool b => .ok (.bool b)
  | .number n => .ok (.number n)
  | .string s => .ok (.string s)
  | .wideInteger => .error .malformed

/-- The value of a scalar apart from its tag; only a tag that is not local has a say in it. -/
def scalarValue (tag : Option Tag) (isPlain : Bool) (text : String) : Except Fault Value :=
  match tag.filter (!·.isLocal) with
  | none => if isPlain then ofScalar (Scalar.ofPlain text) else .ok (.string text)
  | some (.garbled _) => .ok (.string text)
  | some (.named tag) => match Scalar.ofTagged? tag text with
    | some s => ofScalar s
    | none => .error .malformed

def withTag (tag : Option Tag) (v : Value) : Value :=
  match tag.bind keptTag? with
  | some t => .tagged t v
  | none => v

/-- What following aliases needs: the nodes with an anchor, the last one first, and how many
aliases may be followed. -/
structure Targets where
  nodes : List (Nat × Node Nat)
  limit : Nat

/-- The node for which an alias stands, and how many aliases have been followed. -/
def target (targets : Targets) (followed : Nat) : Node Nat → Except Fault (Node Nat × Nat)
  | .alias i =>
      if followed ≥ targets.limit then .error .tooManyAliases
      else match targets.nodes.lookup i with
        | some n => .ok (n, followed + 1)
        | none => .error .malformed
  | n => .ok (n, followed)

/-- Reads nodes from left to right, counting the aliases. -/
def valuesWith (read : Node Nat → Nat → Except Fault (Value × Nat)) :
    List (Node Nat) → Nat → Except Fault (List Value × Nat)
  | [], followed => .ok ([], followed)
  | n :: ns, followed => do
      let (v, followed) ← read n followed
      let (vs, followed) ← valuesWith read ns followed
      return (v :: vs, followed)

/-- Reads entries from left to right; a key that is there already is refused. -/
def entriesWith (read : Node Nat → Nat → Except Fault (Value × Nat)) :
    (seen : List Value) → List (Node Nat × Node Nat) → Nat →
      Except Fault (List (Value × Value) × Nat)
  | _, [], followed => .ok ([], followed)
  | seen, (k, v) :: es, followed => do
      let (k, followed) ← read k followed
      if seen.any k.same then .error .malformed
      else
        let (v, followed) ← read v followed
        let (es, followed) ← entriesWith read (k :: seen) es followed
        return ((k, v) :: es, followed)

/-- The value of a node in which collections are nested at most `depth` deep. -/
def value (targets : Targets) : (depth : Nat) → Node Nat → (followed : Nat) →
    Except Fault (Value × Nat)
  | depth, n, followed => do
      let (n, followed) ← target targets followed n
      match n, depth with
      | .scalar p isPlain text, _ => do
          let v ← scalarValue p.tag isPlain text
          return (withTag p.tag v, followed)
      | .sequence p items, depth + 1 => do
          let (vs, followed) ← valuesWith (value targets depth) items followed
          return (withTag p.tag (.sequence vs), followed)
      | .mapping p entries, depth + 1 => do
          let (es, followed) ← entriesWith (value targets depth) [] entries followed
          return (withTag p.tag (.mapping es), followed)
      | _, _ => .error .malformed

/-- Collections may be nested that deep, also through aliases. -/
def depthLimit : Nat := 128

/-- For each mark and leaf of a document that many aliases may be followed. -/
def aliasesPerPart : Nat := 100

/-- The value of what has been read. Where the text breaks off there is none, but aliases before
that place may be too many already. -/
def toValue (root : Node String) : Except Fault Value :=
  let root := (number root []).1
  let targets : Targets := ⟨(anchored root).reverse, aliasesPerPart * root.sizeRead⟩
  (value targets depthLimit root 0).map Prod.fst

end Node

/-- Reads the only document of a text; a text without document is null. -/
def read (text : String) : Except Fault Value :=
  let (root, rest) := Node.document (tokens text)
  match root.toValue, rest with
  | .error e, _ => .error e
  | .ok _, none => .error .malformed
  | .ok v, some rest =>
      if rest.dropWhile (· == .documentEnd) == [.streamEnd] then .ok v
      else .error .severalDocuments

end ClassSchema.Yaml
