import ClassSchema.Yaml.Token

/-! # Nodes

A node carries its anchor and its tag; aliases are kept. The names of anchors are texts at first,
and become numbers when aliases are looked up. A text that is not well-formed still gives the nodes
before the place where it breaks off. -/

namespace ClassSchema.Yaml

inductive Tag where
  | named (text : String)
  /-- Not all of its bytes encode characters. -/
  | garbled (isLocal : Bool)
deriving DecidableEq, Repr, Inhabited

namespace Tag

/-- A local tag starts with `!`. -/
def isLocal : Tag → Bool
  | .named text => text.toList.head? == some '!'
  | .garbled isLocal => isLocal

def ofText (text : TagText) : Tag :=
  match text.mapM id with
  | some cs => .named (String.ofList cs)
  | none => .garbled (text.head? == some (some '!'))

end Tag

structure Properties (ν : Type) where
  anchor : Option ν := none
  tag : Option Tag := none
deriving Repr, Inhabited

inductive Node (ν : Type) where
  | scalar (properties : Properties ν) (isPlain : Bool) (text : String)
  | sequence (properties : Properties ν) (items : List (Node ν))
  | mapping (properties : Properties ν) (entries : List (Node ν × Node ν))
  | alias (name : ν)
  /-- The text breaks off before this node. -/
  | broken
deriving Repr, Inhabited

/-- The node that is left out, as after a key without value. -/
def Node.absent : Node String := .scalar {} true ""

/-- What has been read of something, and the tokens after it, or none if the text breaks off. -/
abbrev Reading (α : Type) := α × Option (List Token)

namespace Reading

def map {α β : Type} (f : α → β) (r : Reading α) : Reading β := (f r.1, r.2)

/-- Reads on with `next`; where the text breaks off, `last` is all. -/
def onward {α β : Type} (r : Reading α) (last : α → β) (next : α → List Token → Reading β) :
    Reading β :=
  match r with
  | (a, none) => (last a, none)
  | (a, some ts) => next a ts

end Reading

namespace Node

/-- The tags for which the handles of a document stand. -/
abbrev Handles := List (String × TagText)

def defaultHandles : Handles :=
  [("!", [some '!']), ("!!", "tag:yaml.org,2002:".toList.map some)]

def resolveTag? (handles : Handles) (handle : String) (rest : TagText) : Option Tag :=
  if handle.isEmpty then some (.ofText rest)
  else (handles.lookup handle).map fun replacement => .ofText (replacement ++ rest)

/-- Reads an anchor and a tag, each at most once and in any order. -/
def properties? (handles : Handles) (ts : List Token) : Option (Properties String × List Token) :=
  match ts with
  | .anchor a :: .tag h r :: ts => (resolveTag? handles h r).map (⟨some a, some ·⟩, ts)
  | .anchor a :: ts => some (⟨some a, none⟩, ts)
  | .tag h r :: .anchor a :: ts => (resolveTag? handles h r).map (⟨some a, some ·⟩, ts)
  | .tag h r :: ts => (resolveTag? handles h r).map (⟨none, some ·⟩, ts)
  | ts => some ({}, ts)

def breakOff : Reading (Node String) := (.broken, none)

/-- Where a node may be left out, it is if one of the tokens in `stops` comes next. -/
def orAbsent (stops : List Token) (read : List Token → Reading (Node String))
    (ts : List Token) : Reading (Node String) :=
  match ts with
  | [] => breakOff
  | t :: _ => if stops.contains t then (absent, some ts) else read ts

/-- A node that is left out whatever comes next. -/
def leftOut : List Token → Reading (Node String)
  | [] => breakOff
  | t :: ts => (absent, some (t :: ts))

def keyOnly (k : Node String) : List (Node String × Node String) := [(k, .broken)]

/-- What follows a comma between two items or entries. -/
def afterComma? : List Token → Option (List Token)
  | .flowEntry :: ts => some ts
  | _ => none

/-- Where a node stands. -/
inductive Place where
  /-- Blocks may start here. -/
  | block
  /-- Blocks may start here, also a sequence that is not indented. -/
  | entry
  /-- Only flow collections may start here. -/
  | flow
deriving DecidableEq

mutual

def node (handles : Handles) : (fuel : Nat) → Place → List Token → Reading (Node String)
  | 0, _, _ => breakOff
  | _ + 1, _, .alias name :: ts => (.alias name, some ts)
  | fuel + 1, place, ts =>
      match properties? handles ts with
      | none | some (_, []) => breakOff
      | some (p, t :: rest) =>
          if place == .entry && t == .blockEntry then
            (unindentedItems handles fuel (t :: rest)).map (.sequence p)
          else match t with
            | .scalar isPlain text => (.scalar p isPlain text, some rest)
            | .flowSequenceStart => (flowItems handles fuel true rest).map (.sequence p)
            | .flowMappingStart => (flowEntries handles fuel true rest).map (.mapping p)
            | t =>
                if place != .flow && t == .blockSequenceStart then
                  (blockItems handles fuel rest).map (.sequence p)
                else if place != .flow && t == .blockMappingStart then
                  (blockEntries handles fuel rest).map (.mapping p)
                else if p.anchor.isSome || p.tag.isSome then
                  (.scalar p true "", some (t :: rest))
                else breakOff

def blockItems (handles : Handles) : (fuel : Nat) → List Token → Reading (List (Node String))
  | fuel + 1, .blockEntry :: ts =>
      (orAbsent [.blockEntry, .blockEnd] (node handles fuel .block) ts).onward ([·])
        fun item ts => (blockItems handles fuel ts).map (item :: ·)
  | _ + 1, .blockEnd :: ts => ([], some ts)
  | _, _ => ([.broken], none)

def unindentedItems (handles : Handles) : (fuel : Nat) → List Token →
    Reading (List (Node String))
  | fuel + 1, .blockEntry :: ts =>
      (orAbsent [.blockEntry, .key, .value, .blockEnd] (node handles fuel .block) ts).onward ([·])
        fun item ts => (unindentedItems handles fuel ts).map (item :: ·)
  | _ + 1, t :: ts => ([], some (t :: ts))
  | _, _ => ([.broken], none)

def blockEntries (handles : Handles) : (fuel : Nat) → List Token →
    Reading (List (Node String × Node String))
  | fuel + 1, .key :: ts =>
      (orAbsent [.key, .value, .blockEnd] (node handles fuel .entry) ts).onward keyOnly
        fun k ts => (blockValue handles fuel ts).onward (fun v => [(k, v)])
          fun v ts => (blockEntries handles fuel ts).map ((k, v) :: ·)
  | _ + 1, .blockEnd :: ts => ([], some ts)
  | _, _ => ([(.broken, .broken)], none)

def blockValue (handles : Handles) : (fuel : Nat) → List Token → Reading (Node String)
  | fuel + 1, .value :: ts => orAbsent [.key, .value, .blockEnd] (node handles fuel .entry) ts
  | _, ts => leftOut ts

/-- Items of a flow sequence; a comma stands before each but the first. -/
def flowItems (handles : Handles) : (fuel : Nat) → (first : Bool) → List Token →
    Reading (List (Node String))
  | 0, _, _ => ([.broken], none)
  | _ + 1, _, .flowSequenceEnd :: ts => ([], some ts)
  | fuel + 1, first, ts =>
      match (if first then some ts else afterComma? ts) with
      | none => ([.broken], none)
      | some (.flowSequenceEnd :: ts) => ([], some ts)
      | some (.key :: ts) =>
          ((flowPair handles fuel ts).map (.mapping {})).onward ([·])
            fun item ts => (flowItems handles fuel false ts).map (item :: ·)
      | some ts =>
          (node handles fuel .flow ts).onward ([·])
            fun item ts => (flowItems handles fuel false ts).map (item :: ·)

/-- A single pair as item of a flow sequence, which ends before the token that follows it. The
token after an absent key is passed over. -/
def flowPair (handles : Handles) : (fuel : Nat) → List Token →
    Reading (List (Node String × Node String))
  | fuel + 1, t :: ts =>
      let key : Reading (Node String) :=
        if [.value, .flowEntry, .flowSequenceEnd].contains t then (absent, some ts)
        else node handles fuel .flow (t :: ts)
      Reading.onward key keyOnly
        fun k ts => (flowPairValue handles fuel ts).onward (fun v => [(k, v)])
          fun v ts =>
            if ts.isEmpty then ([(k, v), (.broken, .broken)], none) else ([(k, v)], some ts)
  | _, _ => ([(.broken, .broken)], none)

def flowPairValue (handles : Handles) : (fuel : Nat) → List Token → Reading (Node String)
  | fuel + 1, .value :: ts => orAbsent [.flowEntry, .flowSequenceEnd] (node handles fuel .flow) ts
  | _, ts => leftOut ts

/-- Entries of a flow mapping; a node without a mark is a key without value. -/
def flowEntries (handles : Handles) : (fuel : Nat) → (first : Bool) → List Token →
    Reading (List (Node String × Node String))
  | 0, _, _ => ([(.broken, .broken)], none)
  | _ + 1, _, .flowMappingEnd :: ts => ([], some ts)
  | fuel + 1, first, ts =>
      match (if first then some ts else afterComma? ts) with
      | none => ([(.broken, .broken)], none)
      | some (.flowMappingEnd :: ts) => ([], some ts)
      | some (.key :: ts) =>
          let key := orAbsent [.value, .flowEntry, .flowMappingEnd] (node handles fuel .flow) ts
          key.onward keyOnly
            fun k ts => (flowValue handles fuel ts).onward (fun v => [(k, v)])
              fun v ts => (flowEntries handles fuel false ts).map ((k, v) :: ·)
      | some ts =>
          (node handles fuel .flow ts).onward keyOnly
            fun k ts => (leftOut ts).onward (fun v => [(k, v)])
              fun v ts => (flowEntries handles fuel false ts).map ((k, v) :: ·)

def flowValue (handles : Handles) : (fuel : Nat) → List Token → Reading (Node String)
  | fuel + 1, .value :: ts => orAbsent [.flowEntry, .flowMappingEnd] (node handles fuel .flow) ts
  | _, ts => leftOut ts

end

/-- Reads the directives before a document: at most one version, 1.1 or 1.2, and no handle twice. -/
def directives? : (version : Bool) → Handles → List Token → Option (Handles × List Token)
  | version, handles, .versionDirective major minor :: ts =>
      if version || major != 1 || !(minor == 1 || minor == 2) then none
      else directives? true handles ts
  | version, handles, .tagDirective handle replacement :: ts =>
      if handles.any (·.1 == handle) then none
      else directives? version (handles ++ [(handle, replacement)]) ts
  | _, handles, ts => some (handles, ts)

def isDirective : Token → Bool
  | .versionDirective .. | .tagDirective .. => true
  | _ => false

/-- A bound on the steps that reading a node can take. -/
def enoughFuel (ts : List Token) : Nat := 4 * (ts.length + 1)

/-- Reads the root of the first document. -/
def root (ts : List Token) : Reading (Node String) :=
  match ts with
  | [] => breakOff
  | .streamEnd :: _ => (absent, some ts)
  | t :: _ =>
      if isDirective t || t == .documentStart then
        match directives? false [] ts with
        | some (handles, .documentStart :: next :: ts) =>
            if isDirective next || [.documentStart, .documentEnd, .streamEnd].contains next then
              (absent, some (next :: ts))
            else node (handles ++ defaultHandles) (enoughFuel ts) .block (next :: ts)
        | _ => breakOff
      else node defaultHandles (enoughFuel ts) .block ts

/-- Reads the first document up to its end, which a mark may close. -/
def document (ts : List Token) : Reading (Node String) :=
  (root ts).onward id fun n ts =>
    match ts with
    | [] => (n, none)
    | .documentEnd :: ts => (n, some ts)
    | ts => (n, some ts)

end Node

end ClassSchema.Yaml
