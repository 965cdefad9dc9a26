import ClassSchema.Yaml.Token.Block
import ClassSchema.Yaml.Token.Flow
import ClassSchema.Yaml.Token.Property

/-! # From text to tokens

Indentation opens and closes blocks. That a node is the key of a mapping shows only at the colon
after it: each flow level remembers the last place where a key may have started, and the tokens of
the key are inserted there later. -/

namespace ClassSchema.Yaml

/-- A place where the key of a mapping may have started. -/
structure KeyPlace where
  /-- Nothing but a key may stand here. -/
  required : Bool
  /-- The number of tokens before it. -/
  position : Nat
  index : Nat
  line : Nat
  column : Nat
deriving Repr

structure Scanner where
  cursor : Cursor
  /-- The tokens read so far, the last one first. -/
  tokens : List Token := []
  count : Nat := 0
  /-- The column of the innermost block, `-1` outside of all. -/
  indent : Int := -1
  outerIndents : List Int := []
  keyAllowed : Bool := true
  key : Option KeyPlace := none
  /-- The places of keys around each flow collection that is open. -/
  outerKeys : List (Option KeyPlace) := []

namespace Scanner

def inFlow (s : Scanner) : Bool := !s.outerKeys.isEmpty

def push (t : Token) (s : Scanner) : Scanner :=
  { s with tokens := t :: s.tokens, count := s.count + 1 }

/-- Inserts a token after the first `position` ones. -/
def insertAt (position : Nat) (t : Token) (s : Scanner) : Scanner :=
  let later := s.count - position
  { s with tokens := s.tokens.take later ++ t :: s.tokens.drop later, count := s.count + 1 }

/-- Forgets the place of a key of this level, unless a key is required there. -/
def dropKey (s : Scanner) : Option Scanner :=
  match s.key with
  | some k => if k.required then none else some { s with key := none }
  | none => some s

/-- Remembers that a key may start here. -/
def saveKey (s : Scanner) : Option Scanner :=
  if s.keyAllowed then do
    let s ← s.dropKey
    let required := !s.inFlow && s.indent == (s.cursor.column : Int)
    return { s with
      key := some ⟨required, s.count, s.cursor.index, s.cursor.line, s.cursor.column⟩ }
  else some s

/-- A key lies on one line and is not longer than 1024 bytes. -/
def isOutdated (c : Cursor) (k : KeyPlace) : Bool := k.line < c.line || k.index + 1024 < c.index

def dropOutdatedKeys (s : Scanner) : Option Scanner :=
  let outdated := (s.key :: s.outerKeys).filterMap (Option.filter (isOutdated s.cursor))
  if outdated.any KeyPlace.required then none
  else
    let keep := Option.filter fun k => !isOutdated s.cursor k
    some { s with key := keep s.key, outerKeys := s.outerKeys.map keep }

/-- Closes the blocks that are indented more than `column`. -/
def closeBlocks (column : Int) (s : Scanner) : Scanner :=
  if s.inFlow then s
  else
    let closed := (s.indent :: s.outerIndents).takeWhile (column < ·)
    match (s.indent :: s.outerIndents).dropWhile (column < ·) with
    | indent :: outer =>
        { s with
          tokens := closed.map (fun _ => Token.blockEnd) ++ s.tokens
          count := s.count + closed.length
          indent
          outerIndents := outer }
    | [] => s

/-- Opens a block at `column` before the token at `position`, if it is indented more than the
current one. -/
def openBlock (column position : Nat) (t : Token) (s : Scanner) : Scanner :=
  if s.inFlow || !(s.indent < column) then s
  else { s.insertAt position t with indent := column, outerIndents := s.indent :: s.outerIndents }

def atCursor (c : Cursor) (s : Scanner) : Scanner := { s with cursor := c }

def skip (n : Nat) (s : Scanner) : Scanner := s.atCursor (s.cursor.skip n)

/-- Passes over spaces, comments and line breaks. After a line break a key may start; where a key
may start, tabs do not count as spaces. A byte order mark that starts a line takes one column of
it. -/
def skipGap : (fuel : Nat) → Scanner → Scanner
  | 0, s => s
  | fuel + 1, s =>
      let c := s.cursor
      let c := if c.column == 0 && c.peek? == some byteOrderMark then c.skip 1 else c
      let tabs := s.inFlow || !s.keyAllowed
      let c := c.skipWhile fun ch => ch == ' ' || (tabs && ch == '\t')
      let c := if c.peek? == some '#' then c.skipWhile (!isBreak ·) else c
      match c.break? with
      | some (_, next) =>
          skipGap fuel { s with cursor := next, keyAllowed := s.keyAllowed || !s.inFlow }
      | none => s.atCursor c

/-- Leaves all blocks, as at the edges of a document. -/
def leaveBlocks (s : Scanner) : Option Scanner :=
  (s.closeBlocks (-1)).dropKey.map fun s => { s with keyAllowed := false }

/-- The end of the text counts as the start of a line. -/
def fetchStreamEnd (s : Scanner) : Option Scanner :=
  s.leaveBlocks.map fun s => s.push .streamEnd

def fetchDirective (s : Scanner) : Option Scanner := do
  let s ← s.leaveBlocks
  let (t, c) ← s.cursor.directive?
  return (s.atCursor c).push t

def fetchDocumentMark (t : Token) (s : Scanner) : Option Scanner :=
  s.leaveBlocks.map fun s => (s.skip 3).push t

def fetchFlowStart (t : Token) (s : Scanner) : Option Scanner := do
  let s ← s.saveKey
  let inner := { s with keyAllowed := true, key := none, outerKeys := s.key :: s.outerKeys }
  return (inner.skip 1).push t

def leaveFlow (s : Scanner) : Scanner :=
  match s.outerKeys with
  | key :: outer => { s with key, outerKeys := outer }
  | [] => s

def fetchFlowEnd (t : Token) (s : Scanner) : Option Scanner := do
  let s ← s.dropKey
  return ({ s.leaveFlow with keyAllowed := false }.skip 1).push t

def fetchFlowEntry (s : Scanner) : Option Scanner := do
  let s ← s.dropKey
  return ({ s with keyAllowed := true }.skip 1).push .flowEntry

def fetchBlockEntry (s : Scanner) : Option Scanner := do
  if !s.inFlow && !s.keyAllowed then none
  else
    let s ← (s.openBlock s.cursor.column s.count .blockSequenceStart).dropKey
    return ({ s with keyAllowed := true }.skip 1).push .blockEntry

def fetchKey (s : Scanner) : Option Scanner := do
  if !s.inFlow && !s.keyAllowed then none
  else
    let s ← (s.openBlock s.cursor.column s.count .blockMappingStart).dropKey
    return ({ s with keyAllowed := !s.inFlow }.skip 1).push .key

def fetchValue (s : Scanner) : Option Scanner :=
  match s.key with
  | some k =>
      let s := (s.insertAt k.position .key).openBlock k.column k.position .blockMappingStart
      some (({ s with key := none, keyAllowed := false }.skip 1).push .value)
  | none =>
      if !s.inFlow && !s.keyAllowed then none
      else
        let s := s.openBlock s.cursor.column s.count .blockMappingStart
        some (({ s with keyAllowed := !s.inFlow }.skip 1).push .value)

/-- Reads a token that may be a key, or the start of one. -/
def fetchNode (read : Cursor → Option (Token × Cursor)) (s : Scanner) : Option Scanner := do
  let s ← s.saveKey
  let (t, c) ← read s.cursor
  return { s with cursor := c, keyAllowed := false }.push t

def fetchQuoted (q : Quote) (s : Scanner) : Option Scanner :=
  s.fetchNode fun c => (q.scalar? c).map fun (text, last) =>
    (.scalar false (String.ofList text), last)

def fetchBlockScalar (style : BlockStyle) (s : Scanner) : Option Scanner := do
  let s ← s.dropKey
  let (text, c) ← s.cursor.blockScalar? style s.indent
  return { s with cursor := c, keyAllowed := true }.push (.scalar false (String.ofList text))

def fetchPlain (s : Scanner) : Option Scanner := do
  let s ← s.saveKey
  let plain ← s.cursor.plainScalar? s.inFlow (s.indent + 1).toNat
  return { s with cursor := plain.last, keyAllowed := plain.beforeBreak }.push
    (.scalar true (String.ofList plain.text))

/-- Whether a plain scalar may start with these characters. -/
def startsPlain (inFlow : Bool) : List Char → Bool
  | [] => false
  | c :: cs =>
      if c == '-' then !cs.head?.any isSpace
      else if c == '?' || c == ':' then !inFlow && !atGap cs
      else !isGap c && !",[]\x7b\x7d#&*!|>'\"%@`".toList.contains c

/-- Reads the next token, and those of the blocks that end before it. -/
def fetchNext (s : Scanner) : Option Scanner := do
  let s ← (s.skipGap (s.cursor.rest.length + 1)).dropOutdatedKeys
  let s := s.closeBlocks s.cursor.column
  match s.cursor.rest with
  | [] => s.fetchStreamEnd
  | c :: rest =>
      if c == '%' && s.cursor.column == 0 then s.fetchDirective
      else if s.cursor.atDocumentMark ['-', '-', '-'] then s.fetchDocumentMark .documentStart
      else if s.cursor.atDocumentMark ['.', '.', '.'] then s.fetchDocumentMark .documentEnd
      else if c == '[' then s.fetchFlowStart .flowSequenceStart
      else if c == '\x7b' then s.fetchFlowStart .flowMappingStart
      else if c == ']' then s.fetchFlowEnd .flowSequenceEnd
      else if c == '\x7d' then s.fetchFlowEnd .flowMappingEnd
      else if c == ',' then s.fetchFlowEntry
      else if c == '-' && atGap rest then s.fetchBlockEntry
      else if c == '?' && (s.inFlow || atGap rest) then s.fetchKey
      else if c == ':' && (s.inFlow || atGap rest) then s.fetchValue
      else if c == '*' then
        s.fetchNode fun c => c.anchorName?.map fun (name, last) => (.alias name, last)
      else if c == '&' then
        s.fetchNode fun c => c.anchorName?.map fun (name, last) => (.anchor name, last)
      else if c == '!' then s.fetchNode (Cursor.tag? s.inFlow)
      else if c == '|' && !s.inFlow then s.fetchBlockScalar .literal
      else if c == '>' && !s.inFlow then s.fetchBlockScalar .folded
      else if c == '\'' then s.fetchQuoted .single
      else if c == '"' then s.fetchQuoted .double
      else if startsPlain s.inFlow s.cursor.rest then s.fetchPlain
      else none

/-- The tokens that are final: none that may still turn out to belong to a key. -/
def settled (s : Scanner) : List Token :=
  let pending := (s.key :: s.outerKeys).filterMap (Option.filter fun k => !isOutdated s.cursor k)
  s.tokens.reverse.take (pending.foldl (fun n k => min n k.position) s.count)

/-- Reads tokens up to the end of the text, or as many as are final where it is faulty. -/
def run : (fuel : Nat) → Scanner → List Token
  | 0, s => s.settled
  | fuel + 1, s =>
      match s.fetchNext with
      | none => s.settled
      | some s' =>
          if s'.tokens.head? == some .streamEnd then s'.tokens.reverse else run fuel s'

end Scanner

/-- The tokens of a text. The last one is the end of the stream, unless the text is faulty: every
step but the last reads a character, so the length of the text bounds their number. -/
def tokens (text : String) : List Token :=
  let cs := text.toList
  if cs.all isAllowed then Scanner.run (cs.length + 1) { cursor := { rest := cs } } else []

end ClassSchema.Yaml
