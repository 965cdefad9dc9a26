import ClassSchema.Text.Cut
import ClassSchema.Yaml.Scalar
import ClassSchema.Yaml.Value

/-! # Writing YAML values

Collections are written in block style, and strings plain where they read back as strings, quoted
or as a literal block elsewhere. Lines are never folded. -/

namespace ClassSchema.Yaml

/-- The characters that may stand for themselves outside of double quotes. -/
def isPrintable (c : Char) : Bool :=
  let n := c.toNat
  n == 0x0A || (0x20 ≤ n && n ≤ 0x7E)
    || (0xA0 ≤ n && n != 0xFEFF && n != 0xFFFE && n != 0xFFFF)

inductive Style where
  | plain
  | single
  | double
  | literal
deriving DecidableEq, Repr

namespace Style

/-- Whether a mark of block structure would be seen in the text, of which `previous` stood
before. -/
def hasMarkAfter (previous : Char) : List Char → Bool
  | [] => false
  | c :: cs =>
      (c == ':' && atGap cs) || (c == '#' && isGap previous) || hasMarkAfter c cs

/-- Whether a plain text would be taken for block structure. -/
def looksLikeBlock (cs : List Char) : Bool :=
  match cs with
  | [] => false
  | c :: rest =>
      ['-', '-', '-'].isPrefixOf cs || ['.', '.', '.'].isPrefixOf cs
        || "#,[]\x7b\x7d&*!|>'\"%@`".toList.contains c
        || ((c == '?' || c == ':' || c == '-') && atGap rest)
        || hasMarkAfter c rest

/-- Whether two neighbours satisfy `p` and `q`. -/
def hasNeighbours (p q : Char → Bool) : List Char → Bool
  | a :: b :: cs => (p a && q b) || hasNeighbours p q (b :: cs)
  | _ => false

def isBlankSpace (c : Char) : Bool := c == ' '

/-- What only double quotes can hold. -/
def needsEscapes (cs : List Char) : Bool :=
  !cs.all isPrintable || hasNeighbours isBlankSpace isBreak cs

def plainAllowed (cs : List Char) : Bool :=
  let edge (c : Option Char) := c.any fun c => c == ' ' || isBreak c
  !(edge cs.head? || edge cs.getLast? || cs.any isBreak || needsEscapes cs || looksLikeBlock cs)

def singleAllowed (cs : List Char) : Bool :=
  !(needsEscapes cs || hasNeighbours isBreak isBlankSpace cs)

def literalAllowed (cs : List Char) : Bool :=
  !(cs.isEmpty || cs.getLast? == some ' ' || needsEscapes cs)

def quoted (cs : List Char) : Style := if singleAllowed cs then .single else .double

/-- A text that would read as anything but a string is quoted. -/
def readsAsString (s : String) : Bool :=
  match Scalar.ofPlain s with
  | .string _ => !Scalar.isZeroLed (Scalar.signed s.toList).2
  | _ => false

def ofString (s : String) : Style :=
  let cs := s.toList
  if cs.contains '\n' then if literalAllowed cs then .literal else .double
  else if readsAsString s && plainAllowed cs then .plain
  else quoted cs

end Style

def spaces (n : Int) : List Char := List.replicate n.toNat ' '

def hexDigits (width n : Nat) : List Char :=
  let digits := (Nat.toDigits 16 n).map Char.toUpper
  List.replicate (width - digits.length) '0' ++ digits

def escapeChar (c : Char) : List Char :=
  match c with
  | '\x00' => ['\\', '0']
  | '\x07' => ['\\', 'a']
  | '\x08' => ['\\', 'b']
  | '\t' => ['\\', 't']
  | '\n' => ['\\', 'n']
  | '\x0b' => ['\\', 'v']
  | '\x0c' => ['\\', 'f']
  | '\r' => ['\\', 'r']
  | '\x1b' => ['\\', 'e']
  | '"' => ['\\', '"']
  | '\\' => ['\\', '\\']
  | '\u0085' => ['\\', 'N']
  | '\u2028' => ['\\', 'L']
  | '\u2029' => ['\\', 'P']
  | c =>
      if isPrintable c then [c]
      else if c.toNat ≤ 0xFF then '\\' :: 'x' :: hexDigits 2 c.toNat
      else if c.toNat ≤ 0xFFFF then '\\' :: 'u' :: hexDigits 4 c.toNat
      else '\\' :: 'U' :: hexDigits 8 c.toNat

def doubleQuoted (cs : List Char) : List Char := '"' :: cs.flatMap escapeChar ++ ['"']

/-- The text of a single-quoted scalar; a line that a break starts is indented. -/
def singleQuotedFrom (indent : Int) : (afterBreak : Bool) → List Char → List Char
  | afterBreak, [] => if afterBreak then spaces indent else []
  | afterBreak, c :: cs =>
      if isBreak c then c :: singleQuotedFrom indent true cs
      else (if afterBreak then spaces indent else []) ++ (if c == '\'' then ['\'', '\''] else [c])
        ++ singleQuotedFrom indent false cs

def singleQuoted (indent : Int) (cs : List Char) : List Char :=
  '\'' :: singleQuotedFrom indent false cs ++ ['\'']

/-- The marks of a literal block: the indentation if its first line starts with a gap, and what
becomes of the line breaks at its end. -/
def literalMarks (cs : List Char) : List Char :=
  let indentation := if cs.head?.any (fun c => c == ' ' || isBreak c) then ['2'] else []
  let ending := match cs.reverse with
    | a :: b :: _ => if !isBreak a then ['-'] else if isBreak b then ['+'] else []
    | [a] => if isBreak a then ['+'] else ['-']
    | [] => ['-']
  '|' :: indentation ++ ending

/-- The lines of a literal block, each that is not empty indented. -/
def literalLines (indent : Int) : (atStart : Bool) → List Char → List Char
  | _, [] => []
  | atStart, c :: cs =>
      if isBreak c then c :: literalLines indent true cs
      else (if atStart then spaces indent else []) ++ c :: literalLines indent false cs

def literalBlock (indent : Int) (cs : List Char) : List Char :=
  literalMarks cs ++ '\n' :: literalLines indent true cs

def stringText (indent : Int) (s : String) : List Char :=
  match Style.ofString s with
  | .plain => s.toList
  | .single => singleQuoted indent s.toList
  | .double => doubleQuoted s.toList
  | .literal => literalBlock indent s.toList

/-- The characters of a tag that need no escape. -/
def isPlainTagChar (c : Char) : Bool := isWord c || ";/?:@&=+$,.~*'()[]".toList.contains c

def escapeTag (cs : List Char) : List Char :=
  cs.flatMap fun c =>
    if isPlainTagChar c then [c]
    else (String.singleton c).toUTF8.toList.flatMap fun b => '%' :: hexDigits 2 b.toNat

/-- A tag with the mark before it, which may be part of the tag already. -/
def markedTag (tag : String) : List Char :=
  match tag.toList with
  | '!' :: cs => '!' :: cs
  | cs => '!' :: cs

/-- The mark alone is no tag in short form. -/
def tagText (tag : String) : List Char :=
  match markedTag tag with
  | '!' :: c :: cs => '!' :: escapeTag (c :: cs)
  | cs => '!' :: '<' :: escapeTag cs ++ ['>']

/-- What stands before a node on its line. -/
inductive Lead where
  /-- The indentation. -/
  | start
  /-- A mark of an item or of an entry, which a block may follow on the same line. -/
  | mark
  /-- A key or a tag, which a block follows on a new line. -/
  | key
deriving DecidableEq

/-- Where a node is written. -/
structure Slot where
  /-- The indentation of the collection around it, `-1` if there is none. -/
  indent : Int
  inMapping : Bool
  lead : Lead

namespace Slot

def root : Slot := ⟨-1, false, .start⟩

def gap (slot : Slot) : List Char := if slot.lead = .start then [] else [' ']

/-- The indentation of the lines of a scalar. -/
def scalarIndent (slot : Slot) : Int := if slot.indent < 0 then 2 else slot.indent + 2

def mappingIndent (slot : Slot) : Int := if slot.indent < 0 then 0 else slot.indent + 2

/-- A sequence after a key is not indented. -/
def sequenceIndent (slot : Slot) : Int :=
  if slot.inMapping && slot.lead = .key then slot.indent else slot.mappingIndent

/-- How a block of that indentation starts. -/
def blockStart (slot : Slot) (indent : Int) : List Char :=
  match slot.lead with
  | .start => []
  | .mark => [' ']
  | .key => '\n' :: spaces indent

end Slot

/-- The text of a value that has no items. -/
def leafText (slot : Slot) : Value → List Char
  | .null => slot.gap ++ "null".toList
  | .bool b => slot.gap ++ (if b then "true" else "false").toList
  | .number n => slot.gap ++ n.text.toList
  | .string s => slot.gap ++ stringText slot.scalarIndent s
  | .sequence _ => slot.gap ++ "[]".toList
  | .mapping _ => slot.gap ++ "\x7b\x7d".toList
  | .tagged _ _ => []

/-- A key before a colon is short and lies on one line. -/
def isShortKey : Value → Bool
  | .string s => !s.toList.any isBreak && s.utf8ByteSize ≤ 128
  | .sequence items => items.isEmpty
  | .mapping entries => entries.isEmpty
  | .tagged t v =>
      let size := byteCount (markedTag t)
      match v with
      | .string s => !s.toList.any isBreak && size + s.utf8ByteSize ≤ 128
      | .sequence items => items.isEmpty && size ≤ 128
      | .mapping entries => entries.isEmpty && size ≤ 128
      | v => size + (leafText Slot.root v).length ≤ 128
  | _ => true

/-- The start of a new line after a text; a literal block may have ended the line already. -/
def newLine (before : List Char) (indent : Int) : List Char :=
  if before.getLast?.any isBreak then spaces indent else '\n' :: spaces indent

mutual

def valueText (slot : Slot) : Value → List Char
  | .sequence (item :: items) =>
      let indent := slot.sequenceIndent
      let first := '-' :: valueText ⟨indent, false, .mark⟩ item
      slot.blockStart indent ++ first ++ itemTexts indent first items
  | .mapping (entry :: entries) =>
      let indent := slot.mappingIndent
      let first := entryText indent entry
      slot.blockStart indent ++ first ++ entryTexts indent first entries
  | .tagged t v => slot.gap ++ tagText t ++ valueText { slot with lead := .key } v
  | v => leafText slot v

/-- The items after the one of which `before` is the text. -/
def itemTexts (indent : Int) (before : List Char) : List Value → List Char
  | [] => []
  | item :: items =>
      let text := '-' :: valueText ⟨indent, false, .mark⟩ item
      newLine before indent ++ text ++ itemTexts indent text items

def entryText (indent : Int) : Value × Value → List Char
  | (k, v) =>
      if isShortKey k then
        valueText ⟨indent, true, .start⟩ k ++ ':' :: valueText ⟨indent, true, .key⟩ v
      else
        let key := '?' :: valueText ⟨indent, true, .mark⟩ k
        key ++ newLine key indent ++ ':' :: valueText ⟨indent, true, .mark⟩ v

/-- The entries after the one of which `before` is the text. -/
def entryTexts (indent : Int) (before : List Char) : List (Value × Value) → List Char
  | [] => []
  | entry :: entries =>
      let text := entryText indent entry
      newLine before indent ++ text ++ entryTexts indent text entries

end

/-- The keys that cannot start a mapping of one entry. -/
def isRefusedKey : Value → Bool
  | .tagged _ _ => true
  | .mapping [_] => true
  | _ => false

mutual

/-- Whether there is a text of a value. A mapping with a single entry has none if its key is tagged
or again such a mapping, unless the mapping is tagged itself. -/
def isWritable : Value → Bool
  | .sequence items => areWritable items
  | .mapping entries =>
      (match entries with
        | [(k, _)] => !isRefusedKey k
        | _ => true) && entriesWritable entries
  | .tagged _ (.mapping entries) => entriesWritable entries
  | .tagged _ v => isWritable v
  | _ => true

def areWritable : List Value → Bool
  | [] => true
  | v :: vs => isWritable v && areWritable vs

def entriesWritable : List (Value × Value) → Bool
  | [] => true
  | (k, v) :: es => isWritable k && isWritable v && entriesWritable es

end

/-- The text of a value; only a literal block ends it with a line break. -/
def write? (v : Value) : Option String :=
  if isWritable v then some (String.ofList (valueText Slot.root v)) else none

end ClassSchema.Yaml
