import ClassSchema.Yaml.Cursor

/-! # Plain and quoted scalars

Inside these scalars a gap of spaces and line breaks is folded: a single line break becomes a
space, and of several the first is dropped. -/

namespace ClassSchema.Yaml

/-- The spaces and line breaks between two words. -/
structure Gap where
  spaces : List Char
  breaks : List Char

namespace Gap

def hasBreak (g : Gap) : Bool := !g.breaks.isEmpty

def text (g : Gap) : List Char :=
  match g.breaks with
  | [] => g.spaces
  | ['\n'] => [' ']
  | '\n' :: more => more
  | breaks => breaks

end Gap

namespace Cursor

/-- Reads line breaks and the spaces around them from the start of a line on. A tab must not stand
before the column `least`. -/
def lineGap (least : Nat) : (fuel : Nat) → Cursor → Option (List Char × Cursor)
  | 0, _ => none
  | fuel + 1, c =>
      let (spaces, c') := c.span isSpace
      if (spaces.take (least - c.column)).contains '\t' then none
      else match c'.break? with
        | some (b, next) => (lineGap least fuel next).map fun (bs, last) => (b :: bs, last)
        | none => some ([], c')

def gap (least : Nat) (c : Cursor) : Option (Gap × Cursor) :=
  let (spaces, c') := c.span isSpace
  match c'.break? with
  | none => some (⟨spaces, []⟩, c')
  | some (b, next) =>
      (lineGap least (next.rest.length + 1) next).map fun (bs, last) => (⟨spaces, b :: bs⟩, last)

end Cursor

/-! ## Plain scalars -/

def isFlowMark (c : Char) : Bool :=
  c == ',' || c == '[' || c == ']' || c == '\x7b' || c == '\x7d'

/-- The next word of a plain scalar; a colon that runs into a flow mark is refused. -/
def plainWord (inFlow : Bool) : List Char → Option (List Char)
  | [] => some []
  | c :: cs =>
      if isGap c then some []
      else if inFlow && c == ':' && cs.head?.any (fun d => isFlowMark d || d == '?') then none
      else if (c == ':' && atGap cs) || (inFlow && isFlowMark c) then some []
      else (plainWord inFlow cs).map (c :: ·)

/-- The result of reading a plain scalar: its text, whether a line break follows it, and where the
next token may start. -/
structure PlainScalar where
  text : List Char
  beforeBreak : Bool
  last : Cursor

/-- Reads words and gaps. Lines that go on a block scalar start at the column `least` or after. -/
def plainFrom (inFlow : Bool) (least : Nat) (before : Gap) : (fuel : Nat) → Cursor →
    Option PlainScalar
  | 0, _ => none
  | fuel + 1, c =>
      let done : PlainScalar := ⟨[], before.hasBreak, c⟩
      if c.atDocumentEdge || c.peek? == some '#' then some done
      else match plainWord inFlow c.rest with
        | none => none
        | some [] => some done
        | some word => match (c.skip word.length).gap least with
          | none => none
          | some (after, next) =>
              let text := before.text ++ word
              if after.spaces.isEmpty && !after.hasBreak then some ⟨text, false, next⟩
              else if !inFlow && next.column < least then some ⟨text, after.hasBreak, next⟩
              else (plainFrom inFlow least after fuel next).map fun more =>
                ⟨text ++ more.text, more.beforeBreak, more.last⟩

def Cursor.plainScalar? (inFlow : Bool) (least : Nat) (c : Cursor) : Option PlainScalar :=
  plainFrom inFlow least ⟨[], []⟩ (c.rest.length + 1) c

/-! ## Quoted scalars -/

def hexDigit? (c : Char) : Option Nat :=
  if c.isDigit then some (c.toNat - '0'.toNat)
  else if 'a' ≤ c && c ≤ 'f' then some (c.toNat - 'a'.toNat + 10)
  else if 'A' ≤ c && c ≤ 'F' then some (c.toNat - 'A'.toNat + 10)
  else none

def hexValue? (cs : List Char) : Option Nat :=
  cs.foldlM (fun n c => (hexDigit? c).map (16 * n + ·)) 0

/-- The character with the code that `width` hexadecimal digits give. -/
def codePoint? (width : Nat) (cs : List Char) : Option Char :=
  let digits := cs.take width
  if digits.length < width then none
  else match hexValue? digits with
    | none => none
    | some n =>
        if n < 0xD800 || (0xDFFF < n && n ≤ 0x10FFFF) then some (Char.ofNat n) else none

/-- The character for which a backslash with that letter stands. -/
def escapedChar? : Char → Option Char
  | '0' => some '\x00'
  | 'a' => some '\x07'
  | 'b' => some '\x08'
  | 't' => some '\t'
  | '\t' => some '\t'
  | 'n' => some '\n'
  | 'v' => some '\x0b'
  | 'f' => some '\x0c'
  | 'r' => some '\r'
  | 'e' => some '\x1b'
  | ' ' => some ' '
  | '"' => some '"'
  | '/' => some '/'
  | '\\' => some '\\'
  | 'N' => some '\u0085'
  | '_' => some '\u00a0'
  | 'L' => some '\u2028'
  | 'P' => some '\u2029'
  | _ => none

def escapeWidth? : Char → Option Nat
  | 'x' => some 2
  | 'u' => some 4
  | 'U' => some 8
  | _ => none

/-- A word of a quoted scalar: its text, and the number of characters that spell it. -/
structure Word where
  text : List Char
  width : Nat

def Word.cons (c : Char) (width : Nat) (w : Word) : Word := ⟨c :: w.text, width + w.width⟩

def singleWord : List Char → Word
  | [] => ⟨[], 0⟩
  | '\'' :: '\'' :: cs => (singleWord cs).cons '\'' 2
  | c :: cs => if c == '\'' || isGap c then ⟨[], 0⟩ else (singleWord cs).cons c 1

/-- A word in double quotes also ends before a backslash at the end of a line. -/
def doubleWord : (fuel : Nat) → List Char → Option Word
  | 0, _ => none
  | _ + 1, [] => some ⟨[], 0⟩
  | fuel + 1, '\\' :: cs =>
      match cs with
      | [] => none
      | e :: rest =>
          if isBreak e then some ⟨[], 0⟩
          else match escapeWidth? e with
            | some width => match codePoint? width rest with
              | some c => (doubleWord fuel (rest.drop width)).map (Word.cons c (width + 2))
              | none => none
            | none => match escapedChar? e with
              | some c => (doubleWord fuel rest).map (Word.cons c 2)
              | none => none
  | fuel + 1, c :: cs =>
      if c == '"' || isGap c then some ⟨[], 0⟩ else (doubleWord fuel cs).map (Word.cons c 1)

inductive Quote where
  | single
  | double
deriving DecidableEq, Repr

namespace Quote

def char : Quote → Char
  | .single => '\''
  | .double => '"'

def word? : Quote → List Char → Option Word
  | .single, cs => some (singleWord cs)
  | .double, cs => doubleWord (cs.length + 1) cs

/-- Reads words and gaps up to the closing quote. An escaped line break joins two words. -/
def scalarFrom (q : Quote) : (fuel : Nat) → Cursor → Option (List Char × Cursor)
  | 0, _ => none
  | fuel + 1, c =>
      if c.atDocumentEdge || c.rest.isEmpty then none
      else match q.word? c.rest with
        | none => none
        | some word =>
            let c' := c.skip word.width
            if c'.peek? == some q.char then some (word.text, c'.skip 1)
            else
              let between : Option (List Char × Cursor) :=
                if c'.peek? == some '\\' then
                  match (c'.skip 1).break? with
                  | some (_, next) => next.lineGap 0 (next.rest.length + 1)
                  | none => none
                else (c'.gap 0).map fun (g, next) => (g.text, next)
              match between with
              | none => none
              | some (gap, next) =>
                  (scalarFrom q fuel next).map fun (more, last) => (word.text ++ gap ++ more, last)

/-- Reads a quoted scalar from its opening quote on. -/
def scalar? (q : Quote) (c : Cursor) : Option (List Char × Cursor) :=
  q.scalarFrom (c.rest.length + 1) (c.skip 1)

end Quote

end ClassSchema.Yaml
