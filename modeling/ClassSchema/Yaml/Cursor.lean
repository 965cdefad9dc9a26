/-! # Positions in a YAML text -/

namespace ClassSchema.Yaml

/-- The characters that a YAML text may hold. -/
def isAllowed (c : Char) : Bool :=
  let n := c.toNat
  n == 0x09 || n == 0x0A || n == 0x0D || (0x20 ≤ n && n ≤ 0x7E) || n == 0x85
    || (0xA0 ≤ n && n ≤ 0xD7FF) || (0xE000 ≤ n && n ≤ 0xFFFD) || 0x10000 ≤ n

def byteOrderMark : Char := '\ufeff'

def isBreak (c : Char) : Bool :=
  c == '\n' || c == '\r' || c == '\u0085' || c == '\u2028' || c == '\u2029'

def isSpace (c : Char) : Bool := c == ' ' || c == '\t'

def isGap (c : Char) : Bool := isSpace c || isBreak c

/-- The characters of anchors and of the names of directives and tag handles. -/
def isWord (c : Char) : Bool := c.isAlphanum || c == '_' || c == '-'

/-- Whether a text ends here or goes on with a space or a line break. -/
def atGap : List Char → Bool
  | [] => true
  | c :: _ => isGap c

/-- The size of characters in UTF-8. -/
def byteCount (cs : List Char) : Nat := cs.foldl (fun n c => n + c.utf8Size) 0

/-- The rest of a text and the place where it starts. -/
structure Cursor where
  rest : List Char
  /-- The number of bytes before it. -/
  index : Nat := 0
  line : Nat := 0
  column : Nat := 0
deriving Repr, Inhabited

namespace Cursor

/-- Passes over `n` characters of a line. -/
def skip (n : Nat) (c : Cursor) : Cursor :=
  ⟨c.rest.drop n, c.index + byteCount (c.rest.take n), c.line, c.column + n⟩

/-- The characters up to the first that fails `p`, on one line. -/
def span (p : Char → Bool) (c : Cursor) : List Char × Cursor :=
  let taken := c.rest.takeWhile p
  (taken, c.skip taken.length)

def skipWhile (p : Char → Bool) (c : Cursor) : Cursor := (c.span p).2

/-- The line break that stands here, read as one character, and what follows it. -/
def break? (c : Cursor) : Option (Char × Cursor) :=
  match c.rest with
  | '\r' :: '\n' :: rest => some ('\n', ⟨rest, c.index + 2, c.line + 1, 0⟩)
  | b :: rest =>
      if b == '\n' || b == '\r' || b == '\u0085' then
        some ('\n', ⟨rest, c.index + b.utf8Size, c.line + 1, 0⟩)
      else if isBreak b then some (b, ⟨rest, c.index + b.utf8Size, c.line + 1, 0⟩)
      else none
  | [] => none

def peek? (c : Cursor) : Option Char := c.rest.head?

/-- Whether a line starts here with one of the marks between documents. -/
def atDocumentMark (mark : List Char) (c : Cursor) : Bool :=
  c.column == 0 && mark.isPrefixOf c.rest && atGap (c.rest.drop mark.length)

def atDocumentEdge (c : Cursor) : Bool :=
  c.atDocumentMark ['-', '-', '-'] || c.atDocumentMark ['.', '.', '.']

end Cursor

end ClassSchema.Yaml
