import ClassSchema.Yaml.Cursor

/-! # Literal and folded scalars -/

namespace ClassSchema.Yaml

/-- What becomes of the line breaks at the end of a block scalar. -/
inductive Chomping where
  | strip
  | clip
  | keep
deriving DecidableEq, Repr

inductive BlockStyle where
  | literal
  | folded
deriving DecidableEq, Repr

structure BlockHeader where
  chomping : Chomping
  /-- The indentation relative to the enclosing block; zero if the first line decides. -/
  increment : Nat

def chomping? : Char → Option Chomping
  | '-' => some .strip
  | '+' => some .keep
  | _ => none

/-- A digit from `1` to `9`. -/
def increment? (c : Char) : Option Nat :=
  if c.isDigit && c != '0' then some (c.toNat - '0'.toNat) else none

/-- Reads the marks after `|` or `>`, each at most once and in any order. -/
def blockHeader? (cs : List Char) : Option (BlockHeader × Nat) :=
  match cs with
  | [] => some (⟨.clip, 0⟩, 0)
  | c :: rest =>
      match chomping? c with
      | some chomping => match rest with
        | d :: _ =>
            if d.isDigit then (increment? d).map fun n => (⟨chomping, n⟩, 2)
            else some (⟨chomping, 0⟩, 1)
        | [] => some (⟨chomping, 0⟩, 1)
      | none =>
          if c.isDigit then match increment? c with
            | none => none
            | some n => match rest.head?.bind chomping? with
              | some chomping => some (⟨chomping, n⟩, 2)
              | none => some (⟨.clip, n⟩, 1)
          else some (⟨.clip, 0⟩, 0)

/-- Passes over spaces and a comment up to the end of a line, and over its line break. -/
def Cursor.lineEnd? (c : Cursor) : Option Cursor :=
  let c := c.skipWhile isSpace
  let c := if c.peek? == some '#' then c.skipWhile (!isBreak ·) else c
  match c.break? with
  | some (_, next) => some next
  | none => if c.rest.isEmpty then some c else none

/-- The line breaks before the next line with text, and the largest column reached by their
spaces. Indentation ends at the column `indent`, or nowhere if that is zero. -/
def blockBreaks (indent : Nat) : (fuel : Nat) → (widest : Nat) → Cursor →
    Option (List Char × Nat × Cursor)
  | 0, _, _ => none
  | fuel + 1, widest, c =>
      let spaces := (c.rest.takeWhile (· == ' ')).length
      let c := c.skip (if indent = 0 then spaces else min spaces (indent - c.column))
      let widest := max widest c.column
      if (indent = 0 || c.column < indent) && c.peek? == some '\t' then none
      else match c.break? with
        | some (b, next) =>
            (blockBreaks indent fuel widest next).map fun (bs, w, last) => (b :: bs, w, last)
        | none => some ([], widest, c)

/-- What is between two lines of text: the break of the first line and those of blank lines. -/
def foldBreaks (style : BlockStyle) (blankAround : Bool) (first more : List Char) : List Char :=
  match style, first with
  | .folded, ['\n'] =>
      if blankAround then first ++ more else if more.isEmpty then [' '] else more
  | _, _ => first ++ more

/-- Reads the lines of a block scalar. `first` is the break after the previous line, `more` are
those of blank lines since, and `afterBlank` tells whether the previous line starts with a space. -/
def blockLines (style : BlockStyle) (chomping : Chomping) (indent : Nat) : (fuel : Nat) →
    (first more : List Char) → (afterBlank : Bool) → Cursor → Option (List Char × Cursor)
  | 0, _, _, _, _ => none
  | fuel + 1, first, more, afterBlank, c =>
      if c.column != indent || c.rest.isEmpty then
        match chomping with
        | .strip => some ([], c)
        | .clip => some (first, c)
        | .keep => some (first ++ more, c)
      else
        let startsBlank := c.peek?.any isSpace
        let between := foldBreaks style (afterBlank || startsBlank) first more
        let (line, c) := c.span (!isBreak ·)
        let (first', c) := match c.break? with
          | some (b, next) => ([b], next)
          | none => ([], c)
        match blockBreaks indent (c.rest.length + 1) 0 c with
        | none => none
        | some (more', _, c) =>
            (blockLines style chomping indent fuel first' more' startsBlank c).map
              fun (text, last) => (between ++ line ++ text, last)

/-- Reads a block scalar from its mark on, inside a block of that indentation. -/
def Cursor.blockScalar? (style : BlockStyle) (parent : Int) (c : Cursor) :
    Option (List Char × Cursor) := do
  let c := c.skip 1
  let (header, width) ← blockHeader? c.rest
  let c ← (c.skip width).lineEnd?
  let given := if header.increment = 0 then 0 else (max parent 0).toNat + header.increment
  let (breaks, widest, c) ← blockBreaks given (c.rest.length + 1) 0 c
  let indent := if given = 0 then max (max widest (parent + 1).toNat) 1 else given
  blockLines style header.chomping indent (c.rest.length + 1) [] breaks false c

end ClassSchema.Yaml
