import ClassSchema.Yaml.Cursor
import ClassSchema.Yaml.Token
import ClassSchema.Yaml.Token.Block
import ClassSchema.Yaml.Token.Flow

/-! # Anchors, tags and directives -/

namespace ClassSchema.Yaml

/-- Reads the name of an anchor or alias after its mark. -/
def Cursor.anchorName? (c : Cursor) : Option (String × Cursor) :=
  let (name, next) := (c.skip 1).span isWord
  let ends := match next.rest with
    | [] => true
    | d :: _ => isGap d || "?:,]\x7d%@`".toList.contains d
  if name.isEmpty || !ends then none else some (String.ofList name, next)

/-- The characters of a tag; a bracketed one may also hold a comma and square brackets. -/
def isTagChar (bracketed : Bool) (c : Char) : Bool :=
  isWord c || ";/?:@&=+$.%!~*'()".toList.contains c || (bracketed && ",[]".toList.contains c)

/-- The byte that `%` and two hexadecimal digits give. -/
def escapedByte? : List Char → Option (Nat × List Char)
  | '%' :: a :: b :: rest => match hexDigit? a, hexDigit? b with
    | some a, some b => some (16 * a + b, rest)
    | _, _ => none
  | _ => none

/-- How many bytes follow a first byte of a character, and the bits that it gives. -/
def leadByte? (b : Nat) : Option (Nat × Nat) :=
  if b < 0x80 then some (0, b)
  else if 0xC0 ≤ b && b < 0xE0 then some (1, b - 0xC0)
  else if 0xE0 ≤ b && b < 0xF0 then some (2, b - 0xE0)
  else if 0xF0 ≤ b && b < 0xF8 then some (3, b - 0xF0)
  else none

def continuation? : (count : Nat) → (bits : Nat) → List Char → Option (Nat × List Char)
  | 0, bits, cs => some (bits, cs)
  | count + 1, bits, cs => match escapedByte? cs with
    | some (b, rest) =>
        if 0x80 ≤ b && b < 0xC0 then continuation? count (64 * bits + (b - 0x80)) rest else none
    | none => none

/-- The character that `count` bytes after the first one encode, if no shorter form encodes it. -/
def decodedChar? (count bits : Nat) : Option Char :=
  let least := match count with
    | 0 => 0
    | 1 => 0x80
    | 2 => 0x800
    | _ => 0x10000
  if least ≤ bits && (bits < 0xD800 || (0xDFFF < bits && bits ≤ 0x10FFFF)) then
    some (Char.ofNat bits)
  else none

def escapedTagChar? (cs : List Char) : Option (Option Char × List Char) := do
  let (b, rest) ← escapedByte? cs
  let (count, bits) ← leadByte? b
  let (bits, rest) ← continuation? count bits rest
  return (decodedChar? count bits, rest)

def unescapeTag : (fuel : Nat) → List Char → Option TagText
  | 0, _ => none
  | _ + 1, [] => some []
  | fuel + 1, '%' :: cs => match escapedTagChar? ('%' :: cs) with
    | some (c, rest) => (unescapeTag fuel rest).map (c :: ·)
    | none => none
  | fuel + 1, c :: cs => (unescapeTag fuel cs).map (some c :: ·)

def Cursor.tagText? (bracketed : Bool) (c : Cursor) : Option (TagText × Cursor) :=
  let (raw, next) := c.span (isTagChar bracketed)
  (unescapeTag (raw.length + 1) raw).map (·, next)

/-- A zero character ends the text of a tag. -/
def TagText.beforeZero (text : TagText) : TagText := text.takeWhile (· != some '\x00')

/-- A handle is `!`, or a word between two of them; without the second one it is no handle but the
start of the tag. -/
def Cursor.tagHandle (c : Cursor) : List Char × Cursor :=
  let (name, next) := (c.skip 1).span isWord
  if next.peek? == some '!' then ('!' :: name ++ ['!'], next.skip 1) else ('!' :: name, next)

def isFullHandle (handle : List Char) : Bool := handle.length > 1 && handle.getLast? == some '!'

def bracketedTag? (c : Cursor) : Option (Token × Cursor) := do
  let (text, next) ← (c.skip 2).tagText? true
  if text.isEmpty || next.peek? != some '>' then none
  else return (.tag "" text.beforeZero, next.skip 1)

def shorthandTag? (c : Cursor) : Option (Token × Cursor) := do
  let (handle, next) := c.tagHandle
  let (text, next) ← next.tagText? false
  if isFullHandle handle then
    if text.isEmpty then none else return (.tag (String.ofList handle) text.beforeZero, next)
  else
    let whole := TagText.beforeZero ((handle.drop 1).map some ++ text)
    if whole.isEmpty then return (.tag "" [some '!'], next) else return (.tag "!" whole, next)

/-- Reads a tag; a space, a line break or, among flow collections, a comma must follow it. -/
def Cursor.tag? (inFlow : Bool) (c : Cursor) : Option (Token × Cursor) := do
  let (token, next) ← if (c.skip 1).peek? == some '<' then bracketedTag? c else shorthandTag? c
  if atGap next.rest || (inFlow && next.peek? == some ',') then return (token, next) else none

def Cursor.versionNumber? (c : Cursor) : Option (Nat × Cursor) :=
  let (digits, next) := c.span Char.isDigit
  if digits.isEmpty || digits.length > 9 then none
  else some (digits.foldl (fun n d => 10 * n + (d.toNat - '0'.toNat)) 0, next)

def versionDirective? (c : Cursor) : Option (Token × Cursor) := do
  let (major, c) ← (c.skipWhile isSpace).versionNumber?
  if c.peek? != some '.' then none
  else
    let (minor, c) ← (c.skip 1).versionNumber?
    return (.versionDirective major minor, c)

def tagDirective? (c : Cursor) : Option (Token × Cursor) := do
  let c := c.skipWhile isSpace
  if c.peek? != some '!' then none
  else
    let (handle, c) := c.tagHandle
    if !(isFullHandle handle || handle == ['!']) || !c.peek?.any isSpace then none
    else
      let (text, c) ← (c.skipWhile isSpace).tagText? true
      if text.isEmpty || !atGap c.rest then none
      else return (.tagDirective (String.ofList handle) text.beforeZero, c)

/-- Reads a directive from its `%` to the end of its line. -/
def Cursor.directive? (c : Cursor) : Option (Token × Cursor) := do
  let (name, c) := (c.skip 1).span isWord
  if !atGap c.rest then none
  else
    let (token, c) ← match String.ofList name with
      | "YAML" => versionDirective? c
      | "TAG" => tagDirective? c
      | _ => none
    let c ← c.lineEnd?
    return (token, c)

end ClassSchema.Yaml
