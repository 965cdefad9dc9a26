import ClassSchema.Text.Cut

/-! # Texts made of lines -/

namespace ClassSchema.Lines

/-- The text of the lines, a line break after each. -/
def text : List String → String
  | [] => ""
  | line :: lines => line ++ "\n" ++ text lines

def pad (n : Nat) : String := String.ofList (List.replicate n ' ')

/-- Moves lines to the right; empty ones stay empty. -/
def indent (n : Nat) (lines : List String) : List String :=
  lines.map fun line => if line.isEmpty then line else pad n ++ line

/-- A body between braces on lines of their own. -/
def braces (body : List String) : List String := "\x7b" :: indent 4 body ++ ["\x7d"]

end ClassSchema.Lines
