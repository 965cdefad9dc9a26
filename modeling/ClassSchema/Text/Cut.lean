/-! # Taking texts apart at fixed pieces -/

namespace ClassSchema.Chars

/-- What follows `head` in a text that starts with it. -/
def stripStart? : (head text : List Char) → Option (List Char)
  | [], cs => some cs
  | _ :: _, [] => none
  | h :: hs, c :: cs => if h = c then stripStart? hs cs else none

/-- What precedes `tail` in a text that ends with it. -/
def stripEnd? (tail text : List Char) : Option (List Char) :=
  (stripStart? tail.reverse text.reverse).map List.reverse

/-- The parts before and after the first occurrence of `sep`. -/
def cut? (sep : List Char) : List Char → Option (List Char × List Char)
  | [] => (stripStart? sep []).map ([], ·)
  | c :: cs =>
      match stripStart? sep (c :: cs) with
      | some rest => some ([], rest)
      | none => (cut? sep cs).map fun (before, after) => (c :: before, after)

/-- The parts before and after the last occurrence of `sep`. -/
def cutLast? (sep text : List Char) : Option (List Char × List Char) :=
  (cut? sep.reverse text.reverse).map fun (after, before) => (before.reverse, after.reverse)

/-- The pieces between the characters that satisfy `p`, empty ones included. -/
def split (p : Char → Bool) : List Char → List (List Char)
  | [] => [[]]
  | c :: cs =>
      if p c then [] :: split p cs
      else match split p cs with
        | [] => [[c]]
        | piece :: pieces => (c :: piece) :: pieces

/-- Replaces the occurrences of `pat`, from the left and without overlap; the first `skip`
characters are passed over. -/
def replaceFrom (pat new : List Char) : (skip : Nat) → List Char → List Char
  | _, [] => []
  | skip + 1, _ :: cs => replaceFrom pat new skip cs
  | 0, c :: cs =>
      if pat.isPrefixOf (c :: cs) then new ++ replaceFrom pat new (pat.length - 1) cs
      else c :: replaceFrom pat new 0 cs

def replace (pat new text : List Char) : List Char := replaceFrom pat new 0 text

/-- The lines of a text; a final line break starts no further line. -/
def lines (cs : List Char) : List (List Char) :=
  let pieces := split (· == '\n') cs
  match pieces.getLast? with
  | some [] => pieces.dropLast
  | _ => pieces

end ClassSchema.Chars

namespace ClassSchema.Text

/-- Lower-case ASCII letters become upper-case; all else stays. -/
def upper (s : String) : String := String.ofList (s.toList.map Char.toUpper)

def startsWith (head s : String) : Bool := (Chars.stripStart? head.toList s.toList).isSome

def endsWith (tail s : String) : Bool := (Chars.stripEnd? tail.toList s.toList).isSome

def stripStart? (head s : String) : Option String :=
  (Chars.stripStart? head.toList s.toList).map String.ofList

def cut? (sep s : String) : Option (String × String) :=
  (Chars.cut? sep.toList s.toList).map fun (a, b) => (String.ofList a, String.ofList b)

def cutLast? (sep s : String) : Option (String × String) :=
  (Chars.cutLast? sep.toList s.toList).map fun (a, b) => (String.ofList a, String.ofList b)

def replace (pat new s : String) : String :=
  String.ofList (Chars.replace pat.toList new.toList s.toList)

/-- The texts one after another with `sep` between them. -/
def join (sep : String) : List String → String
  | [] => ""
  | [s] => s
  | s :: t :: rest => s ++ sep ++ join sep (t :: rest)

end ClassSchema.Text
