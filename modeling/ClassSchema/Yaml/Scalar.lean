import ClassSchema.Number
import ClassSchema.Yaml.Token.Flow

/-! # The types of plain scalars -/

namespace ClassSchema.Yaml

inductive Scalar where
  | null
  | bool (value : Bool)
  | number (value : Number)
  | string (value : String)
  /-- An integer that fits 128 bits but not 64; no value stands for it. -/
  | wideInteger
deriving DecidableEq, Repr

namespace Scalar

def isNullWord (s : String) : Bool := s == "null" || s == "Null" || s == "NULL" || s == "~"

def bool? : String → Option Bool
  | "true" | "True" | "TRUE" => some true
  | "false" | "False" | "FALSE" => some false
  | _ => none

/-- The value of digits of a base, of which there is at least one. -/
def digits? (base : Nat) (cs : List Char) : Option Nat :=
  if cs.isEmpty then none
  else cs.foldlM (fun n c =>
    (hexDigit? c).bind fun d => if d < base then some (base * n + d) else none) 0

/-- Digits that a zero leads although more follow: they are no number. -/
def isZeroLed (cs : List Char) : Bool :=
  match cs with
  | '0' :: d :: ds => (d :: ds).all Char.isDigit
  | _ => false

/-- The magnitude of an unsigned integer: decimal, or after `0x`, `0o`, `0b` of that base. -/
def magnitude? : List Char → Option Nat
  | '0' :: 'x' :: cs => digits? 16 cs
  | '0' :: 'o' :: cs => digits? 8 cs
  | '0' :: 'b' :: cs => digits? 2 cs
  | cs => if isZeroLed cs then none else digits? 10 cs

/-- Splits off a sign, and tells whether it is a minus. -/
def signed : List Char → Bool × List Char
  | '-' :: cs => (true, cs)
  | '+' :: cs => (false, cs)
  | cs => (false, cs)

/-- An integer with its sign. One that needs more than 128 bits is none. -/
def integer? (cs : List Char) : Option Scalar :=
  let (negative, cs) := signed cs
  match magnitude? cs with
  | none => none
  | some n =>
      let bound (width : Nat) := if negative then Nat.pow 2 (width - 1) + 1 else Nat.pow 2 width
      if n < bound 64 then some (.number (.integer (if negative then -n else n)))
      else if n < bound 128 then some .wideInteger
      else none

/-- The exponent after `e`, with its sign. -/
def exponent? (cs : List Char) : Option Int :=
  let (negative, cs) := signed cs
  (digits? 10 cs).map fun n => if negative then -(n : Int) else n

/-- A decimal with a digit before or after its point, and perhaps an exponent. -/
def decimal? (negative : Bool) (cs : List Char) : Option Binary64 :=
  let whole := cs.takeWhile Char.isDigit
  let (fraction, rest) := match cs.dropWhile Char.isDigit with
    | '.' :: cs => (cs.takeWhile Char.isDigit, cs.dropWhile Char.isDigit)
    | cs => ([], cs)
  match digits? 10 (whole ++ fraction) with
  | none => none
  | some n =>
      let e := match rest with
        | [] => some 0
        | c :: cs => if c == 'e' || c == 'E' then exponent? cs else none
      e.map fun e => Binary64.ofDecimal negative n (e - fraction.length)

/-- A float; a decimal that is too large for a finite one is none. -/
def float? (cs : List Char) : Option Binary64 :=
  let (negative, unsigned) := signed cs
  if [".inf".toList, ".Inf".toList, ".INF".toList].contains unsigned then some (.infinite negative)
  else if [".nan".toList, ".NaN".toList, ".NAN".toList].contains cs then some .nan
  else (decimal? negative unsigned).filter Binary64.isFinite

/-- What a plain scalar without tag stands for. -/
def ofPlain (s : String) : Scalar :=
  if s.isEmpty || isNullWord s then .null
  else match bool? s with
    | some b => .bool b
    | none => match integer? s.toList with
      | some i => i
      | none =>
          if isZeroLed (signed s.toList).2 then .string s
          else match float? s.toList with
            | some x => .number (.float x)
            | none => .string s

def forcedBool : String := "tag:yaml.org,2002:bool"
def forcedInteger : String := "tag:yaml.org,2002:int"
def forcedFloat : String := "tag:yaml.org,2002:float"
def forcedNull : String := "tag:yaml.org,2002:null"

/-- What a scalar with a global tag stands for: the tags of booleans, integers, floats and null
demand such a text, and every other one makes it a string. -/
def ofTagged? (tag s : String) : Option Scalar :=
  if tag == forcedBool then (bool? s).map .bool
  else if tag == forcedInteger then integer? s.toList
  else if tag == forcedFloat then (float? s.toList).map fun x => .number (.float x)
  else if tag == forcedNull then if isNullWord s then some .null else none
  else some (.string s)

end Scalar

end ClassSchema.Yaml
