import ClassSchema.Binary64.Layout

/-! # Numbers of a document -/

namespace ClassSchema

inductive Number where
  | integer (value : Int)
  | float (value : Binary64)
deriving DecidableEq, Repr, Inhabited

namespace Number

def integerText (i : Int) : String :=
  String.ofList (if i < 0 then '-' :: Nat.toDigits 10 i.natAbs else Nat.toDigits 10 i.natAbs)

/-- Floats in a document: `1e16`, `.inf`, `.nan`. -/
def documentLayout : Binary64.Layout :=
  ⟨Binary64.fewZeros, false, .even, ".inf", ".nan"⟩

/-- Floats in an aggregate literal: `1e+16`; only finite ones occur. -/
def aggregateLayout : Binary64.Layout :=
  ⟨Binary64.fewZeros, true, .even, "null", "null"⟩

/-- Floats in a message: never with an exponent. -/
def messageLayout : Binary64.Layout :=
  ⟨fun _ => true, false, .up, "inf", "NaN"⟩

def textIn (layout : Binary64.Layout) : Number → String
  | .integer i => integerText i
  | .float x => layout.text x

/-- The text of a number as a document writes it. -/
def text : Number → String := textIn documentLayout

/-- Whether two numbers are the same as keys. An integer never equals a float. -/
def same : Number → Number → Bool
  | .integer i, .integer j => i == j
  | .float x, .float y => x.same y
  | _, _ => false

end Number

end ClassSchema
