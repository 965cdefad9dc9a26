import ClassSchema.Binary64.Shortest

/-! # Floating-point numbers as text -/

namespace ClassSchema.Binary64

/-- How a number is laid out. -/
structure Layout where
  /-- Whether a number whose decimal point follows that many digits is written without exponent. -/
  positional : Int → Bool
  /-- Whether an exponent above zero carries a sign. -/
  plusSign : Bool
  tie : Tie
  infinity : String
  notANumber : String

/-- Without exponent from `0.00001` up to below `10 ^ 16`. -/
def fewZeros (point : Int) : Bool := -5 < point && point ≤ 16

def exponentText (plusSign : Bool) (e : Int) : List Char :=
  if e < 0 then '-' :: Nat.toDigits 10 (-e).toNat
  else if plusSign then '+' :: Nat.toDigits 10 e.toNat
  else Nat.toDigits 10 e.toNat

/-- The digits of a decimal with its point, at least one digit standing on each side of it. -/
def positionalText (digits : List Char) (exponent : Int) : List Char :=
  let point := (digits.length : Int) + exponent
  if 0 ≤ exponent then digits ++ List.replicate exponent.toNat '0' ++ ['.', '0']
  else if 0 < point then digits.take point.toNat ++ '.' :: digits.drop point.toNat
  else '0' :: '.' :: (List.replicate (-point).toNat '0' ++ digits)

def scientificText (plusSign : Bool) (digits : List Char) (exponent : Int) : List Char :=
  let e := (digits.length : Int) + exponent - 1
  match digits with
  | d :: [] => d :: 'e' :: exponentText plusSign e
  | d :: ds => d :: '.' :: (ds ++ 'e' :: exponentText plusSign e)
  | [] => []

def Layout.magnitude (layout : Layout) (m : Nat) (q : Int) : List Char :=
  let decimal := shortest layout.tie m q
  let digits := Nat.toDigits 10 decimal.digits
  if layout.positional (digits.length + decimal.exponent) then
    positionalText digits decimal.exponent
  else scientificText layout.plusSign digits decimal.exponent

def Layout.text (layout : Layout) : Binary64 → String
  | .finite negative m q =>
      String.ofList (if negative then '-' :: layout.magnitude m q else layout.magnitude m q)
  | .infinite negative => if negative then "-" ++ layout.infinity else layout.infinity
  | .nan => layout.notANumber

end ClassSchema.Binary64
