import ClassSchema.Binary64

/-! # The shortest decimal that reads back

`digits * 10 ^ exponent` has the fewest digits of all decimals that round to the given number, and
is the nearest to it of those. All comparisons are of whole numbers. -/

namespace ClassSchema.Binary64

/-- Where the value lies halfway between the two nearest shortest decimals. -/
inductive Tie where
  | even
  | up
deriving DecidableEq, Repr

structure Decimal where
  digits : Nat
  exponent : Int
deriving DecidableEq, Repr

/-- Whole numbers `a` and `b` such that `x * 2 ^ s` compares with `d * 10 ^ t` as `x * a` with
`d * b`. -/
def scales (s t : Int) : Nat × Nat :=
  (Nat.pow 2 s.toNat * Nat.pow 10 (-t).toNat, Nat.pow 10 t.toNat * Nat.pow 2 (-s).toNat)

/-- The largest `e` with `10 ^ e ≤ m * 2 ^ q`, for positive `m`. -/
def floorLog10 (m : Nat) (q : Int) : Int :=
  let guess := ((m.log2 : Int) + q) * 30103 / 100000
  let reaches (e : Int) : Bool := let (a, b) := scales q e; b ≤ m * a
  if reaches (guess + 1) then guess + 1 else if reaches guess then guess else guess - 1

/-- Of the two neighbours of `m * 2 ^ q` on the grid of `10 ^ t`, the nearer one that rounds
to it. -/
def onGrid? (tie : Tie) (m : Nat) (q t : Int) : Option Nat :=
  let (a, b) := scales (q - 2) t
  let value := 4 * m * a
  let low := (4 * m - if m = Nat.pow 2 52 && q > leastExponent then 1 else 2) * a
  let high := (4 * m + 2) * a
  let inside (d : Nat) : Bool :=
    if m % 2 = 0 then low ≤ d * b && d * b ≤ high else low < d * b && d * b < high
  let d := value / b
  match inside d, inside (d + 1) with
  | false, false => none
  | true, false => some d
  | false, true => some (d + 1)
  | true, true =>
      let below := value - d * b
      let above := (d + 1) * b - value
      if below < above then some d
      else if above < below then some (d + 1)
      else match tie with
        | .even => if d % 2 = 0 then some d else some (d + 1)
        | .up => some (d + 1)

/-- Moves the zeros at the end of the digits into the exponent. -/
def dropZeros : (fuel : Nat) → Nat → Int → Decimal
  | 0, d, e => ⟨d, e⟩
  | fuel + 1, d, e => if d % 10 = 0 && d != 0 then dropZeros fuel (d / 10) (e + 1) else ⟨d, e⟩

/-- Seventeen digits always suffice, so the search ends at the last grid. -/
def shortestFrom (tie : Tie) (m : Nat) (q top : Int) : (left : Nat) → Decimal
  | 0 => ⟨m, q⟩
  | left + 1 =>
      let t := top + 1 - (17 - left : Nat)
      match onGrid? tie m q t with
      | some d => dropZeros 20 d t
      | none => shortestFrom tie m q top left

/-- The shortest decimal of `m * 2 ^ q`. -/
def shortest (tie : Tie) (m : Nat) (q : Int) : Decimal :=
  if m = 0 then ⟨0, 0⟩ else shortestFrom tie m q (floorLog10 m q) 17

end ClassSchema.Binary64
