import ClassSchema.Number
import ClassSchema.Proofs.Text.Cut

/-! # The characters of numbers

A number in an aggregate is written with characters of its own, at least one of them. -/

namespace ClassSchema

/-- The characters of numbers in an aggregate. The letters other than `e` are those of `null`, which
stands for what is not finite. -/
def isNumeral (c : Char) : Bool := c.isDigit || ['+', '-', '.', 'e', 'n', 'u', 'l'].contains c

/-- A text of such characters that is not empty. -/
structure Numeral (cs : List Char) : Prop where
  ne_nil : cs ≠ []
  forall_mem : ∀ c ∈ cs, isNumeral c = true

namespace Numeral

variable {c : Char} {cs ds : List Char}

theorem cons (hc : isNumeral c = true) (h : ∀ c ∈ cs, isNumeral c = true) : Numeral (c :: cs) :=
  ⟨List.cons_ne_nil c cs, List.forall_mem_cons.mpr ⟨hc, h⟩⟩

/-- Characters of numbers may come before one. -/
theorem append (h : ∀ c ∈ cs, isNumeral c = true) (hds : Numeral ds) : Numeral (cs ++ ds) :=
  ⟨List.append_ne_nil_of_right_ne_nil cs hds.ne_nil,
    List.forall_mem_append.mpr ⟨h, hds.forall_mem⟩⟩

/-- The digits of a natural number. -/
theorem toDigits (n : Nat) : Numeral (Nat.toDigits 10 n) := by
  refine ⟨Nat.toDigits_ne_nil, fun c hc => ?_⟩
  rw [isNumeral, Nat.isDigit_of_mem_toDigits (by decide) (by decide) hc, Bool.true_or]

/-- A sign may come first. -/
theorem signed (negative : Prop) [Decidable negative] (h : Numeral cs) :
    Numeral (if negative then '-' :: cs else cs) := by
  split
  · exact .cons rfl h.forall_mem
  · exact h

end Numeral

namespace Binary64

variable {digits : List Char} (h : Numeral digits)

/-- The exponent of a number. -/
theorem numeral_exponentText (plusSign : Bool) (e : Int) : Numeral (exponentText plusSign e) := by
  unfold exponentText
  split
  · exact .cons rfl (Numeral.toDigits _).forall_mem
  · split
    · exact .cons rfl (Numeral.toDigits _).forall_mem
    · exact .toDigits _

include h

/-- A number without exponent. -/
theorem numeral_positionalText (exponent : Int) : Numeral (positionalText digits exponent) := by
  have hzeros (n : Nat) : ∀ c ∈ List.replicate n '0', isNumeral c = true := by
    intro c hc
    rw [List.eq_of_mem_replicate hc]
    rfl
  unfold positionalText
  dsimp only
  split
  · rw [List.append_assoc]
    exact .append h.forall_mem (.append (hzeros _) (.cons rfl (by decide)))
  · split
    · refine .append (fun c hc => ?_) (.cons rfl fun c hc => ?_)
      · exact h.forall_mem c (List.mem_of_mem_take hc)
      · exact h.forall_mem c (List.mem_of_mem_drop hc)
    · exact .cons rfl (Numeral.cons rfl (Numeral.append (hzeros _) h).forall_mem).forall_mem

/-- A number with exponent. -/
theorem numeral_scientificText (plusSign : Bool) (exponent : Int) :
    Numeral (scientificText plusSign digits exponent) := by
  have hexponent (e : Int) : Numeral ('e' :: exponentText plusSign e) :=
    .cons rfl (numeral_exponentText plusSign e).forall_mem
  obtain ⟨hne, hmem⟩ := h
  unfold scientificText
  dsimp only
  split
  · rw [List.forall_mem_cons] at hmem
    exact .cons hmem.1 (hexponent _).forall_mem
  · rw [List.forall_mem_cons] at hmem
    have hfraction (e : Int) := Numeral.append hmem.2 (hexponent e)
    exact .cons hmem.1 (Numeral.cons rfl (hfraction _).forall_mem).forall_mem
  · exact absurd rfl hne

omit h in
/-- A number without its sign, in either form. -/
theorem Layout.numeral_magnitude (layout : Layout) (m : Nat) (q : Int) :
    Numeral (layout.magnitude m q) := by
  unfold Layout.magnitude
  dsimp only
  split
  · exact numeral_positionalText (.toDigits _) _
  · exact numeral_scientificText (.toDigits _) _ _

end Binary64

/-- All numbers, those that are not finite included. -/
theorem Number.numeral_aggregate (n : Number) : Numeral (n.textIn aggregateLayout).toList := by
  cases n with
  | integer i =>
      rw [textIn, integerText, String.toList_ofList]
      exact .signed _ (.toDigits _)
  | float x =>
      cases x with
      | finite negative m q =>
          rw [textIn, Binary64.Layout.text, String.toList_ofList]
          exact .signed _ (Binary64.Layout.numeral_magnitude _ m q)
      | infinite negative =>
          cases negative with
          | false => exact ⟨by decide, by decide⟩
          | true => exact ⟨by decide, by decide⟩
      | nan => exact ⟨by decide, by decide⟩

end ClassSchema
