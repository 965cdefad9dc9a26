import ClassSchema.Proofs.TypeExpr.Accepted

/-! # Class references, taken apart

The text in a class reference is a namespace, perhaps `Const`, a name, and perhaps the mark of a
pointer. All of it is kept, so the text can be put together again from what was read. -/

namespace ClassSchema.TypeExpr

/-- A class name is a namespace, which reaches through the last `::` and is empty if there is none,
and the rest. -/
structure Divides (className ns name : List Char) : Prop where
  eq : className = ns ++ name
  ends : ns = [] ∨ ∃ first, ns = first ++ [':', ':']
  longest : ∀ first rest, className = first ++ [':', ':'] ++ rest → first.length + 2 ≤ ns.length

namespace Divides

variable {className ns name ns' name' : List Char}

/-- No other division has a longer namespace. -/
theorem length_le (h : Divides className ns name) (h' : Divides className ns' name') :
    ns'.length ≤ ns.length := by
  rcases h'.ends with rfl | ⟨first, rfl⟩
  · exact Nat.zero_le _
  · have hle := h.longest first name' h'.eq
    rwa [List.length_append]

/-- There is only one division. -/
theorem unique (h : Divides className ns name) (h' : Divides className ns' name') :
    ns = ns' ∧ name = name' :=
  List.append_inj (h.eq.symm.trans h'.eq) (Nat.le_antisymm (h'.length_le h) (h.length_le h'))

end Divides

/-! ## The parts of a class name -/

section Parts

variable {text ns marked pointed name : List Char} {isConst : Bool} {pointer : Pointer}

end Parts

/-- The text of a class reference, put together from what is read of it. -/
def Spells (text : List Char) (className : String) (isConst : Bool) (pointer : Pointer) : Prop :=
  ∃ ns name, Divides className.toList ns name ∧
    text = ns ++ (if isConst then "Const".toList else []) ++ name ++ pointer.spelling.toList

/-- No two texts are taken apart into the same class name and marks. -/
theorem Spells.unique {text text' : List Char} {className : String} {isConst : Bool}
    {pointer : Pointer} (h : Spells text className isConst pointer)
    (h' : Spells text' className isConst pointer) : text = text' := by
  obtain ⟨ns, name, hdivides, rfl⟩ := h
  obtain ⟨ns', name', hdivides', rfl⟩ := h'
  obtain ⟨rfl, rfl⟩ := hdivides.unique hdivides'
  rfl

end ClassSchema.TypeExpr
