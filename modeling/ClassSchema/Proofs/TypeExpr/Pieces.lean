import ClassSchema.Proofs.TypeExpr.Brackets

/-! # Where arguments are cut

The text between the brackets of a constructor is cut at the separators outside of all further
brackets, and at no others: put back between the pieces, they give the text again. There is no
cut if and only if a bracket is closed that was not opened. -/

namespace ClassSchema.TypeExpr

/-- There are no pieces if and only if some start of the text closes more brackets than are open. -/
theorem splitTop_eq_none_iff {depth : Nat} {cs : List Char} : splitTop depth cs = none ↔
    ∃ start, start <+: cs ∧ depth + start.countP isOpening < start.countP isClosing := by
  induction cs generalizing depth with
  | nil => simp [splitTop]
  | cons c cs ih =>
      by_cases hle : [c].countP isClosing ≤ depth + [c].countP isOpening
      · obtain ⟨depth', hstep⟩ := Nat.exists_eq_add_of_le' hle
        rw [splitTop_cons cs hstep, Option.map_eq_none_iff, ih]
        constructor
        · rintro ⟨start, hstart, hlt⟩
          refine ⟨c :: start, (List.prefix_cons_inj c).mpr hstart, ?_⟩
          rw [← List.singleton_append, List.countP_append, List.countP_append]
          omega
        · rintro ⟨start, hstart, hlt⟩
          rcases List.prefix_cons_iff.mp hstart with rfl | ⟨rest, rfl, hrest⟩
          · simp at hlt
          · refine ⟨rest, hrest, ?_⟩
            rw [← List.singleton_append, List.countP_append, List.countP_append] at hlt
            omega
      · rw [Nat.not_le] at hle
        exact iff_of_true (splitTop_cons_eq_none cs hle) ⟨[c], by simp, hle⟩

/-! ## Separators -/

/-- A separator before which all brackets are closed, given with what stands before it; `depth`
brackets are open before that. -/
def isTopSeparator (depth : Nat) (site : List Char × Char) : Bool :=
  isSeparator site.2 && depth + site.1.countP isOpening == site.1.countP isClosing

/-- The separators outside of all brackets, in their order. -/
def topSeparators (depth : Nat) (cs : List Char) : List Char :=
  ((cs.inits.zip cs).filter (isTopSeparator depth)).map Prod.snd

variable {c : Char} {depth depth' : Nat}

/-- The first character stands outside of all brackets if none is open before. -/
theorem isTopSeparator_nil :
    isTopSeparator depth ([], c) = true ↔ isSeparator c = true ∧ depth = 0 := by
  simp [isTopSeparator]

/-- A character more before a separator counts for the depth. -/
theorem isTopSeparator_cons (h : depth + [c].countP isOpening = depth' + [c].countP isClosing) :
    isTopSeparator depth ∘ Prod.map (c :: ·) id = isTopSeparator depth' := by
  funext ⟨start, d⟩
  have hcount : depth + (c :: start).countP isOpening = (c :: start).countP isClosing ↔
      depth' + start.countP isOpening = start.countP isClosing := by
    rw [← List.singleton_append, List.countP_append, List.countP_append]
    omega
  rw [Function.comp_apply, Prod.map_apply, id, Bool.eq_iff_iff]
  simp only [isTopSeparator, Bool.and_eq_true, beq_iff_eq, hcount]

/-- The first character is one of them if it is a separator and no bracket is open before. -/
theorem topSeparators_cons (cs : List Char)
    (h : depth + [c].countP isOpening = depth' + [c].countP isClosing) :
    topSeparators depth (c :: cs) =
      (if isSeparator c = true ∧ depth = 0 then [c] else []) ++ topSeparators depth' cs := by
  have hrest : (((cs.inits.map (c :: ·)).zip cs).filter (isTopSeparator depth)).map Prod.snd
      = topSeparators depth' cs := by
    rw [List.zip_map_left, List.filter_map, isTopSeparator_cons h, List.map_map]
    rfl
  rw [topSeparators, List.inits_cons, List.zip_cons_cons, List.filter_cons]
  by_cases hfirst : isSeparator c = true ∧ depth = 0
  · rw [if_pos hfirst, if_pos (isTopSeparator_nil.mpr hfirst), List.map_cons, hrest]
    rfl
  · rw [if_neg hfirst, if_neg (mt isTopSeparator_nil.mp hfirst), hrest, List.nil_append]

/-! ## Pieces -/

/-- The pieces with the separators between them. -/
def rejoin (pieces : List (List Char)) (separators : List Char) : List Char :=
  (List.zipWith (· ++ ·) pieces (separators.map ([·]) ++ [[]])).flatten

/-- Behind an empty piece comes a separator. -/
theorem rejoin_nil_cons (c : Char) (pieces : List (List Char)) (separators : List Char) :
    rejoin ([] :: pieces) (c :: separators) = c :: rejoin pieces separators := rfl

/-- A character in front of the first piece is the first of the text. -/
theorem rejoin_consHead (c : Char) {pieces : List (List Char)} (h : pieces ≠ [])
    (separators : List Char) :
    rejoin (consHead c pieces) separators = c :: rejoin pieces separators := by
  obtain ⟨first, rest, rfl⟩ := List.exists_cons_of_ne_nil h
  cases separators <;> rfl

/-- The pieces lie between the separators outside of all brackets and hold none themselves. The
first of them starts below `depth` open brackets, the others below none. -/
structure CutAt (depth : Nat) (cs : List Char) (pieces : List (List Char)) : Prop where
  length_eq : pieces.length = (topSeparators depth cs).length + 1
  rejoin_eq : rejoin pieces (topSeparators depth cs) = cs
  head_free : ∀ piece ∈ pieces.head?, topSeparators depth piece = []
  tail_free : ∀ piece ∈ pieces.tail, topSeparators 0 piece = []

namespace CutAt

variable {cs : List Char} {pieces : List (List Char)}

/-- An empty text is one empty piece. -/
theorem nil : CutAt depth [] [[]] := by
  constructor <;> simp [topSeparators, rejoin]

/-- There is at least one piece. -/
theorem ne_nil (h : CutAt depth cs pieces) : pieces ≠ [] := by
  rintro rfl
  cases h.length_eq

/-- No piece holds a separator outside of all brackets. -/
theorem forall_free (h : CutAt 0 cs pieces) : ∀ piece ∈ pieces, topSeparators 0 piece = [] := by
  obtain ⟨first, rest, rfl⟩ := List.exists_cons_of_ne_nil h.ne_nil
  exact List.forall_mem_cons.mpr ⟨h.head_free first rfl, h.tail_free⟩

/-- A separator outside of all brackets comes behind an empty piece. -/
theorem cons_separator (h : CutAt 0 cs pieces) (hc : isSeparator c = true) :
    CutAt 0 (c :: cs) ([] :: pieces) := by
  have hstep : 0 + [c].countP isOpening = 0 + [c].countP isClosing := by
    simp [not_bracket_of_isSeparator hc]
  have htop : topSeparators 0 (c :: cs) = c :: topSeparators 0 cs := by
    rw [topSeparators_cons cs hstep, if_pos ⟨hc, rfl⟩, List.singleton_append]
  constructor
  · rw [htop, List.length_cons, List.length_cons, h.length_eq]
  · rw [htop, rejoin_nil_cons, h.rejoin_eq]
  · simp [topSeparators]
  · exact h.forall_free

/-- Any other character belongs to the first piece. -/
theorem cons_plain (h : CutAt depth' cs pieces)
    (hstep : depth + [c].countP isOpening = depth' + [c].countP isClosing)
    (hplain : ¬ (isSeparator c = true ∧ depth = 0)) :
    CutAt depth (c :: cs) (consHead c pieces) := by
  have htop (ds : List Char) : topSeparators depth (c :: ds) = topSeparators depth' ds := by
    rw [topSeparators_cons ds hstep, if_neg hplain, List.nil_append]
  obtain ⟨first, rest, rfl⟩ := List.exists_cons_of_ne_nil h.ne_nil
  constructor
  · rw [htop, ← h.length_eq]
    rfl
  · rw [htop, rejoin_consHead c h.ne_nil, h.rejoin_eq]
  · rintro _ ⟨⟩
    rw [htop, h.head_free first rfl]
  · exact h.tail_free

end CutAt

/-- If there are pieces at all, they are cut as described. -/
theorem cutAt_of_splitTop {cs : List Char} {pieces : List (List Char)}
    (h : splitTop depth cs = some pieces) : CutAt depth cs pieces := by
  induction cs generalizing depth pieces with
  | nil =>
      cases h
      exact .nil
  | cons c cs ih =>
      obtain ⟨depth', rest, hstep, hrest, rfl⟩ := splitTop_cons_eq_some h
      split
      · rename_i hsep
        obtain ⟨hc, rfl⟩ := hsep
        obtain rfl : 0 = depth' := by simpa [not_bracket_of_isSeparator hc] using hstep
        exact (ih hrest).cons_separator hc
      · exact (ih hrest).cons_plain hstep ‹_›

/-- A text is cut unless it closes a bracket too much, and then exactly at its separators outside of
all brackets. -/
theorem splitTop_cut (cs : List Char) :
    (splitTop 0 cs = none ↔
      ∃ start, start <+: cs ∧ start.countP isOpening < start.countP isClosing) ∧
    ∀ pieces, splitTop 0 cs = some pieces →
      pieces.length = (topSeparators 0 cs).length + 1 ∧
      rejoin pieces (topSeparators 0 cs) = cs ∧
      ∀ piece ∈ pieces, topSeparators 0 piece = [] := by
  refine ⟨by simp only [splitTop_eq_none_iff, Nat.zero_add], fun pieces h => ?_⟩
  have hcut := cutAt_of_splitTop h
  exact ⟨hcut.length_eq, hcut.rejoin_eq, hcut.forall_free⟩

/-- Separators inside of brackets of either kind stay where they are. -/
theorem splitTop_cut_candidates :
    splitTop 0 "TEMPLATE[Größe; Maß],PAIR(A, B);".toList
      = some ["TEMPLATE[Größe; Maß]".toList, "PAIR(A, B)".toList, []] ∧
    topSeparators 0 "TEMPLATE[Größe; Maß],PAIR(A, B);".toList = [',', ';'] ∧
    rejoin ["TEMPLATE[Größe; Maß]".toList, "PAIR(A, B)".toList, []] [',', ';']
      = "TEMPLATE[Größe; Maß],PAIR(A, B);".toList := by
  have hsplit : splitTop 0 "TEMPLATE[Größe; Maß],PAIR(A, B);".toList
      = some ["TEMPLATE[Größe; Maß]".toList, "PAIR(A, B)".toList, []] := by decide
  have htop : topSeparators 0 "TEMPLATE[Größe; Maß],PAIR(A, B);".toList = [',', ';'] := by decide
  have hcut := (splitTop_cut _).2 _ hsplit
  rw [htop] at hcut
  exact ⟨hsplit, htop, hcut.2.1⟩

end ClassSchema.TypeExpr
