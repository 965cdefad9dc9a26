import ClassSchema.Text.Cut

/-! # Texts one after another -/

namespace ClassSchema.Text

/-- Without separator, texts are put one after another. -/
theorem join_empty_cons (s : String) (ss : List String) :
    join "" (s :: ss) = s ++ join "" ss := by
  cases ss with
  | nil => exact String.append_empty.symm
  | cons t ts => rw [join, String.append_empty]

/-- Two lists of texts can be joined one after the other. -/
theorem join_empty_append (ss ts : List String) :
    join "" (ss ++ ts) = join "" ss ++ join "" ts := by
  induction ss with
  | nil => exact String.empty_append.symm
  | cons s ss ih =>
      rw [List.cons_append, join_empty_cons, join_empty_cons, ih, String.append_assoc]

/-- Pieces that consist of pieces can be joined first. -/
theorem join_empty_flatMap {α : Type} (f : α → List String) (as : List α) :
    join "" (as.flatMap f) = join "" (as.map fun a => join "" (f a)) := by
  induction as with
  | nil => rfl
  | cons a as ih => rw [List.flatMap_cons, join_empty_append, ih, List.map_cons, join_empty_cons]

/-- Each text but the first comes with the separator before it. -/
theorem join_cons (sep s : String) (ss : List String) :
    join sep (s :: ss) = s ++ join "" (ss.map (sep ++ ·)) := by
  induction ss generalizing s with
  | nil => exact String.append_empty.symm
  | cons t ts ih =>
      rw [join, ih, List.map_cons, join_empty_cons]
      simp only [String.append_assoc]

/-- More texts are added at the end, each with the separator before it. -/
theorem join_cons_append (sep s : String) (ss ts : List String) :
    join sep (s :: (ss ++ ts)) = join sep (s :: ss) ++ join "" (ts.map (sep ++ ·)) := by
  rw [join_cons, join_cons, List.map_append, join_empty_append, String.append_assoc]

theorem toList_join_empty (ss : List String) : (join "" ss).toList = ss.flatMap String.toList := by
  induction ss with
  | nil => rfl
  | cons s ss ih => rw [join_empty_cons, String.toList_append, List.flatMap_cons, ih]

end ClassSchema.Text
