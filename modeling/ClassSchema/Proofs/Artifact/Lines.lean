import ClassSchema.Artifact.Header
import ClassSchema.Proofs.Text.Cut
import ClassSchema.Proofs.Text.Join

/-! # The lines of a file

Files are put together from pieces, and so are their texts. Lines of one kind are told from all
others by their first character, or by what stands at both of their ends. -/

namespace ClassSchema

/-! ## Pieces -/

namespace Lines

/-- The text of two pieces is the text of one after that of the other. -/
theorem text_append (ls ms : List String) : text (ls ++ ms) = text ls ++ text ms := by
  induction ls with
  | nil => exact String.empty_append.symm
  | cons l ls ih =>
      rw [List.cons_append, text, text, ih]
      simp only [String.append_assoc]

/-- The text of many pieces is their texts, one after another. -/
theorem text_flatMap {α : Type} (f : α → List String) (as : List α) :
    text (as.flatMap f) = Text.join "" (as.map fun a => text (f a)) := by
  induction as with
  | nil => rfl
  | cons a as ih =>
      rw [List.flatMap_cons, text_append, ih, List.map_cons, Text.join_empty_cons]

/-- Pieces are moved to the right one by one. -/
theorem indent_append (n : Nat) (ls ms : List String) :
    indent n (ls ++ ms) = indent n ls ++ indent n ms :=
  List.map_append

/-- To move lines twice is to move them by the sum. -/
theorem indent_indent (m n : Nat) (ls : List String) :
    indent m (indent n ls) = indent (m + n) ls := by
  rw [indent, indent, indent, List.map_map]
  refine List.map_congr_left fun l _ => ?_
  rw [Function.comp_apply]
  by_cases hempty : l.isEmpty = true
  · rw [if_pos hempty, if_pos hempty, if_pos hempty]
  · have hpad : ¬ (pad n ++ l).isEmpty = true := by
      rw [String.isEmpty_iff] at hempty ⊢
      exact fun heq => hempty (String.append_eq_empty_iff.mp heq).2
    have hpads : pad m ++ pad n = pad (m + n) := by
      rw [← String.toList_inj]
      simp [pad]
    rw [if_neg hempty, if_neg hempty, if_neg hpad, ← String.append_assoc, hpads]

/-! ## Ends -/

/-- A line that is moved to the right begins with a blank, or it is empty. -/
theorem head?_of_mem_indent {n : Nat} {lines : List String} {line : String}
    (h : line ∈ indent (n + 1) lines) :
    line.toList.head? = none ∨ line.toList.head? = some ' ' := by
  obtain ⟨l, -, rfl⟩ := List.mem_map.mp h
  split
  · rename_i hempty
    left
    rw [String.isEmpty_iff.mp hempty]
    rfl
  · right
    rw [pad, String.toList_append, String.toList_ofList, List.replicate_succ]
    rfl

/-- Lines that are moved to the right are no braces of their own. -/
theorem ne_of_mem_indent {n : Nat} {line brace : String} {body : List String}
    (hbrace : brace.toList.head? = some '\x7b' ∨ brace.toList.head? = some '\x7d')
    (h : line ∈ indent (n + 1) body) : line ≠ brace := by
  rintro rfl
  rcases hbrace with hbrace | hbrace <;> rcases head?_of_mem_indent h with hhead | hhead <;>
    simp [hhead] at hbrace

/-- What stands between `head` and `tail` in a line that consists of the three. -/
def between? (head tail line : String) : Option String :=
  ((Chars.stripStart? head.toList line.toList).bind (Chars.stripEnd? tail.toList)).map String.ofList

/-- The line is put together from the two ends and what is between them. -/
theorem between?_eq_some {head tail line s : String} :
    between? head tail line = some s ↔ line = head ++ s ++ tail := by
  simp only [between?, Option.map_eq_some_iff, Option.bind_eq_some_iff, Chars.stripStart?_eq_some,
    Chars.stripEnd?_eq_some, ← String.toList_inj, String.toList_append]
  constructor
  · rintro ⟨cs, ⟨rest, hline, rfl⟩, hs⟩
    rw [hline, ← hs, String.toList_ofList, List.append_assoc]
  · intro hline
    exact ⟨s.toList, ⟨s.toList ++ tail.toList, by rw [hline, List.append_assoc], rfl⟩,
      String.toList_ofList⟩

/-- What has been put between two ends is found there. -/
theorem filterMap_between? (head tail : String) (functions : List String) :
    (functions.map (head ++ · ++ tail)).filterMap (between? head tail) = functions := by
  rw [List.filterMap_map]
  refine (List.filterMap_congr fun f _ => ?_).trans List.filterMap_some
  exact between?_eq_some.mpr rfl

/-- A line that begins with another character has not this end. -/
theorem between?_of_head? {head line : String} (hne : head ≠ "")
    (h : line.toList.head? ≠ head.toList.head?) (tail : String) :
    between? head tail line = none := by
  rw [Option.eq_none_iff_forall_ne_some]
  intro s hs
  apply h
  obtain ⟨c, cs, hcs⟩ := List.exists_cons_of_ne_nil (mt String.toList_eq_nil_iff.mp hne)
  rw [between?_eq_some.mp hs, String.toList_append, String.toList_append, hcs]
  rfl

end Lines

namespace Artifact

/-- The lines of a head are comments. -/
theorem head?_of_mem_header {kind : ArtifactKind} {context : Context} {subject line : String}
    (h : line ∈ header kind context subject) :
    line.toList.head? = kind.commentMark.toList.head? := by
  simp only [header, List.mem_cons, List.not_mem_nil, or_false] at h
  cases kind <;> rcases h with rfl | rfl | rfl <;> simp [ArtifactKind.commentMark, toString]

end Artifact

end ClassSchema
