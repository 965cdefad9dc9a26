import Mathlib.Data.List.Basic
import Mathlib.Data.List.TakeWhile
import ClassSchema.Text.Blank
import ClassSchema.Text.Cut

/-! # Texts that are put together and taken apart again

What the functions that take a text apart give for a text of known parts. -/

namespace ClassSchema.Chars

section Decidable

-- What holds of the characters of a text is decided on the text, not by a search over all
-- characters.

variable {p : Char → Prop} [DecidablePred p]

instance decidableForallMem (cs : List Char) : Decidable (∀ c ∈ cs, p c) :=
  List.decidableBAll p cs

instance decidableForallMemOption (o : Option Char) : Decidable (∀ c ∈ o, p c) :=
  o.decidableForallMem

end Decidable

/-- What follows the start of a text. -/
theorem stripStart?_eq_some {head text rest : List Char} :
    stripStart? head text = some rest ↔ text = head ++ rest := by
  induction head generalizing text with
  | nil => simp [stripStart?]
  | cons h hs ih =>
      cases text with
      | nil => simp [stripStart?]
      | cons c cs =>
          rw [stripStart?]
          split
          · rename_i hc
            subst hc
            simp [ih]
          · rename_i hc
            simp [Ne.symm hc]

@[simp] theorem stripStart?_append (head rest : List Char) :
    stripStart? head (head ++ rest) = some rest :=
  stripStart?_eq_some.mpr rfl

/-- A text has no such start. -/
theorem stripStart?_eq_none {head text : List Char} :
    stripStart? head text = none ↔ ¬ head <+: text := by
  rw [Option.eq_none_iff_forall_ne_some]
  constructor
  · rintro h ⟨rest, rfl⟩
    exact h rest (stripStart?_append head rest)
  · intro h rest hrest
    exact h ⟨rest, (stripStart?_eq_some.mp hrest).symm⟩

/-- What precedes the end of a text. -/
theorem stripEnd?_eq_some {tail text rest : List Char} :
    stripEnd? tail text = some rest ↔ text = rest ++ tail := by
  simp only [stripEnd?, Option.map_eq_some_iff, stripStart?_eq_some]
  constructor
  · rintro ⟨r, hr, rfl⟩
    simpa using congrArg List.reverse hr
  · rintro rfl
    exact ⟨rest.reverse, by simp, by simp⟩

@[simp] theorem stripEnd?_append (tail rest : List Char) :
    stripEnd? tail (rest ++ tail) = some rest :=
  stripEnd?_eq_some.mpr rfl

section Cut

variable {c : Char} {before : List Char}

-- A text without the first character of the separator holds no part of it, so the separator that
-- follows the text is the first one.

/-- A text is cut at a separator whose first character does not occur before. -/
theorem cut?_append (sep after : List Char) (h : c ∉ before) :
    cut? (c :: sep) (before ++ c :: sep ++ after) = some (before, after) := by
  induction before with
  | nil =>
      have hstrip := stripStart?_append (c :: sep) after
      rw [List.nil_append, List.cons_append] at *
      rw [cut?, hstrip]
  | cons d ds ih =>
      obtain ⟨hd, hds⟩ := not_or.mp (mt List.mem_cons.mpr h)
      have hstrip : stripStart? (c :: sep) (d :: (ds ++ c :: sep ++ after)) = none := by
        rw [stripStart?, if_neg hd]
      rw [List.cons_append, List.cons_append, cut?, hstrip]
      simp only [ih hds, Option.map_some]

/-- A text without its first character is not cut. -/
theorem cut?_eq_none (sep : List Char) (h : c ∉ before) : cut? (c :: sep) before = none := by
  induction before with
  | nil => rfl
  | cons d ds ih =>
      obtain ⟨hd, hds⟩ := not_or.mp (mt List.mem_cons.mpr h)
      have hstrip : stripStart? (c :: sep) (d :: ds) = none := by rw [stripStart?, if_neg hd]
      rw [cut?, hstrip]
      simp only [ih hds, Option.map_none]

/-- A start without a character ends before it. -/
theorem prefix_of_prefix_append_cons {head after : List Char} (hhead : c ∉ head)
    (h : head <+: before ++ c :: after) : head <+: before := by
  rcases List.prefix_or_prefix_of_prefix h (List.prefix_append before (c :: after)) with h' | h'
  · exact h'
  · obtain ⟨rest, rfl⟩ := h'
    rw [List.prefix_append_right_inj] at h
    rcases List.prefix_cons_iff.mp h with rfl | ⟨rest', rfl, -⟩
    · simp
    · simp at hhead

/-- A start that ends with the first such character is all that comes before it. -/
theorem eq_of_prefix_append_cons {head after : List Char} (hbefore : c ∉ before)
    (hhead : c ∉ head) (h : head ++ [c] <+: before ++ c :: after) : before = head := by
  obtain ⟨rest, hrest⟩ := h
  have hcut := cut?_append [] rest hhead
  rw [hrest, List.append_cons, cut?_append [] after hbefore] at hcut
  simp only [Option.some.injEq, Prod.mk.injEq] at hcut
  exact hcut.1

end Cut

section CutFirst

variable {sep text before after : List Char}

/-- The parts make up the text. -/
theorem cut?_eq_some (h : cut? sep text = some (before, after)) :
    text = before ++ sep ++ after := by
  induction text generalizing before with
  | nil =>
      obtain ⟨rest, hrest, heq⟩ := Option.map_eq_some_iff.mp h
      cases heq
      exact stripStart?_eq_some.mp hrest
  | cons c cs ih =>
      rw [cut?] at h
      split at h
      · rename_i rest hrest
        cases h
        exact stripStart?_eq_some.mp hrest
      · obtain ⟨⟨before', after'⟩, hcut, heq⟩ := Option.map_eq_some_iff.mp h
        cases heq
        rw [ih hcut, List.cons_append, List.cons_append]

/-- The occurrence at which a text is cut is not behind any other. -/
theorem exists_cut? (sep u v : List Char) :
    ∃ before after, cut? sep (u ++ sep ++ v) = some (before, after) ∧
      before.length ≤ u.length := by
  induction u with
  | nil =>
      refine ⟨[], v, ?_, Nat.le_refl 0⟩
      have hstrip := stripStart?_append sep v
      rw [List.nil_append]
      cases htext : sep ++ v with
      | nil =>
          rw [htext] at hstrip
          rw [cut?, hstrip, Option.map_some]
      | cons c cs =>
          rw [htext] at hstrip
          rw [cut?, hstrip]
  | cons c u ih =>
      obtain ⟨before, after, hcut, hlength⟩ := ih
      rw [List.cons_append, List.cons_append, cut?]
      split
      · rename_i rest _
        exact ⟨[], rest, rfl, Nat.zero_le _⟩
      · rw [hcut]
        exact ⟨c :: before, after, rfl, Nat.succ_le_succ hlength⟩

/-- The separator does not occur in the first part. -/
theorem not_mem_of_cut? {c : Char} (h : cut? [c] text = some (before, after)) : c ∉ before := by
  intro hc
  obtain ⟨u, v, rfl⟩ := List.append_of_mem hc
  have htext : text = u ++ [c] ++ (v ++ [c] ++ after) := by simpa using cut?_eq_some h
  obtain ⟨before', after', hcut, hlength⟩ := exists_cut? [c] u (v ++ [c] ++ after)
  rw [← htext, h] at hcut
  cases hcut
  rw [List.length_append, List.length_cons] at hlength
  omega

end CutFirst

section CutAny

variable {sep text before after u v : List Char}

end CutAny

section CutLast

variable {c : Char} {after : List Char}

/-- A text is cut at a separator whose last character does not occur behind. -/
theorem cutLast?_append (sep before : List Char) (h : c ∉ after) :
    cutLast? (sep ++ [c]) (before ++ (sep ++ [c]) ++ after) = some (before, after) := by
  have hsep : (sep ++ [c]).reverse = c :: sep.reverse := by simp
  have htext : (before ++ (sep ++ [c]) ++ after).reverse
      = after.reverse ++ c :: sep.reverse ++ before.reverse := by simp
  rw [cutLast?, hsep, htext, cut?_append _ _ (mt List.mem_reverse.mp h)]
  simp

/-- A text without its last character is not cut. -/
theorem cutLast?_eq_none (sep : List Char) (h : c ∉ after) :
    cutLast? (sep ++ [c]) after = none := by
  simp [cutLast?, cut?_eq_none sep.reverse (mt List.mem_reverse.mp h)]

/-- The separator does not occur in the last part. -/
theorem cutLast?_eq_some {text before : List Char} (h : cutLast? [c] text = some (before, after)) :
    text = before ++ c :: after ∧ c ∉ after := by
  obtain ⟨⟨after', before'⟩, hcut, heq⟩ := Option.map_eq_some_iff.mp h
  cases heq
  have htext := congrArg List.reverse (cut?_eq_some hcut)
  refine ⟨by simpa using htext, ?_⟩
  rw [List.mem_reverse]
  exact not_mem_of_cut? hcut

end CutLast

section Split

variable {p : Char → Bool} {piece : List Char}

/-- The pieces are those of the library. -/
theorem split_eq_splitOnP (p : Char → Bool) (text : List Char) :
    split p text = text.splitOnP p := by
  induction text with
  | nil => exact List.splitOnP_nil.symm
  | cons c cs ih =>
      rw [split, List.splitOnP_cons_eq_if_modifyHead, ih]
      split
      · rfl
      · cases hcs : cs.splitOnP p with
        | nil => exact absurd hcs (List.splitOnP_ne_nil p cs)
        | cons first rest => rfl

/-- A text without separators is in one piece. -/
theorem split_eq_singleton (h : ∀ c ∈ piece, p c = false) : split p piece = [piece] := by
  rw [split_eq_splitOnP, List.splitOnP_eq_singleton h]

/-- The first piece is what comes before the first separator. -/
theorem split_append_cons {c : Char} (hc : p c = true) (h : ∀ c ∈ piece, p c = false)
    (text : List Char) : split p (piece ++ c :: text) = piece :: split p text := by
  rw [split_eq_splitOnP, split_eq_splitOnP, List.splitOnP_append_cons_of_forall_mem h c hc]

/-- There is at least one piece, even of the empty text. -/
theorem split_ne_nil (p : Char → Bool) (text : List Char) : split p text ≠ [] := by
  rw [split_eq_splitOnP]
  exact List.splitOnP_ne_nil p text

/-- So there is a last piece. -/
theorem exists_split_eq (p : Char → Bool) (text : List Char) :
    ∃ first last, split p text = first ++ [last] :=
  ⟨_, _, (List.dropLast_append_getLast (split_ne_nil p text)).symm⟩

/-- At a separator the texts on its two sides are split on their own. -/
theorem split_append_sep {c : Char} (hc : p c = true) (u v : List Char) :
    split p (u ++ c :: v) = split p u ++ split p v := by
  rw [split_eq_splitOnP, split_eq_splitOnP, split_eq_splitOnP, List.splitOnP_append_cons u v hc]

/-- No piece holds a separator. -/
theorem forall_mem_split {text : List Char} (h : piece ∈ split p text) :
    ∀ c ∈ piece, p c = false := by
  induction text generalizing piece with
  | nil =>
      obtain rfl : piece = [] := by simpa [split] using h
      simp
  | cons c cs ih =>
      rw [split] at h
      split at h
      · rcases List.mem_cons.mp h with rfl | h
        · simp
        · exact ih h
      · rename_i hc
        cases hcs : split p cs with
        | nil => exact absurd hcs (split_ne_nil p cs)
        | cons first pieces =>
            rw [hcs] at h ih
            rcases List.mem_cons.mp h with rfl | h
            · rw [List.forall_mem_cons]
              exact ⟨by simpa using hc, ih List.mem_cons_self⟩
            · exact ih (List.mem_cons_of_mem _ h)

/-- What follows the last separator goes to the last piece. -/
theorem split_append_free {first : List (List Char)} {text rest : List Char}
    (h : split p text = first ++ [piece]) (hrest : ∀ c ∈ rest, p c = false) :
    split p (text ++ rest) = first ++ [piece ++ rest] := by
  induction text generalizing first piece with
  | nil =>
      obtain ⟨rfl, rfl⟩ : first = [] ∧ piece = [] := by
        cases first with
        | nil => simpa [split] using h.symm
        | cons f fs => simp [split] at h
      simpa using split_eq_singleton hrest
  | cons c cs ih =>
      obtain ⟨first', piece', hcs⟩ := exists_split_eq p cs
      rw [List.cons_append, split, ih hcs]
      rw [split, hcs] at h
      split
      · rename_i hc
        rw [if_pos hc, ← List.cons_append] at h
        obtain ⟨rfl, rfl⟩ := List.append_singleton_inj.mp h
        rfl
      · rename_i hc
        rw [if_neg hc] at h
        cases first' with
        | nil =>
            have h : [] ++ [c :: piece'] = first ++ [piece] := h
            obtain ⟨rfl, rfl⟩ := List.append_singleton_inj.mp h
            rfl
        | cons f fs =>
            have h : (c :: f) :: fs ++ [piece'] = first ++ [piece] := h
            obtain ⟨rfl, rfl⟩ := List.append_singleton_inj.mp h
            rfl

/-- What holds no separator joins the first piece if it comes before. -/
theorem split_free_append {first text : List Char} {rest : List (List Char)}
    (h : ∀ c ∈ piece, p c = false) (htext : split p text = first :: rest) :
    split p (piece ++ text) = (piece ++ first) :: rest := by
  induction piece with
  | nil => exact htext
  | cons c cs ih =>
      rw [List.forall_mem_cons] at h
      rw [List.cons_append, split, ih h.2, h.1]
      rfl

/-- Pieces without separators are found again between them. -/
theorem split_intercalate {c : Char} (hc : p c = true) {pieces : List (List Char)}
    (hne : pieces ≠ []) (h : ∀ piece ∈ pieces, ∀ c ∈ piece, p c = false) :
    split p (List.intercalate [c] pieces) = pieces := by
  induction pieces with
  | nil => exact absurd rfl hne
  | cons piece rest ih =>
      rw [List.forall_mem_cons] at h
      cases rest with
      | nil => simpa using split_eq_singleton h.1
      | cons next rest =>
          rw [List.intercalate_cons_cons, List.append_assoc, List.singleton_append,
            split_append_cons hc h.1, ih (List.cons_ne_nil _ _) h.2]

/-- What holds of all characters of separators and pieces holds of the whole. -/
theorem forall_mem_intercalate {P : Char → Prop} {sep : List Char} {pieces : List (List Char)}
    (hsep : ∀ c ∈ sep, P c) (h : ∀ piece ∈ pieces, ∀ c ∈ piece, P c) :
    ∀ c ∈ List.intercalate sep pieces, P c := by
  induction pieces with
  | nil => simp
  | cons piece rest ih =>
      rw [List.forall_mem_cons] at h
      cases rest with
      | nil => simpa using h.1
      | cons next rest =>
          rw [List.intercalate_cons_cons, List.forall_mem_append, List.forall_mem_append]
          exact ⟨⟨h.1, hsep⟩, ih h.2⟩

end Split

section Replace

variable {pat new : List Char}

/-- Characters are passed over. -/
theorem replaceFrom_append (skipped text : List Char) :
    replaceFrom pat new skipped.length (skipped ++ text) = replaceFrom pat new 0 text := by
  induction skipped with
  | nil => rfl
  | cons c cs ih => exact ih

/-- The first occurrence is replaced, and then those behind it. -/
theorem replace_append {c : Char} {before : List Char} (sep after : List Char) (h : c ∉ before) :
    replace (c :: sep) new (before ++ c :: sep ++ after)
      = before ++ new ++ replace (c :: sep) new after := by
  induction before with
  | nil =>
      have hprefix : (c :: sep).isPrefixOf (c :: (sep ++ after)) = true :=
        List.isPrefixOf_iff_prefix.mpr ⟨after, rfl⟩
      rw [List.nil_append, List.cons_append, replace, replaceFrom, if_pos hprefix]
      exact congrArg _ (replaceFrom_append sep after)
  | cons d ds ih =>
      obtain ⟨hd, hds⟩ := not_or.mp (mt List.mem_cons.mpr h)
      have hprefix : ¬ (c :: sep).isPrefixOf (d :: (ds ++ c :: sep ++ after)) = true := by
        simp [hd]
      rw [List.cons_append, List.cons_append, replace, replaceFrom, if_neg hprefix]
      exact congrArg _ (ih hds)

end Replace

/-- No blank stands at either end. -/
structure Trimmed (cs : List Char) : Prop where
  first : ∀ c ∈ cs.head?, isBlank c = false
  last : ∀ c ∈ cs.getLast?, isBlank c = false

/-- Blanks on both sides of a text. -/
structure Padding where
  before : List Char
  after : List Char
  before_blank : ∀ c ∈ before, isBlank c = true
  after_blank : ∀ c ∈ after, isBlank c = true

namespace Padding

/-- The text with the blanks on both sides. -/
def around (p : Padding) (cs : List Char) : List Char := p.before ++ cs ++ p.after

/-- No blanks. -/
def none : Padding := ⟨[], [], by simp, by simp⟩

@[simp] theorem none_around (cs : List Char) : none.around cs = cs := List.append_nil cs

end Padding

/-- Blanks at the start go away. -/
theorem trimStart_append {blanks : List Char} (h : ∀ c ∈ blanks, isBlank c = true)
    (cs : List Char) : trimStart (blanks ++ cs) = trimStart cs :=
  List.dropWhile_append_of_pos h

/-- A text that starts with something else is kept. -/
theorem trimStart_eq_self {cs : List Char} (h : ∀ c ∈ cs.head?, isBlank c = false) :
    trimStart cs = cs := by
  cases cs with
  | nil => rfl
  | cons c cs => exact List.dropWhile_cons_of_neg (by simp [h c rfl])

/-- The end of a text is the start of the reversed one. -/
theorem trimEnd_eq (cs : List Char) : trimEnd cs = (trimStart cs.reverse).reverse := rfl

/-- Blanks around a trimmed text go away. -/
theorem Trimmed.trim_around {cs : List Char} (h : Trimmed cs) (p : Padding) :
    trim (p.around cs) = cs := by
  have hend : trimEnd (cs ++ p.after) = cs := by
    rw [trimEnd_eq, List.reverse_append,
      trimStart_append (fun c hc => p.after_blank c (List.mem_reverse.mp hc)),
      trimStart_eq_self (by simpa using h.last), List.reverse_reverse]
  rw [trim, Padding.around, List.append_assoc, trimStart_append p.before_blank]
  cases cs with
  | nil =>
      have hafter : trimStart p.after = [] := by
        simpa using trimStart_append p.after_blank []
      simp [hafter]
  | cons c cs => rw [trimStart_eq_self (by simpa using h.first), hend]

/-- A trimmed text is kept. -/
theorem Trimmed.trim_eq_self {cs : List Char} (h : Trimmed cs) : trim cs = cs := by
  simpa using h.trim_around .none

section Trim

variable (cs : List Char)

/-- What is left at the end are blanks. -/
theorem trimStart_eq_append :
    trimStart cs = trim cs ++ ((trimStart cs).reverse.takeWhile isBlank).reverse := by
  rw [trim, trimEnd, ← List.reverse_append, List.takeWhile_append_dropWhile, List.reverse_reverse]

/-- Trimming takes off blanks only. -/
theorem exists_padding : ∃ p : Padding, cs = p.around (trim cs) := by
  have hstart : cs = cs.takeWhile isBlank ++ trimStart cs := List.takeWhile_append_dropWhile.symm
  refine ⟨⟨cs.takeWhile isBlank, ((trimStart cs).reverse.takeWhile isBlank).reverse, ?_, ?_⟩, ?_⟩
  · exact fun c hc => List.mem_takeWhile_imp hc
  · exact fun c hc => List.mem_takeWhile_imp (List.mem_reverse.mp hc)
  · rw [Padding.around, List.append_assoc, ← trimStart_eq_append, ← hstart]

/-- A text is trimmed to a part of it. -/
theorem trim_infix : trim cs <:+: cs := by
  obtain ⟨p, hp⟩ := exists_padding cs
  exact ⟨p.before, p.after, hp.symm⟩

/-- What is trimmed neither starts nor ends with blanks. -/
theorem trimmed_trim : Trimmed (trim cs) := by
  have hdrop (xs : List Char) : ∀ c ∈ (trimStart xs).head?, isBlank c = false := by
    intro c hc
    have hhead := List.head?_dropWhile_not isBlank xs
    rw [← trimStart, hc] at hhead
    exact hhead
  constructor
  · intro c hc
    apply hdrop cs
    rw [trimStart_eq_append, List.head?_append, hc]
    rfl
  · intro c hc
    rw [trim, trimEnd_eq, List.getLast?_reverse] at hc
    exact hdrop _ c hc

end Trim

end ClassSchema.Chars

namespace ClassSchema.Text

theorem stripStart?_eq_some {head s rest : String} :
    stripStart? head s = some rest ↔ s = head ++ rest := by
  rw [stripStart?, Option.map_eq_some_iff, ← String.toList_inj, String.toList_append]
  constructor
  · rintro ⟨cs, hcs, rfl⟩
    rw [String.toList_ofList]
    exact Chars.stripStart?_eq_some.mp hcs
  · intro h
    exact ⟨rest.toList, Chars.stripStart?_eq_some.mpr h, String.ofList_toList⟩

/-- A text starts with another if something follows. -/
theorem startsWith_iff {head s : String} : startsWith head s = true ↔ ∃ rest, s = head ++ rest := by
  rw [startsWith, Option.isSome_iff_exists]
  constructor
  · rintro ⟨cs, hcs⟩
    refine ⟨String.ofList cs, ?_⟩
    rw [← String.toList_inj, String.toList_append, String.toList_ofList]
    exact Chars.stripStart?_eq_some.mp hcs
  · rintro ⟨rest, rfl⟩
    rw [String.toList_append]
    exact ⟨_, Chars.stripStart?_append _ _⟩

end ClassSchema.Text
