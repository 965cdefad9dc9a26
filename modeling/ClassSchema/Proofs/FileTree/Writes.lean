import Mathlib.Data.List.Basic
import ClassSchema.FileTree

/-! # What happens to a tree when files are written

Directories appear where nothing was, and files get a new text. Nothing disappears, so a path that
leads to a place before leads to the same place afterwards. -/

namespace ClassSchema

theorem Location.child_ne_root (l : Location) (name : String) : l.child name ≠ .root := by
  intro h
  have := congrArg String.toList h
  simp [child, root] at this

namespace FileTree

/-! ## Entries -/

/-- The root is a directory. -/
@[simp] theorem entry?_root (t : FileTree) : t.entry? .root = some .directory := by
  unfold entry?
  simp

private theorem lookup_filter_ne {l m : Location} (h : m ≠ l) (entries : List (Location × Entry)) :
    (entries.filter (·.1 != l)).lookup m = entries.lookup m := by
  induction entries with
  | nil => rfl
  | cons e es ih =>
      obtain ⟨place, entry⟩ := e
      rw [List.filter_cons]
      split
      · rw [List.lookup_cons, List.lookup_cons, ih]
      · rename_i hplace
        have hplace : place = l := by simpa using hplace
        subst hplace
        rw [ih, List.lookup_cons, beq_false_of_ne h]

/-- What has been set is there. -/
theorem entry?_set_self {l : Location} (h : l ≠ .root) (e : Entry) (t : FileTree) :
    entry? (t.set l e) l = some e := by
  unfold entry? set
  simp [h]

/-- All other places are as before. -/
theorem entry?_set_of_ne {l m : Location} (h : m ≠ l) (e : Entry) (t : FileTree) :
    entry? (t.set l e) m = t.entry? m := by
  unfold entry? set
  simp only [List.lookup_cons, beq_false_of_ne h, lookup_filter_ne h]

theorem isDirectoryAt_iff {t : FileTree} {l : Location} :
    t.isDirectoryAt l ↔ t.entry? l = some .directory := by
  simp [isDirectoryAt]

/-- A file is no directory. -/
theorem not_isDirectoryAt_of_file {t : FileTree} {l : Location} {c : Content}
    (h : t.entry? l = some (.file c)) : ¬ t.isDirectoryAt l := by
  simp [isDirectoryAt, h]

/-- What a path leads to is at its place. -/
theorem get?_of_locate? {t : FileTree} {path : String} {l : Location}
    (h : t.locate? path = some l) : t.get? path = t.entry? l := by
  rw [get?, h, Option.bind_some]

/-- A path leads to a file if there is one at its place. -/
theorem isFile_iff {t : FileTree} {path : String} :
    t.isFile path ↔ ∃ l c, t.locate? path = some l ∧ t.entry? l = some (.file c) := by
  unfold isFile get?
  cases hl : t.locate? path with
  | none => simp
  | some l =>
      rw [Option.bind_some]
      cases he : t.entry? l with
      | none => simp [he]
      | some e => cases e <;> simp [he]

/-! ## Steps of a path -/

/-- Where a step leads from a directory. -/
def step? (l : Location) (step : String) : Option Location :=
  if step.isEmpty || step == "." then some l
  else if step == ".." then some l.above
  else if isValidName step then some (l.child step)
  else none

@[simp] theorem walk_nil (t : FileTree) (l : Location) : t.walk l [] = some l := rfl

/-- A step starts at a directory. -/
theorem walk_cons (t : FileTree) (l : Location) (step : String) (steps : List String) :
    t.walk l (step :: steps) =
      if t.isDirectoryAt l then (step? l step).bind fun m => t.walk m steps else none := by
  rw [walk, step?]
  cases t.isDirectoryAt l with
  | false => rfl
  | true =>
      simp only [Bool.not_true, Bool.false_eq_true, if_false, if_true]
      split_ifs <;> rfl

/-- A walk can be made in two parts. -/
theorem walk_append (t : FileTree) (l : Location) (steps steps' : List String) :
    t.walk l (steps ++ steps') = (t.walk l steps).bind fun m => t.walk m steps' := by
  induction steps generalizing l with
  | nil => rfl
  | cons step steps ih =>
      rw [List.cons_append, walk_cons, walk_cons]
      split
      · rw [Option.bind_assoc]
        exact congrArg _ (funext ih)
      · rfl

/-! ## Changes -/

/-- Between two trees directories have been created where nothing was, and some of the texts that
`W` has for a place have been put there. -/
structure Writes (W : Location → String → Prop) (t t' : FileTree) : Prop where
  workdir : t'.workdir = t.workdir
  entry : ∀ l, t'.entry? l = t.entry? l ∨
    t.entry? l = none ∧ t'.entry? l = some .directory ∨
    t.entry? l ≠ some .directory ∧ ∃ s, W l s ∧ t'.entry? l = some (.file (.text s))

namespace Writes

variable {W V : Location → String → Prop} {t t' t'' : FileTree} {l : Location}

theorem refl (t : FileTree) : Writes W t t := ⟨rfl, fun _ => .inl rfl⟩

/-- More texts are allowed. -/
theorem mono (h : Writes W t t') (hV : ∀ l s, W l s → V l s) : Writes V t t' := by
  refine ⟨h.workdir, fun l => ?_⟩
  rcases h.entry l with hsame | hnew | ⟨hdir, s, hs, htext⟩
  · exact .inl hsame
  · exact .inr (.inl hnew)
  · exact .inr (.inr ⟨hdir, s, hV l s hs, htext⟩)

/-- Changes can be made one after another. -/
theorem trans (h : Writes W t t') (h' : Writes W t' t'') : Writes W t t'' := by
  refine ⟨h'.workdir.trans h.workdir, fun l => ?_⟩
  rcases h'.entry l with hsame' | ⟨hnone', hnew'⟩ | ⟨hdir', s, hs, htext⟩
  · rw [hsame']
    exact h.entry l
  · rcases h.entry l with hsame | ⟨-, hnew⟩ | ⟨-, s, -, htext⟩
    · exact .inr (.inl ⟨hsame ▸ hnone', hnew'⟩)
    · rw [hnone'] at hnew
      cases hnew
    · rw [hnone'] at htext
      cases htext
  · rcases h.entry l with hsame | ⟨-, hnew⟩ | ⟨hdir, -⟩
    · exact .inr (.inr ⟨hsame ▸ hdir', s, hs, htext⟩)
    · exact absurd hnew hdir'
    · exact .inr (.inr ⟨hdir, s, hs, htext⟩)

/-- A directory stays. -/
theorem directory (h : Writes W t t') (hl : t.entry? l = some .directory) :
    t'.entry? l = some .directory := by
  rcases h.entry l with hsame | ⟨hnone, -⟩ | ⟨hdir, -⟩
  · rw [hsame, hl]
  · rw [hl] at hnone
    cases hnone
  · exact absurd hl hdir

theorem isDirectoryAt (h : Writes W t t') (hl : t.isDirectoryAt l) : t'.isDirectoryAt l :=
  isDirectoryAt_iff.mpr (h.directory (isDirectoryAt_iff.mp hl))

/-- A file is still a file afterwards. -/
theorem file (h : Writes W t t') {c : Content} (hl : t.entry? l = some (.file c)) :
    ∃ c', t'.entry? l = some (.file c') := by
  rcases h.entry l with hsame | ⟨hnone, -⟩ | ⟨-, s, -, htext⟩
  · exact ⟨c, hsame.trans hl⟩
  · rw [hl] at hnone
    cases hnone
  · exact ⟨.text s, htext⟩

/-- A file was there before, or it has one of the texts for its place. -/
theorem file_before_or_text (h : Writes W t t') {c : Content} (hc : t'.entry? l = some (.file c)) :
    t.entry? l = some (.file c) ∨ ∃ s, W l s ∧ c = .text s := by
  rcases h.entry l with hsame | ⟨-, hnew⟩ | ⟨-, s, hs, htext⟩
  · exact .inl (hsame ▸ hc)
  · rw [hc] at hnew
    cases hnew
  · rw [hc] at htext
    cases htext
    exact .inr ⟨s, hs, rfl⟩

section Untouched

variable (h : Writes W t t') (hl : ∀ s, ¬ W l s)
include h hl

/-- What is at a place without a text for it stays. -/
theorem entry_of_untouched {e : Entry} (he : t.entry? l = some e) : t'.entry? l = some e := by
  rcases h.entry l with hsame | ⟨hnone, -⟩ | ⟨-, s, hs, -⟩
  · rw [hsame, he]
  · rw [he] at hnone
    cases hnone
  · exact absurd hs (hl s)

/-- A file at a place without a text for it has been there before. -/
theorem file_of_untouched {c : Content} (hc : t'.entry? l = some (.file c)) :
    t.entry? l = some (.file c) := by
  rcases h.file_before_or_text hc with hbefore | ⟨s, hs, -⟩
  · exact hbefore
  · exact absurd hs (hl s)

/-- A place without a text for it has the same file before and after. -/
theorem file_iff_of_untouched {c : Content} :
    t'.entry? l = some (.file c) ↔ t.entry? l = some (.file c) :=
  ⟨h.file_of_untouched hl, h.entry_of_untouched hl⟩

end Untouched

/-! ## Paths -/

/-- A walk leads to the same place afterwards. -/
theorem walk_eq_some (h : Writes W t t') {m : Location} {steps : List String}
    (hw : t.walk l steps = some m) : t'.walk l steps = some m := by
  induction steps generalizing l with
  | nil => exact hw
  | cons step steps ih =>
      rw [walk_cons] at hw ⊢
      split at hw
      · rename_i hdir
        obtain ⟨next, hnext, hrest⟩ := Option.bind_eq_some_iff.mp hw
        rw [if_pos (h.isDirectoryAt hdir), hnext]
        exact ih hrest
      · cases hw

/-- A path leads to the same place afterwards. -/
theorem locate?_eq_some (h : Writes W t t') {path : String} (hp : t.locate? path = some l) :
    t'.locate? path = some l := by
  unfold locate? at hp ⊢
  split
  · rename_i hempty
    rw [if_pos hempty] at hp
    cases hp
  · rename_i hempty
    rw [if_neg hempty] at hp
    rw [h.workdir]
    exact h.walk_eq_some hp

/-- A path that leads to a file still does. -/
theorem isFile (h : Writes W t t') {path : String} (hp : t.isFile path) : t'.isFile path := by
  obtain ⟨l, c, hl, hc⟩ := isFile_iff.mp hp
  obtain ⟨c', hc'⟩ := h.file hc
  exact isFile_iff.mpr ⟨l, c', h.locate?_eq_some hl, hc'⟩

end Writes

/-! ## Operations -/

/-- To put a text where no directory is changes nothing else. -/
theorem writes_set {W : Location → String → Prop} {t : FileTree} {l : Location} {s : String}
    (hl : t.isDirectoryAt l = false) (hs : W l s) : Writes W t (t.set l (.file (.text s))) := by
  have hdir : t.entry? l ≠ some .directory := by
    intro h
    rw [isDirectoryAt_iff.mpr h] at hl
    cases hl
  have hroot : l ≠ .root := by
    rintro rfl
    exact hdir t.entry?_root
  refine ⟨rfl, fun m => ?_⟩
  by_cases hm : m = l
  · subst hm
    exact .inr (.inr ⟨hdir, s, hs, entry?_set_self hroot _ t⟩)
  · exact .inl (entry?_set_of_ne hm _ t)

/-- To create a directory where nothing is changes nothing else. -/
private theorem writes_set_directory {W : Location → String → Prop} {t : FileTree} {l : Location}
    (hroot : l ≠ .root) (hl : t.entry? l = none) : Writes W t (t.set l .directory) := by
  refine ⟨rfl, fun m => ?_⟩
  by_cases hm : m = l
  · subst hm
    exact .inr (.inl ⟨hl, entry?_set_self hroot _ t⟩)
  · exact .inl (entry?_set_of_ne hm _ t)

/-- Only directories appear along a path. -/
theorem writes_createAlong {W : Location → String → Prop} (l : Location)
    (steps : List Path.Component) (t : FileTree) : Writes W t (createAlong l steps t).2 := by
  induction steps generalizing l t with
  | nil => exact .refl t
  | cons step steps ih =>
      cases step with
      | root => exact ih .root t
      | here => exact ih l t
      | up => exact ih l.above t
      | name name =>
          rw [createAlong]
          cases he : t.entry? (l.child name) with
          | some e =>
              cases e with
              | directory => exact ih _ t
              | file c => exact .refl t
          | none =>
              dsimp only
              split
              · exact (writes_set_directory (l.child_ne_root name) he).trans (ih _ _)
              · exact .refl t

/-- To create directories puts no text anywhere. -/
theorem writes_createDirectories {W : Location → String → Prop} (path : String) (t : FileTree) :
    Writes W t (t.createDirectories path).2 := by
  unfold createDirectories
  split
  · exact .refl t
  · split
    · exact .refl t
    · exact writes_createAlong _ _ t

end FileTree

end ClassSchema
