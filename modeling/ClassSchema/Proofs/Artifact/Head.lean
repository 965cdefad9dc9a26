import Mathlib.Data.List.Forall2
import ClassSchema.Generate
import ClassSchema.Proofs.Computation
import ClassSchema.Proofs.Resolve.Agree
import ClassSchema.Proofs.Text.Cut

/-! # The head of a generated file

Only in its first line does a file say when it was generated, so plans for two times have the same
files with the same bodies. No file ends within its head. -/

namespace ClassSchema

namespace Timestamp

/-- Digits are no newlines. -/
theorem newline_not_mem_digits (width n : Nat) : '\n' ∉ (digits width n).toList := by
  intro h
  rw [digits, String.toList_ofList] at h
  rcases List.mem_append.mp h with h | h
  · exact absurd (List.eq_of_mem_replicate h) (by decide)
  · exact absurd (Nat.isDigit_of_mem_toDigits (by decide) (by decide) h) (by decide)

theorem newline_not_mem_yearText (year : Int) : '\n' ∉ (yearText year).toList := by
  unfold yearText
  split
  · exact newline_not_mem_digits 4 _
  · rw [String.toList_append, List.mem_append]
    rintro (h | h)
    · split at h <;> exact absurd h (by decide)
    · exact newline_not_mem_digits 4 _ h

/-- A time is written in one line. -/
theorem newline_not_mem_text (t : Timestamp) : '\n' ∉ t.text.toList := by
  simp [text, newline_not_mem_digits, newline_not_mem_yearText]

end Timestamp

/-- So is the comment of a run. -/
theorem newline_not_mem_generationComment (at_ : Timestamp) :
    '\n' ∉ (generationComment at_).toList := by
  intro h
  unfold generationComment at h
  rcases List.mem_append.mp (String.toList_append ▸ h) with h | h
  · exact absurd h (by decide)
  · exact at_.newline_not_mem_text h

namespace Artifact

/-- The first line of a file. -/
def firstLine (kind : ArtifactKind) (context : Context) : String :=
  kind.commentMark ++ " " ++ context.comment

/-- The first line of a file is one line if its comment is. -/
theorem newline_not_mem_firstLine (kind : ArtifactKind) {context : Context}
    (h : '\n' ∉ context.comment.toList) : '\n' ∉ (firstLine kind context).toList := by
  have hmark : '\n' ∉ (kind.commentMark ++ " ").toList := by cases kind <;> decide
  rw [firstLine, String.toList_append, List.mem_append]
  exact not_or.mpr ⟨hmark, h⟩

-- Two files of one project share all lines but the first.

/-- Files of a class. -/
theorem classLines_eq (project comment other : String) (c : ClassModel) (kind : ArtifactKind) :
    classLines ⟨project, comment⟩ c kind = (classLines ⟨project, other⟩ c kind).map fun lines =>
      firstLine kind ⟨project, comment⟩ :: lines.tail := by
  cases kind <;> rfl

/-- The header of a whole project. -/
theorem umbrellaHeader_eq (project comment other : String) (classes : List String)
    (registry : Bool) : umbrellaHeader ⟨⟨project, comment⟩, classes, registry⟩
      = firstLine .umbrellaHeader ⟨project, comment⟩
        :: (umbrellaHeader ⟨⟨project, other⟩, classes, registry⟩).tail :=
  rfl

/-- The module with all bindings. -/
theorem bindingModule_eq (project comment other : String) (classes : List String)
    (registry : Bool) : bindingModule ⟨⟨project, comment⟩, classes, registry⟩
      = firstLine .bindingModule ⟨project, comment⟩
        :: (bindingModule ⟨⟨project, other⟩, classes, registry⟩).tail :=
  rfl

end Artifact

namespace Generate

open Artifact

/-- A line ends at its newline. -/
theorem toList_text_cons (line : String) (lines : List String) :
    (Lines.text (line :: lines)).toList
      = line.toList ++ '\n' :: (Lines.text lines).toList := by
  simp [Lines.text]

/-- The body begins two lines after the first one. -/
theorem body_text {line : String} (h : '\n' ∉ line.toList) (lines : List String) :
    body (Lines.text (line :: lines))
      = (Chars.split (· == '\n') (Lines.text lines).toList).drop 2 := by
  have hline : ∀ c ∈ line.toList, (c == '\n') = false := by
    intro c hc
    rw [beq_eq_false_iff_ne]
    rintro rfl
    exact h hc
  rw [body, toList_text_cons, Chars.split_append_cons rfl hline, List.drop_succ_cons]

/-- A text of lines has at least one piece for each of them, and one more. -/
theorem length_lt_length_split (lines : List String) :
    lines.length < (Chars.split (· == '\n') (Lines.text lines).toList).length := by
  induction lines with
  | nil => exact List.length_pos_of_ne_nil (Chars.split_ne_nil _ _)
  | cons line lines ih =>
      have hline := List.length_pos_of_ne_nil (Chars.split_ne_nil (· == '\n') line.toList)
      rw [toList_text_cons, Chars.split_append_sep rfl, List.length_append, List.length_cons]
      omega

/-- The three lines of a head are not all there is. -/
theorem body_ne_nil {lines : List String} (h : 3 ≤ lines.length) :
    body (Lines.text lines) ≠ [] := by
  have hlength := length_lt_length_split lines
  rw [body, ne_eq, List.drop_eq_nil_iff]
  omega

/-- The same file, but for its head. -/
structure Planned.SameBody (p q : Planned) : Prop where
  path : p.path = q.path
  kind : p.kind = q.kind
  body : body p.text = body q.text

section Plans

variable {comment other : String} (hcomment : '\n' ∉ comment.toList)
  (hother : '\n' ∉ other.toList) (project : String)

include hcomment hother

/-- The comment does not reach into the body. -/
theorem body_firstLine (kind : ArtifactKind) (lines : List String) :
    body (Lines.text (firstLine kind ⟨project, comment⟩ :: lines))
      = body (Lines.text (firstLine kind ⟨project, other⟩ :: lines)) := by
  rw [body_text (newline_not_mem_firstLine kind hcomment),
    body_text (newline_not_mem_firstLine kind hother)]

/-- The files of a class have the same bodies, whatever the comment. -/
theorem agree_renderClass (kind : ArtifactKind) (c : ClassModel) :
    Agree Eq (fun a b => body a = body b) (renderClass kind ⟨project, comment⟩ c)
      (renderClass kind ⟨project, other⟩ c) := by
  unfold renderClass
  rw [classLines_eq project comment "", classLines_eq project other ""]
  cases classLines ⟨project, ""⟩ c kind with
  | none => exact .error rfl
  | some lines => exact .ite (.ok (body_firstLine hcomment hother project kind _)) (.error rfl)

/-- So have the files of a whole batch. -/
theorem agree_renderBatch (kind : ArtifactKind) (classes : List String) (registry : Bool) :
    Agree Eq (fun a b => body a = body b)
      (renderBatch kind ⟨⟨project, comment⟩, classes, registry⟩)
      (renderBatch kind ⟨⟨project, other⟩, classes, registry⟩) := by
  cases kind with
  | umbrellaHeader =>
      rw [renderBatch, renderBatch, umbrellaHeader_eq project comment "",
        umbrellaHeader_eq project other ""]
      exact .ok (body_firstLine hcomment hother project _ _)
  | bindingModule =>
      rw [renderBatch, renderBatch, bindingModule_eq project comment "",
        bindingModule_eq project other ""]
      exact .ok (body_firstLine hcomment hother project _ _)
  | _ => exact .error rfl

/-- A plan for one file of a class has at most one file. -/
theorem agree_planClass (config : Config) (c : ClassModel) (kind : ArtifactKind) :
    Agree Eq (fun p q => List.Forall₂ Planned.SameBody p.toList q.toList)
      (planClass config ⟨project, comment⟩ c kind) (planClass config ⟨project, other⟩ c kind) := by
  unfold planClass
  refine (agree_renderClass hcomment hother project kind c).elim ?_ ?_
  · intro a b hbody
    refine .ok ?_
    cases if kind.isSkeleton then config.skeletons else some config.output with
    | none => exact .nil
    | some dir => exact .cons ⟨rfl, rfl, hbody⟩ .nil
  · exact fun e e' h => .error h

/-- Plans for files of classes agree file by file. -/
theorem agree_planClasses (config : Config) (as : List (ClassModel × ArtifactKind)) :
    Agree Eq (List.Forall₂ Planned.SameBody) (planClasses config ⟨project, comment⟩ as)
      (planClasses config ⟨project, other⟩ as) := by
  induction as with
  | nil => exact .ok .nil
  | cons a as ih =>
      obtain ⟨c, kind⟩ := a
      refine (agree_planClass hcomment hother project config c kind).bind fun p q hpq => ?_
      exact ih.bind fun ps qs hpqs => .ok (List.rel_append hpq hpqs)

/-- So do plans for the files of a whole batch. -/
theorem agree_planBatch (config : Config) (classes : List String) (registry : Bool)
    (kinds : List ArtifactKind) : Agree Eq (List.Forall₂ Planned.SameBody)
      (planBatch config ⟨⟨project, comment⟩, classes, registry⟩ kinds)
      (planBatch config ⟨⟨project, other⟩, classes, registry⟩ kinds) := by
  induction kinds with
  | nil => exact .ok .nil
  | cons kind kinds ih =>
      refine (agree_renderBatch hcomment hother project kind classes registry).bind ?_
      intro a b hbody
      exact ih.bind fun ps qs hpqs => .ok (.cons ⟨rfl, rfl, hbody⟩ hpqs)

/-- What is planned depends on the comment in the first lines only. -/
theorem agree_plan (config : Config) (compiled : Compiled) :
    Agree Eq (List.Forall₂ Planned.SameBody) (compiled.plan config ⟨project, comment⟩)
      (compiled.plan config ⟨project, other⟩) := by
  refine (agree_planClasses hcomment hother project config _).bind fun ps qs hpqs => ?_
  refine (agree_planBatch hcomment hother project config _ _ _).bind fun ps' qs' hpqs' => ?_
  exact .ok (List.rel_append hpqs hpqs')

end Plans

section Below

variable {config : Config} {context : Context} {kind : ArtifactKind} {text : String}
  {planned : List Planned}

/-- A head has three lines, and it is part of the file. -/
theorem three_le_length {c : ClassModel} {lines : List String}
    (h : classLines context c kind = some lines) : 3 ≤ lines.length := by
  cases kind with
  | umbrellaHeader | bindingModule => cases h
  | _ =>
      cases h
      exact Nat.le_add_left 3 _

/-- The file of a class goes on after its head. -/
theorem body_of_renderClass {c : ClassModel} (h : renderClass kind context c = .ok text) :
    body text ≠ [] := by
  unfold renderClass at h
  split at h
  · cases h
  · rename_i lines hlines
    split at h
    · cases h
      exact body_ne_nil (three_le_length hlines)
    · cases h

/-- So does a file of a whole batch. -/
theorem body_of_renderBatch {b : BatchContext} (h : renderBatch kind b = .ok text) :
    body text ≠ [] := by
  cases kind with
  | umbrellaHeader | bindingModule =>
      cases h
      exact body_ne_nil (Nat.le_add_left 3 _)
  | _ => cases h

theorem body_of_planClasses {as : List (ClassModel × ArtifactKind)}
    (h : planClasses config context as = .ok planned) : ∀ p ∈ planned, body p.text ≠ [] := by
  induction as generalizing planned with
  | nil =>
      cases h
      exact List.forall_mem_nil _
  | cons a as ih =>
      obtain ⟨first, hfirst, h⟩ := bind_eq_ok h
      obtain ⟨rest, hrest, h⟩ := bind_eq_ok h
      cases h
      refine List.forall_mem_append.mpr ⟨?_, ih hrest⟩
      unfold planClass at hfirst
      split at hfirst
      · cases hfirst
      · rename_i text htext
        cases hfirst
        intro p hp
        obtain ⟨dir, -, rfl⟩ := Option.map_eq_some_iff.mp (Option.mem_toList.mp hp)
        exact body_of_renderClass htext

theorem body_of_planBatch {b : BatchContext} {kinds : List ArtifactKind}
    (h : planBatch config b kinds = .ok planned) : ∀ p ∈ planned, body p.text ≠ [] := by
  induction kinds generalizing planned with
  | nil =>
      cases h
      exact List.forall_mem_nil _
  | cons kind kinds ih =>
      obtain ⟨text, htext, h⟩ := bind_eq_ok h
      obtain ⟨rest, hrest, h⟩ := bind_eq_ok h
      cases h
      exact List.forall_mem_cons.mpr ⟨body_of_renderBatch htext, ih hrest⟩

/-- No planned file ends within its head. -/
theorem body_of_plan {compiled : Compiled} (h : compiled.plan config context = .ok planned) :
    ∀ p ∈ planned, body p.text ≠ [] := by
  obtain ⟨ofClasses, hclasses, h⟩ := bind_eq_ok h
  obtain ⟨ofBatch, hbatch, h⟩ := bind_eq_ok h
  cases h
  exact List.forall_mem_append.mpr ⟨body_of_planClasses hclasses, body_of_planBatch hbatch⟩

end Below

end Generate

end ClassSchema
