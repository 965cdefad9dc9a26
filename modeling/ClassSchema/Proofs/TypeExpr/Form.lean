import ClassSchema.Proofs.Text.Cut
import ClassSchema.Proofs.TypeExpr.Brackets

/-! # Written types

The types of the grammar as they are written: every part carries the conditions under which its
text can be told apart from that of other types. `Form.text` is the text of a type, and `Form.expr`
is the type that the text stands for. -/

namespace ClassSchema

/-- What stands after a class name for a pointer. -/
def Pointer.spelling : Pointer → String
  | .absent => ""
  | .plain => "Ptr"
  | .const => "CPtr"

namespace TypeExpr

/-- A bracket or a separator. -/
def isMark (c : Char) : Bool := isOpening c || isClosing c || isSeparator c

/-- No blank, bracket or separator occurs in the text. -/
def Plain (cs : List Char) : Prop := ∀ c ∈ cs, Chars.isBlank c = false ∧ isMark c = false

instance : DecidablePred Plain := fun cs => Chars.decidableForallMem cs

/-- A name without brackets and separators that is not taken for a placeholder. There may be blanks
inside of it. -/
structure Ident where
  chars : List Char
  ne_nil : chars ≠ []
  trimmed : Chars.Trimmed chars
  unmarked : ∀ c ∈ chars, isMark c = false
  not_placeholder : ¬ "TEMPLATE".toList <+: chars

/-- The name of a constructor. -/
structure Constructor extends Ident where
  not_reference : chars ≠ "XTYPE".toList
  not_function : chars ≠ "FUNCTION".toList

/-- A class name with its namespace, and marks for constancy and for a pointer. The conditions say
that no part of the name itself reads as a mark. -/
structure Reference where
  ns : List Char
  isConst : Bool
  name : List Char
  pointer : Pointer
  ns_ends : ns = [] ∨ "::".toList <:+ ns
  ns_plain : Plain ns
  name_plain : Plain name
  name_ne_nil : name ≠ []
  name_colon : ':' ∉ name
  upper_of_const : isConst = true → ∃ c rest, name = c :: rest ∧ c.isUpper = true
  not_const : isConst = false → ∀ c rest,
    name ++ pointer.spelling.toList = "Const".toList ++ c :: rest → c.isUpper = false
  not_pointer : pointer = .absent → "Ptr".toList <:+ name → name = "Ptr".toList
  not_constPointer : pointer = .plain → ['C'] <:+ name → name = ['C']

/-- The class name with its marks, without the namespace. -/
def Reference.marked (r : Reference) : List Char :=
  (if r.isConst then "Const".toList else []) ++ (r.name ++ r.pointer.spelling.toList)

/-- The text of a reference, without blanks. -/
def Reference.text (r : Reference) : List Char :=
  "XTYPE".toList ++ ('(' :: (r.ns ++ r.marked) ++ [')'])

/-- A candidate with the blanks around it. -/
structure Candidate where
  padding : Chars.Padding
  chars : List Char
  ne_nil : chars ≠ []
  trimmed : Chars.Trimmed chars
  plain : ∀ c ∈ chars, c ≠ ';' ∧ isOpening c = false ∧ isClosing c = false

/-- The text of a candidate with its blanks. -/
def Candidate.text (c : Candidate) : List Char := c.padding.around c.chars

/-- A placeholder with an index of 32 bits, if any, and candidates in brackets, if any. -/
structure Placeholder where
  index : Option UInt32
  candidates : Option (List Candidate)

namespace Placeholder

/-- The index of a placeholder behind a colon, or nothing. -/
def indexText (p : Placeholder) : List Char :=
  p.index.elim [] fun i => ':' :: Nat.toDigits 10 i.toNat

/-- The candidates of a placeholder in brackets, or nothing. -/
def candidatesText (p : Placeholder) : List Char :=
  p.candidates.elim [] fun cs => '[' :: List.intercalate [';'] (cs.map Candidate.text) ++ [']']

def text (p : Placeholder) : List Char := "TEMPLATE".toList ++ (p.indexText ++ p.candidatesText)

/-- The candidates of a placeholder, without blanks. -/
def candidateNames (p : Placeholder) : List String :=
  (p.candidates.getD []).map fun c => String.ofList c.chars

end Placeholder

/-- The signature of a function, in which the brackets of each kind match. -/
structure Signature where
  chars : List Char
  trimmed : Chars.Trimmed chars
  parens : Balanced (· == '(') (· == ')') chars
  squares : Balanced (· == '[') (· == ']') chars

/-- The text of a function. -/
def Signature.text (s : Signature) : List Char := "FUNCTION".toList ++ ('(' :: s.chars ++ [')'])

/-- What stands between two arguments. -/
inductive Separator where
  | comma
  | semicolon

def Separator.char : Separator → Char
  | .comma => ','
  | .semicolon => ';'

mutual

/-- A type as it is written. -/
inductive Form where
  | name (n : Ident)
  | reference (r : Reference)
  | placeholder (p : Placeholder)
  | function (s : Signature)
  | composite (base : Constructor) (args : Args)

/-- One argument or more, each with its blanks and the separator after it. -/
inductive Args where
  | last (padding : Chars.Padding) (arg : Form)
  | cons (padding : Chars.Padding) (arg : Form) (sep : Separator) (rest : Args)

end

mutual

/-- The text of a type. -/
def Form.text : Form → List Char
  | .name n => n.chars
  | .reference r => r.text
  | .placeholder p => p.text
  | .function s => s.text
  | .composite base args => base.chars ++ ('(' :: args.text ++ [')'])

/-- The text between the parentheses of a constructor. -/
def Args.text : Args → List Char
  | .last padding arg => padding.around arg.text
  | .cons padding arg sep rest => padding.around arg.text ++ sep.char :: rest.text

end

/-- The upper-case name by which a constructor is known. -/
def Constructor.base (b : Constructor) : String := Text.upper (String.ofList b.chars)

mutual

/-- The type that is written, each part with its own text. -/
def Form.expr : Form → TypeExpr
  | .name n => .primitive (String.ofList n.chars)
  | .reference r =>
      .reference (String.ofList (r.ns ++ r.name)) r.isConst r.pointer (String.ofList r.text)
  | .placeholder p =>
      .placeholder (p.index.map UInt32.toNat) p.candidateNames (String.ofList p.text)
  | .function s => .function (String.ofList s.chars) (String.ofList s.text)
  | .composite base args =>
      .composite base.base args.exprs (String.ofList (Form.composite base args).text)

/-- What the arguments are read as. -/
def Args.exprs : Args → List TypeExpr
  | .last _ arg => [arg.expr]
  | .cons _ arg _ rest => arg.expr :: rest.exprs

end

/-- Whether the type is itself a reference. -/
def Form.isReference : Form → Bool
  | .reference _ => true
  | _ => false

/-- Whether one of the arguments is a reference. -/
def Args.anyReference : Args → Bool
  | .last _ arg => arg.isReference
  | .cons _ arg _ rest => arg.isReference || rest.anyReference

mutual

/-- No set has a class reference as an argument of its own. -/
def Form.Admissible : Form → Prop
  | .composite base args =>
      (Container.isSetLike base.base = true → args.anyReference = false) ∧ args.Admissible
  | _ => True

/-- All arguments are admissible. -/
def Args.Admissible : Args → Prop
  | .last _ arg => arg.Admissible
  | .cons _ arg _ rest => arg.Admissible ∧ rest.Admissible

end

/-! ## The texts of types -/

/-- No mark is none of the three kinds of marks. -/
theorem isMark_eq_false_iff {c : Char} :
    isMark c = false ↔ isOpening c = false ∧ isClosing c = false ∧ isSeparator c = false := by
  simp [isMark, and_assoc]

/-- What is no mark is different from each of them. -/
theorem ne_of_isMark_eq_false {c m : Char} (hm : isMark m = true) (h : isMark c = false) :
    c ≠ m := by
  rintro rfl
  rw [hm] at h
  exact Bool.noConfusion h

/-- There are six marks. -/
theorem eq_of_isMark {c : Char} (h : ¬ isMark c = false) :
    c = '(' ∨ c = '[' ∨ c = ')' ∨ c = ']' ∨ c = ',' ∨ c = ';' := by
  simp only [isMark, isOpening, isClosing, isSeparator, Bool.not_eq_false, Bool.or_eq_true,
    beq_iff_eq, or_assoc] at h
  exact h

/-- A blank is no mark. -/
theorem isMark_eq_false_of_isBlank {c : Char} (h : Chars.isBlank c = true) :
    isMark c = false := by
  by_contra hmark
  rcases eq_of_isMark hmark with rfl | rfl | rfl | rfl | rfl | rfl <;> revert h <;> decide

/-- A digit is neither blank nor mark. -/
theorem plain_of_isDigit {c : Char} (h : c.isDigit = true) :
    Chars.isBlank c = false ∧ isMark c = false := by
  have hrange : 48 ≤ c.toNat ∧ c.toNat ≤ 57 := by
    simpa [Char.isDigit, UInt32.le_iff_toNat_le] using h
  constructor
  · simp only [Chars.isBlank, Bool.or_eq_false_iff, Bool.and_eq_false_iff, decide_eq_false_iff_not,
      beq_eq_false_iff_ne]
    omega
  · by_contra hmark
    rcases eq_of_isMark hmark with rfl | rfl | rfl | rfl | rfl | rfl <;> revert h <;> decide

/-- Without brackets, there is nothing to be closed. -/
theorem closed_of_unbracketed {cs : List Char}
    (h : ∀ c ∈ cs, isOpening c = false ∧ isClosing c = false) : Closed cs := by
  refine .of_forall fun c hc => ⟨?_, ?_⟩
  · rintro rfl
    exact Bool.noConfusion (h _ hc).1
  · rintro rfl
    exact Bool.noConfusion (h _ hc).2

/-- Without marks, there is nothing to be closed. -/
theorem closed_of_unmarked {cs : List Char} (h : ∀ c ∈ cs, isMark c = false) : Closed cs := by
  simp only [isMark_eq_false_iff] at h
  exact closed_of_unbracketed fun c hc => ⟨(h c hc).1, (h c hc).2.1⟩

/-- Without marks, there is nothing to be cut. -/
theorem whole_of_unmarked {cs : List Char} (h : ∀ c ∈ cs, isMark c = false) (depth : Nat) :
    Whole depth cs := by
  simp only [isMark_eq_false_iff] at h
  exact .of_forall (fun c hc => ⟨(h c hc).1, (h c hc).2.1⟩) (.inl fun c hc => (h c hc).2.2)

/-- Without marks, there are no parentheses. -/
theorem parens_of_unmarked {cs : List Char} (h : ∀ c ∈ cs, isMark c = false) :
    ∀ c ∈ cs, (c == '(') = false ∧ (c == ')') = false := by
  intro c hc
  rw [beq_eq_false_iff_ne, beq_eq_false_iff_ne]
  exact ⟨ne_of_isMark_eq_false rfl (h c hc), ne_of_isMark_eq_false rfl (h c hc)⟩

/-- Without marks, the parentheses match. -/
theorem matched_of_unmarked {cs : List Char} (h : ∀ c ∈ cs, isMark c = false) : Matched cs := by
  rw [Matched, balanced_iff_leads]
  exact (Leads.iff_of_free (parens_of_unmarked h)).mpr rfl

section Around

variable {depth : Nat} {cs : List Char} (p : Chars.Padding)

/-- Blanks around a text have no parentheses. -/
theorem Closed.around (h : Closed cs) : Closed (p.around cs) := by
  have hbefore := closed_of_unmarked fun c hc => isMark_eq_false_of_isBlank (p.before_blank c hc)
  have hafter := closed_of_unmarked fun c hc => isMark_eq_false_of_isBlank (p.after_blank c hc)
  exact (hbefore.append h).append hafter

/-- Blanks around a text have no separators. -/
theorem Whole.around (h : Whole depth cs) : Whole depth (p.around cs) := by
  have hbefore := whole_of_unmarked
    (fun c hc => isMark_eq_false_of_isBlank (p.before_blank c hc)) depth
  have hafter := whole_of_unmarked
    (fun c hc => isMark_eq_false_of_isBlank (p.after_blank c hc)) depth
  exact (hbefore.append h).append hafter

/-- Blanks around a text make no difference to its parentheses. -/
theorem matched_around : Matched (p.around cs) ↔ Matched cs := by
  have hfree {blanks : List Char} (h : ∀ c ∈ blanks, Chars.isBlank c = true) :
      ∀ c ∈ blanks, (c == '(') = false ∧ (c == ')') = false :=
    parens_of_unmarked fun c hc => isMark_eq_false_of_isBlank (h c hc)
  simp only [Matched, balanced_iff_leads, Chars.Padding.around, Leads.append_iff,
    Leads.iff_of_free (hfree p.before_blank), Leads.iff_of_free (hfree p.after_blank)]
  simp

/-- To remove the blanks makes no difference to the parentheses. -/
theorem matched_trim : Matched (Chars.trim cs) ↔ Matched cs := by
  obtain ⟨p, hp⟩ := Chars.exists_padding cs
  conv_rhs => rw [hp]
  exact (matched_around p).symm

end Around

/-- A text that is read as one type wherever it stands. -/
structure Standalone (cs : List Char) : Prop where
  ne_nil : cs ≠ []
  trimmed : Chars.Trimmed cs
  closed : Closed cs
  whole : ∀ depth, Whole depth cs

/-- A name is read as one type. -/
theorem Ident.standalone (n : Ident) : Standalone n.chars where
  ne_nil := n.ne_nil
  trimmed := n.trimmed
  closed := closed_of_unmarked n.unmarked
  whole := whole_of_unmarked n.unmarked

theorem Ident.open_not_mem (n : Ident) : '(' ∉ n.chars :=
  fun h => Bool.noConfusion (n.unmarked _ h)

theorem Plain.append {a b : List Char} (ha : Plain a) (hb : Plain b) : Plain (a ++ b) :=
  List.forall_mem_append.mpr ⟨ha, hb⟩

/-- So is a plain text. -/
theorem Plain.standalone {cs : List Char} (h : Plain cs) (hne : cs ≠ []) : Standalone cs where
  ne_nil := hne
  trimmed := ⟨fun c hc => (h c (List.mem_of_mem_head? hc)).1,
    fun c hc => (h c (List.mem_of_getLast? hc)).1⟩
  closed := closed_of_unmarked fun c hc => (h c hc).2
  whole := whole_of_unmarked fun c hc => (h c hc).2

/-- A name with something in brackets after it. -/
theorem Standalone.enclose {head inner : List Char} {o c : Char} (hne : head ≠ [])
    (htrim : ∀ c ∈ head.head?, Chars.isBlank c = false) (hhead : ∀ c ∈ head, isMark c = false)
    (ho : isOpening o = true) (hc : isClosing c = true) (hclosed : Closed (o :: inner ++ [c]))
    (hwhole : ∀ depth, Whole (depth + 1) inner) :
    Standalone (head ++ (o :: inner ++ [c])) where
  ne_nil := by simp
  trimmed := by
    constructor
    · intro x hx
      rw [List.head?_append_of_ne_nil _ hne] at hx
      exact htrim x hx
    · intro x hx
      rw [← List.append_assoc, List.getLast?_concat] at hx
      cases hx
      by_contra hblank
      have hmark := isMark_eq_false_of_isBlank (eq_true_of_ne_false hblank)
      simp [isMark, hc] at hmark
  closed := (closed_of_unmarked hhead).append hclosed
  whole depth := (whole_of_unmarked hhead depth).append ((hwhole depth).enclose ho hc)

/-- A class name with its marks is plain. -/
theorem Reference.inner_plain (r : Reference) : Plain (r.ns ++ r.marked) := by
  have hconst : Plain (if r.isConst then "Const".toList else []) := by
    cases r.isConst <;> decide
  have hspelling : Plain r.pointer.spelling.toList := by
    cases r.pointer <;> decide
  exact r.ns_plain.append (hconst.append (r.name_plain.append hspelling))

/-- So a reference is read as one type. -/
theorem Reference.standalone (r : Reference) : Standalone r.text := by
  have hinner : ∀ c ∈ r.ns ++ r.marked, isMark c = false := fun c hc => (r.inner_plain c hc).2
  exact .enclose (by decide) (by decide) (by decide) rfl rfl (closed_of_unmarked hinner).parens
    fun depth => whole_of_unmarked hinner (depth + 1)

/-- So is a function, in whose signature the brackets match. -/
theorem Signature.standalone (s : Signature) : Standalone s.text :=
  .enclose (by decide) (by decide) (by decide) rfl rfl (Closed.of_balanced s.parens).parens
    fun _ => .of_balanced s.parens s.squares

/-- A candidate has no brackets and no semicolon, with its blanks as well. -/
theorem Candidate.text_plain (c : Candidate) :
    ∀ x ∈ c.text, x ≠ ';' ∧ isOpening x = false ∧ isClosing x = false := by
  have hblank (x : Char) (hx : Chars.isBlank x = true) :
      x ≠ ';' ∧ isOpening x = false ∧ isClosing x = false := by
    have hmark := isMark_eq_false_of_isBlank hx
    obtain ⟨ho, hc, -⟩ := isMark_eq_false_iff.mp hmark
    exact ⟨ne_of_isMark_eq_false rfl hmark, ho, hc⟩
  simp only [Candidate.text, Chars.Padding.around, List.forall_mem_append]
  exact ⟨⟨fun x hx => hblank x (c.padding.before_blank x hx), c.plain⟩,
    fun x hx => hblank x (c.padding.after_blank x hx)⟩

namespace Placeholder

variable (p : Placeholder)

/-- An index is plain. -/
theorem indexText_plain : Plain p.indexText := by
  rw [indexText]
  cases p.index with
  | none => decide
  | some i =>
      have hcolon : Plain [':'] := by decide
      have hdigits : Plain (Nat.toDigits 10 i.toNat) := by
        intro c hc
        exact plain_of_isDigit (Nat.isDigit_of_mem_toDigits (by simp) (by simp) hc)
      exact hcolon.append hdigits

/-- The list of candidates has no brackets. -/
theorem inner_plain (cs : List Candidate) :
    ∀ c ∈ List.intercalate [';'] (cs.map Candidate.text),
      isOpening c = false ∧ isClosing c = false := by
  refine Chars.forall_mem_intercalate (by decide) ?_
  intro piece hpiece c hc
  obtain ⟨candidate, -, rfl⟩ := List.mem_map.mp hpiece
  exact (candidate.text_plain c hc).2

/-- A placeholder is read as one type, with or without candidates. -/
theorem standalone : Standalone p.text := by
  obtain ⟨head, hhead⟩ : ∃ head, head = "TEMPLATE".toList ++ p.indexText := ⟨_, rfl⟩
  have hne : head ≠ [] := by
    rw [hhead]
    exact List.append_ne_nil_of_left_ne_nil (by decide) _
  have hplain : Plain head := by
    have hkeyword : Plain "TEMPLATE".toList := by decide
    rw [hhead]
    exact hkeyword.append p.indexText_plain
  have htext : p.text = head ++ p.candidatesText := by
    rw [hhead]
    exact (List.append_assoc _ _ _).symm
  rw [htext]
  cases hcs : p.candidates with
  | none => simpa [candidatesText, hcs] using hplain.standalone hne
  | some cs =>
      have hinner := inner_plain cs
      simp only [candidatesText, hcs, Option.elim_some]
      exact .enclose hne (fun c hc => (hplain c (List.mem_of_mem_head? hc)).1)
        (fun c hc => (hplain c hc).2) rfl rfl (closed_of_unbracketed hinner).squares
        fun depth => .of_forall hinner (.inr (Nat.succ_ne_zero depth))

end Placeholder

namespace Separator

variable (sep : Separator)

/-- Both separators separate arguments. -/
theorem isSeparator_char : isSeparator sep.char = true := by cases sep <;> rfl

/-- A separator is no parenthesis. -/
theorem closed : Closed [sep.char] := .of_forall (by cases sep <;> decide)

/-- In brackets, a separator does not cut. -/
theorem whole (depth : Nat) : Whole (depth + 1) [sep.char] :=
  .of_forall (by cases sep <;> decide) (.inr (Nat.succ_ne_zero depth))

end Separator

mutual

/-- Every type is read as one, at any depth. -/
theorem Form.standalone : (t : Form) → Standalone t.text
  | .name n => n.standalone
  | .reference r => r.standalone
  | .placeholder p => p.standalone
  | .function s => s.standalone
  | .composite base args =>
      .enclose base.ne_nil base.trimmed.first base.unmarked rfl rfl args.closed.parens args.whole

/-- The text of the arguments closes its parentheses. -/
theorem Args.closed : (args : Args) → Closed args.text
  | .last padding arg => .around padding arg.standalone.closed
  | .cons padding arg sep rest =>
      (Closed.around padding arg.standalone.closed).append (sep.closed.append rest.closed)

/-- In brackets, the text of the arguments is not cut. -/
theorem Args.whole : (args : Args) → (depth : Nat) → Whole (depth + 1) args.text
  | .last padding arg, depth => .around padding (arg.standalone.whole (depth + 1))
  | .cons padding arg sep rest, depth =>
      (Whole.around padding (arg.standalone.whole (depth + 1))).append
        ((sep.whole depth).append (rest.whole depth))

end

end TypeExpr

end ClassSchema
