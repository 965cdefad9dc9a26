import Mathlib.Data.List.Infix
import ClassSchema.TypeExpr.Parser

/-! # Brackets in type expressions

A text whose brackets match leaves the depth of a scan as it was. `Closed` says so of the check of
parentheses, and `Whole` of the search for separators, which finds none in the text. -/

namespace ClassSchema.TypeExpr

/-- No closing bracket comes before its opening one, and there are as many of both. -/
structure Balanced (opens closes : Char → Bool) (cs : List Char) : Prop where
  closes_le : ∀ start ∈ cs.inits, start.countP closes ≤ start.countP opens
  total : cs.countP opens = cs.countP closes

/-- What has at most one of two properties is counted once. -/
theorem countP_or {p q : Char → Bool} (h : ∀ c, p c = true → q c = false) (cs : List Char) :
    cs.countP (fun c => p c || q c) = cs.countP p + cs.countP q := by
  induction cs with
  | nil => rfl
  | cons c cs ih =>
      cases hp : p c with
      | false => simp [List.countP_cons, hp, ih, Nat.add_assoc]
      | true => simp [hp, h c hp, ih, Nat.add_right_comm]

/-- Brackets of two kinds may be counted together; they need not be nested in each other. -/
theorem Balanced.both {cs : List Char} (hp : Balanced (· == '(') (· == ')') cs)
    (hs : Balanced (· == '[') (· == ']') cs) : Balanced isOpening isClosing cs := by
  have hopen (xs : List Char) : xs.countP isOpening = _ := countP_or (q := (· == '[')) (by simp) xs
  have hclose (xs : List Char) : xs.countP isClosing = _ := countP_or (q := (· == ']')) (by simp) xs
  constructor
  · intro start hstart
    rw [hopen, hclose]
    exact Nat.add_le_add (hp.closes_le start hstart) (hs.closes_le start hstart)
  · rw [hopen, hclose, hp.total, hs.total]

/-- The text leads from `d` open brackets to `d'`, without closing one that is not open. -/
structure Leads (opens closes : Char → Bool) (d d' : Nat) (cs : List Char) : Prop where
  closes_le : ∀ start, start <+: cs → start.countP closes ≤ d + start.countP opens
  total : d + cs.countP opens = d' + cs.countP closes

namespace Leads

variable {opens closes : Char → Bool} {d d' k : Nat} {c : Char} {a b cs : List Char}

/-- Brackets that match leave the depth as it was. -/
theorem of_balanced (h : Balanced opens closes cs) : Leads opens closes d d cs := by
  constructor
  · intro start hstart
    have hle := h.closes_le start ((List.mem_inits start cs).mpr hstart)
    omega
  · rw [h.total]

/-- Nothing leaves the depth as it was. -/
theorem eq_of_nil (h : Leads opens closes d d' []) : d = d' := by simpa using h.total

/-- A bracket that is closed was open. -/
theorem pos_of_closing (h : Leads opens closes d d' (c :: cs)) (ho : opens c = false)
    (hc : closes c = true) : 0 < d := by
  have hle := h.closes_le [c] (by simp)
  simp only [List.countP_singleton, ho, hc] at hle
  exact hle

/-- The rest of a text leads on from the depth behind the first character. -/
theorem tail (h : Leads opens closes d d' (c :: cs))
    (hk : d + [c].countP opens = k + [c].countP closes) : Leads opens closes k d' cs := by
  constructor
  · intro start hstart
    have hle := h.closes_le (c :: start) ((List.prefix_cons_inj c).mpr hstart)
    simp only [List.countP_cons, List.countP_nil] at hle hk
    omega
  · have htotal := h.total
    simp only [List.countP_cons, List.countP_nil] at htotal hk
    omega

/-- Two texts lead through the depth between them. -/
theorem append (ha : Leads opens closes d k a) (hb : Leads opens closes k d' b) :
    Leads opens closes d d' (a ++ b) := by
  constructor
  · intro start hstart
    rcases List.prefix_or_prefix_of_prefix hstart (List.prefix_append a b) with h | ⟨rest, rfl⟩
    · exact ha.closes_le start h
    · have hle := hb.closes_le rest ((List.prefix_append_right_inj a).mp hstart)
      have htotal := ha.total
      rw [List.countP_append, List.countP_append]
      omega
  · have hatotal := ha.total
    have hbtotal := hb.total
    rw [List.countP_append, List.countP_append]
    omega

/-- A text may be divided anywhere. -/
theorem append_iff : Leads opens closes d d' (a ++ b) ↔
    ∃ k, Leads opens closes d k a ∧ Leads opens closes k d' b := by
  constructor
  · intro h
    have hle := h.closes_le a (List.prefix_append a b)
    have htotal := h.total
    rw [List.countP_append, List.countP_append] at htotal
    refine ⟨d + a.countP opens - a.countP closes, ⟨?_, by omega⟩, ⟨?_, by omega⟩⟩
    · intro start hstart
      exact h.closes_le start (hstart.trans (List.prefix_append a b))
    · intro start hstart
      have hle' := h.closes_le (a ++ start) ((List.prefix_append_right_inj a).mpr hstart)
      rw [List.countP_append, List.countP_append] at hle'
      omega
  · rintro ⟨k, ha, hb⟩
    exact ha.append hb

/-- A text without brackets leaves the depth as it was, and no other. -/
theorem iff_of_free (h : ∀ c ∈ cs, opens c = false ∧ closes c = false) :
    Leads opens closes d d' cs ↔ d = d' := by
  have hzero {start : List Char} (hstart : start <+: cs) :
      start.countP opens = 0 ∧ start.countP closes = 0 := by
    rw [List.countP_eq_zero, List.countP_eq_zero]
    exact ⟨fun c hc => by simp [(h c (hstart.subset hc)).1],
      fun c hc => by simp [(h c (hstart.subset hc)).2]⟩
  have htotal := hzero (List.prefix_refl cs)
  constructor
  · intro hleads
    have heq := hleads.total
    omega
  · rintro rfl
    refine ⟨fun start hstart => ?_, by omega⟩
    have hstart := hzero hstart
    omega

end Leads

/-- Brackets match if the text leads from no open bracket to none. -/
theorem balanced_iff_leads {opens closes : Char → Bool} {cs : List Char} :
    Balanced opens closes cs ↔ Leads opens closes 0 0 cs := by
  constructor
  · exact Leads.of_balanced
  · intro h
    refine ⟨fun start hstart => ?_, by simpa using h.total⟩
    simpa using h.closes_le start ((List.mem_inits start cs).mp hstart)

/-- The parentheses in the text match. -/
abbrev Matched (cs : List Char) : Prop := Balanced (· == '(') (· == ')') cs

section Matched

variable {a b cs : List Char}

/-- A matched text in front makes no difference. -/
theorem Matched.append_iff (ha : Matched a) : Matched (a ++ b) ↔ Matched b := by
  rw [Matched, Matched, balanced_iff_leads, balanced_iff_leads, Leads.append_iff]
  constructor
  · rintro ⟨k, hk, hb⟩
    have htotal := hk.total
    have hatotal := ha.total
    obtain rfl : k = 0 := by omega
    exact hb
  · intro hb
    exact ⟨0, .of_balanced ha, hb⟩

/-- The start of a matched text is matched if it closes all that it opens. -/
theorem Matched.of_prefix (h : Matched cs) (ha : a <+: cs)
    (heq : a.countP (· == '(') = a.countP (· == ')')) : Matched a := by
  refine ⟨fun start hstart => h.closes_le start ?_, heq⟩
  rw [List.mem_inits] at hstart ⊢
  exact hstart.trans ha

end Matched

/-! ## The check of parentheses -/

/-- An opening parenthesis is one more to be closed. -/
@[simp] theorem checkBalance_open (depth : Nat) (cs : List Char) :
    checkBalance depth ('(' :: cs) = checkBalance (depth + 1) cs := by
  cases depth <;> simp [checkBalance]

/-- A closing parenthesis is one less to be closed. -/
@[simp] theorem checkBalance_close (depth : Nat) (cs : List Char) :
    checkBalance (depth + 1) (')' :: cs) = checkBalance depth cs := by
  simp [checkBalance]

theorem checkBalance_other {c : Char} (depth : Nat) (cs : List Char) (ho : c ≠ '(')
    (hc : c ≠ ')') : checkBalance depth (c :: cs) = checkBalance depth cs := by
  cases depth <;> simp [checkBalance, ho, hc]

/-- The check goes on at the depth to which a text leads. -/
theorem Leads.checkBalance_append {d d' : Nat} {cs : List Char}
    (h : Leads (· == '(') (· == ')') d d' cs) (rest : List Char) :
    checkBalance d (cs ++ rest) = checkBalance d' rest := by
  induction cs generalizing d with
  | nil => rw [h.eq_of_nil, List.nil_append]
  | cons c cs ih =>
      rw [List.cons_append]
      by_cases ho : c = '('
      · subst ho
        rw [checkBalance_open]
        exact ih (h.tail (by simp))
      · by_cases hc : c = ')'
        · subst hc
          obtain ⟨k, rfl⟩ := Nat.exists_eq_add_of_lt (h.pos_of_closing (by simp) (by simp))
          rw [Nat.zero_add, checkBalance_close]
          exact ih (h.tail (by simp))
        · rw [checkBalance_other d _ ho hc]
          exact ih (h.tail (by simp [ho, hc]))

/-- What passes the check closes all that was open before it. -/
theorem leads_of_checkBalance {d : Nat} {cs : List Char} (h : checkBalance d cs = .ok ()) :
    Leads (· == '(') (· == ')') d 0 cs := by
  induction cs generalizing d with
  | nil =>
      cases d with
      | zero => exact .of_balanced ⟨by simp, rfl⟩
      | succ d => cases h
  | cons c cs ih =>
      have hfirst (k : Nat) (hle : [c].countP (· == ')') ≤ d + [c].countP (· == '('))
          (hk : d + [c].countP (· == '(') = k + [c].countP (· == ')')) :
          Leads (· == '(') (· == ')') d k [c] := by
        refine ⟨fun start hstart => ?_, hk⟩
        rcases List.prefix_cons_iff.mp hstart with rfl | ⟨rest, rfl, hrest⟩
        · simp
        · rw [List.prefix_nil.mp hrest]
          exact hle
      by_cases ho : c = '('
      · subst ho
        rw [checkBalance_open] at h
        exact (hfirst (d + 1) (by simp) (by simp)).append (ih h)
      · by_cases hc : c = ')'
        · subst hc
          cases d with
          | zero => simp [checkBalance] at h
          | succ d =>
              rw [checkBalance_close] at h
              exact (hfirst d (by simp) (by simp)).append (ih h)
        · rw [checkBalance_other d cs ho hc] at h
          exact (hfirst d (by simp [ho, hc]) (by simp [ho, hc])).append (ih h)

/-- The check of parentheses goes on behind the text as if it were not there. -/
def Closed (cs : List Char) : Prop :=
  ∀ depth rest, checkBalance depth (cs ++ rest) = checkBalance depth rest

namespace Closed

variable {a b cs : List Char}

theorem of_balanced (h : Balanced (· == '(') (· == ')') cs) : Closed cs :=
  fun _ rest => (Leads.of_balanced h).checkBalance_append rest

theorem append (ha : Closed a) (hb : Closed b) : Closed (a ++ b) := by
  intro depth rest
  rw [List.append_assoc, ha, hb]

/-- A closed text may be put in parentheses. -/
theorem parens (h : Closed cs) : Closed ('(' :: cs ++ [')']) := by
  intro depth rest
  rw [List.append_assoc, List.cons_append, checkBalance_open, h, List.singleton_append,
    checkBalance_close]

/-- Square brackets are not looked at. -/
theorem squares (h : Closed cs) : Closed ('[' :: cs ++ [']']) := by
  intro depth rest
  rw [List.append_assoc, List.cons_append, checkBalance_other _ _ (by decide) (by decide), h,
    List.singleton_append, checkBalance_other _ _ (by decide) (by decide)]

/-- A text without parentheses is closed. -/
theorem of_forall (h : ∀ c ∈ cs, c ≠ '(' ∧ c ≠ ')') : Closed cs := by
  intro depth rest
  induction cs with
  | nil => rfl
  | cons c cs ih =>
      rw [List.forall_mem_cons] at h
      rw [List.cons_append, checkBalance_other depth _ h.1.1 h.1.2, ih h.2]

/-- A closed text passes the check. -/
theorem checkBalance_eq_ok (h : Closed cs) : checkBalance 0 cs = .ok () := by
  have hnil := h 0 []
  rwa [List.append_nil] at hnil

end Closed

/-- A parenthesis too much or one too few is all that can be wrong. -/
theorem flaw_of_checkBalance {d : Nat} {cs : List Char} {flaw : Flaw}
    (h : checkBalance d cs = .error flaw) : flaw = .unexpectedClose ∨ flaw = .unbalanced := by
  induction cs generalizing d with
  | nil =>
      cases d with
      | zero => cases h
      | succ d => exact .inr (Except.error.inj h).symm
  | cons c cs ih =>
      by_cases ho : c = '('
      · subst ho
        rw [checkBalance_open] at h
        exact ih h
      · by_cases hc : c = ')'
        · subst hc
          cases d with
          | zero =>
              simp only [checkBalance] at h
              exact .inl (Except.error.inj h).symm
          | succ d =>
              rw [checkBalance_close] at h
              exact ih h
        · rw [checkBalance_other d cs ho hc] at h
          exact ih h

/-- The check passes if the parentheses match. -/
theorem checkBalance_eq_ok_iff {cs : List Char} : checkBalance 0 cs = .ok () ↔ Matched cs :=
  ⟨fun h => balanced_iff_leads.mpr (leads_of_checkBalance h),
    fun h => (Closed.of_balanced h).checkBalance_eq_ok⟩

/-! ## The search for separators -/

section SplitTop

variable {c : Char}

/-- A closing bracket does not open. -/
theorem isOpening_eq_false (h : isClosing c = true) : isOpening c = false := by
  simp only [isClosing, Bool.or_eq_true, beq_iff_eq] at h
  rcases h with rfl | rfl <;> rfl

/-- An opening bracket does not close. -/
theorem isClosing_eq_false (h : isOpening c = true) : isClosing c = false := by
  by_contra hc
  simp [isOpening_eq_false (eq_true_of_ne_false hc)] at h

/-- A separator is no bracket. -/
theorem not_bracket_of_isSeparator (h : isSeparator c = true) :
    isOpening c = false ∧ isClosing c = false := by
  simp only [isSeparator, Bool.or_eq_true, beq_iff_eq] at h
  rcases h with rfl | rfl <;> exact ⟨rfl, rfl⟩

variable (depth : Nat) (cs : List Char)

/-- An opening bracket goes with the piece it stands in. -/
theorem splitTop_open (h : isOpening c = true) :
    splitTop depth (c :: cs) = (splitTop (depth + 1) cs).map (consHead c) := by
  cases depth <;> simp [splitTop, h]

/-- So does the bracket that closes it. -/
theorem splitTop_close (h : isClosing c = true) :
    splitTop (depth + 1) (c :: cs) = (splitTop depth cs).map (consHead c) := by
  simp [splitTop, h, isOpening_eq_false h]

/-- So does any other character, unless it separates outside of all brackets. -/
theorem splitTop_other (ho : isOpening c = false) (hc : isClosing c = false)
    (hs : isSeparator c = false ∨ depth ≠ 0) :
    splitTop depth (c :: cs) = (splitTop depth cs).map (consHead c) := by
  cases depth with
  | zero => simp [splitTop, ho, hc, hs.resolve_right (fun h => h rfl)]
  | succ depth => simp [splitTop, ho, hc]

/-- A separator outside of all brackets starts a piece. -/
theorem splitTop_separator (h : isSeparator c = true) :
    splitTop 0 (c :: cs) = (splitTop 0 cs).map ([] :: ·) := by
  simp [splitTop, h, not_bracket_of_isSeparator h]

variable {depth}

/-- There are no pieces if a bracket is closed that is not open. -/
theorem splitTop_cons_eq_none (h : depth + [c].countP isOpening < [c].countP isClosing) :
    splitTop depth (c :: cs) = none := by
  have hc : isClosing c = true := by
    by_contra hc
    simp [hc] at h
  obtain rfl : depth = 0 := by simpa [hc, isOpening_eq_false hc] using h
  simp [splitTop, hc, isOpening_eq_false hc]

/-- A character that closes nothing too much goes to the first piece of what follows it, or it ends
an empty one. -/
theorem splitTop_cons {depth' : Nat}
    (h : depth + [c].countP isOpening = depth' + [c].countP isClosing) :
    splitTop depth (c :: cs) = (splitTop depth' cs).map
      (if isSeparator c = true ∧ depth = 0 then ([] :: ·) else consHead c) := by
  by_cases hs : isSeparator c = true ∧ depth = 0
  · obtain ⟨hs, rfl⟩ := hs
    obtain rfl : 0 = depth' := by simpa [not_bracket_of_isSeparator hs] using h
    rw [if_pos ⟨hs, rfl⟩, splitTop_separator cs hs]
  · rw [if_neg hs]
    by_cases ho : isOpening c = true
    · obtain rfl : depth + 1 = depth' := by simpa [ho, isClosing_eq_false ho] using h
      exact splitTop_open depth cs ho
    · rw [Bool.not_eq_true] at ho
      by_cases hc : isClosing c = true
      · obtain rfl : depth = depth' + 1 := by simpa [ho, hc] using h
        exact splitTop_close depth' cs hc
      · rw [Bool.not_eq_true] at hc
        obtain rfl : depth = depth' := by simpa [ho, hc] using h
        rw [not_and_or, Bool.not_eq_true] at hs
        exact splitTop_other depth cs ho hc hs

variable {cs}

/-- If there are pieces, the first character goes with them as in `splitTop_cons`. -/
theorem splitTop_cons_eq_some {pieces : List (List Char)}
    (h : splitTop depth (c :: cs) = some pieces) :
    ∃ depth' rest, depth + [c].countP isOpening = depth' + [c].countP isClosing ∧
      splitTop depth' cs = some rest ∧
      pieces = if isSeparator c = true ∧ depth = 0 then [] :: rest else consHead c rest := by
  by_cases hle : [c].countP isClosing ≤ depth + [c].countP isOpening
  · obtain ⟨depth', hstep⟩ := Nat.exists_eq_add_of_le' hle
    rw [splitTop_cons cs hstep, Option.map_eq_some_iff] at h
    obtain ⟨rest, hrest, rfl⟩ := h
    refine ⟨depth', rest, hstep, hrest, ?_⟩
    split <;> rfl
  · rw [splitTop_cons_eq_none cs (Nat.lt_of_not_le hle)] at h
    cases h

end SplitTop

/-- There is at least one piece, and no piece is longer than the text. -/
theorem pieces_of_splitTop {depth : Nat} {cs : List Char} {pieces : List (List Char)}
    (h : splitTop depth cs = some pieces) :
    pieces ≠ [] ∧ ∀ piece ∈ pieces, piece.length ≤ cs.length := by
  induction cs generalizing depth pieces with
  | nil =>
      cases h
      simp
  | cons c cs ih =>
      obtain ⟨depth', rest, -, hrest, rfl⟩ := splitTop_cons_eq_some h
      obtain ⟨hne, hlength⟩ := ih hrest
      obtain ⟨first, rest, rfl⟩ := List.exists_cons_of_ne_nil hne
      rw [List.forall_mem_cons] at hlength
      split
      · refine ⟨List.cons_ne_nil _ _, ?_⟩
        rw [List.forall_mem_cons, List.forall_mem_cons]
        exact ⟨Nat.zero_le _, Nat.le_succ_of_le hlength.1,
          fun piece hp => Nat.le_succ_of_le (hlength.2 piece hp)⟩
      · refine ⟨List.cons_ne_nil _ _, ?_⟩
        rw [consHead, List.forall_mem_cons]
        exact ⟨Nat.succ_le_succ hlength.1, fun piece hp => Nat.le_succ_of_le (hlength.2 piece hp)⟩

/-- Puts a text in front of the first piece. -/
def glue (cs : List Char) (pieces : List (List Char)) : List (List Char) := cs.foldr consHead pieces

/-- Nothing is put in front. -/
@[simp] theorem glue_nil : glue [] = id := rfl

theorem consHead_comp_glue (c : Char) (cs : List Char) :
    consHead c ∘ glue cs = glue (c :: cs) := rfl

/-- What is put in front twice may be put in front at once. -/
theorem glue_comp_glue (a b : List Char) : glue a ∘ glue b = glue (a ++ b) := by
  funext pieces
  simp [glue]

/-- Only the first piece changes. -/
theorem glue_cons (cs piece : List Char) (pieces : List (List Char)) :
    glue cs (piece :: pieces) = (cs ++ piece) :: pieces := by
  induction cs with
  | nil => rfl
  | cons c cs ih =>
      rw [← consHead_comp_glue, Function.comp_apply, ih]
      rfl

/-- Below an open bracket, a text goes with the piece it stands in. -/
theorem Leads.splitTop_append {d d' : Nat} {cs : List Char}
    (h : Leads isOpening isClosing d d' cs) (rest : List Char) :
    splitTop (d + 1) (cs ++ rest) = (splitTop (d' + 1) rest).map (glue cs) := by
  induction cs generalizing d with
  | nil => simp [h.eq_of_nil]
  | cons c cs ih =>
      rw [List.cons_append, ← consHead_comp_glue, ← Option.map_map]
      cases ho : isOpening c with
      | true =>
          rw [splitTop_open _ _ ho, ih (h.tail (by simp [ho, isClosing_eq_false ho]))]
      | false =>
          cases hc : isClosing c with
          | true =>
              obtain ⟨k, rfl⟩ := Nat.exists_eq_add_of_lt (h.pos_of_closing ho hc)
              rw [Nat.zero_add, splitTop_close _ _ hc, ih (h.tail (by simp [ho, hc]))]
          | false =>
              rw [splitTop_other _ _ ho hc (.inr (Nat.succ_ne_zero d)),
                ih (h.tail (by simp [ho, hc]))]

/-- At `depth` open brackets the text belongs to one piece. -/
def Whole (depth : Nat) (cs : List Char) : Prop :=
  ∀ rest, splitTop depth (cs ++ rest) = (splitTop depth rest).map (glue cs)

namespace Whole

variable {depth : Nat} {a b cs : List Char}

/-- Texts without cuts may be put together. -/
theorem append (ha : Whole depth a) (hb : Whole depth b) : Whole depth (a ++ b) := by
  intro rest
  rw [List.append_assoc, ha, hb, Option.map_map, glue_comp_glue]

/-- In brackets, a text need only be without cuts one level deeper. -/
theorem enclose {o c : Char} (ho : isOpening o = true) (hc : isClosing c = true)
    (h : Whole (depth + 1) cs) : Whole depth (o :: cs ++ [c]) := by
  intro rest
  rw [List.append_assoc, List.cons_append, splitTop_open _ _ ho, h, List.singleton_append,
    splitTop_close _ _ hc, Option.map_map, Option.map_map]
  rw [← glue_comp_glue (o :: cs) [c], ← consHead_comp_glue, ← consHead_comp_glue c []]
  rfl

/-- A text without brackets is not cut if it has no separators or stands in brackets. -/
theorem of_forall (h : ∀ c ∈ cs, isOpening c = false ∧ isClosing c = false)
    (hs : (∀ c ∈ cs, isSeparator c = false) ∨ depth ≠ 0) : Whole depth cs := by
  intro rest
  induction cs with
  | nil => simp
  | cons c cs ih =>
      rw [List.forall_mem_cons] at h hs
      rw [List.cons_append, splitTop_other _ _ h.1.1 h.1.2 (hs.imp_left And.left),
        ih h.2 (hs.imp_left And.right), Option.map_map, consHead_comp_glue]

/-- In brackets, a text is not cut if its own brackets of both kinds match. -/
theorem of_balanced (hp : Balanced (· == '(') (· == ')') cs)
    (hs : Balanced (· == '[') (· == ']') cs) : Whole (depth + 1) cs :=
  fun rest => (Leads.of_balanced (hp.both hs)).splitTop_append rest

/-- A text without cuts is a single piece. -/
theorem splitTop_eq (h : Whole 0 cs) : splitTop 0 cs = some [cs] := by
  have hnil := h []
  rw [List.append_nil, splitTop, Option.map_some, glue_cons, List.append_nil] at hnil
  exact hnil

/-- Before a separator, it is the first piece. -/
theorem splitTop_append {c : Char} (h : Whole 0 cs) (hc : isSeparator c = true)
    (rest : List Char) : splitTop 0 (cs ++ c :: rest) = (splitTop 0 rest).map (cs :: ·) := by
  rw [h, splitTop_separator _ hc, Option.map_map]
  congr 1
  funext pieces
  simp [glue_cons]

end Whole

end ClassSchema.TypeExpr
