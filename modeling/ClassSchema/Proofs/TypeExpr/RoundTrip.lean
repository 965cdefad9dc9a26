import ClassSchema.Proofs.TypeExpr.Form

/-! # Reading written types

Each kind of text falls apart into what it was put together from, and the kinds are told apart by
how their texts start. So `parse` reads the text of a written type as that type, except that it
refuses a set of class references. -/

namespace ClassSchema.TypeExpr

/-! ## Placeholders -/

/-- Candidates are read back from the text between their brackets. -/
theorem candidateList_intercalate (cs : List Candidate) :
    candidateList (List.intercalate [';'] (cs.map Candidate.text))
      = cs.map fun c => String.ofList c.chars := by
  cases cs with
  | nil => rfl
  | cons c cs =>
      have hsplit : Chars.split (· == ';') (List.intercalate [';'] ((c :: cs).map Candidate.text))
          = (c :: cs).map Candidate.text := by
        refine Chars.split_intercalate rfl (by simp) ?_
        intro piece hpiece x hx
        obtain ⟨candidate, -, rfl⟩ := List.mem_map.mp hpiece
        simpa using (candidate.text_plain x hx).1
      have htrim : ((c :: cs).map Candidate.text).map Chars.trim
          = (c :: cs).map Candidate.chars := by
        rw [List.map_map]
        exact List.map_congr_left fun candidate _ => candidate.trimmed.trim_around _
      have hfilter : ((c :: cs).map Candidate.chars).filter (!·.isEmpty)
          = (c :: cs).map Candidate.chars := by
        rw [List.filter_eq_self]
        intro piece hpiece
        obtain ⟨candidate, -, rfl⟩ := List.mem_map.mp hpiece
        simp [candidate.ne_nil]
      rw [candidateList, hsplit, htrim, hfilter, List.map_map]
      rfl

/-- The candidates of a placeholder are read, also if there are none. -/
theorem parseCandidates_candidatesText (index : Option Nat) (source : List Char)
    (p : Placeholder) : parseCandidates index source p.candidatesText
      = .ok (.placeholder index p.candidateNames (String.ofList source)) := by
  cases hcs : p.candidates with
  | none => simp [Placeholder.candidatesText, Placeholder.candidateNames, hcs, parseCandidates]
  | some cs =>
      simp only [Placeholder.candidatesText, Placeholder.candidateNames, hcs, Option.elim_some,
        Option.getD_some, ← candidateList_intercalate]
      generalize List.intercalate [';'] (cs.map Candidate.text) = inner
      have hstart : Chars.stripStart? ['['] ('[' :: inner ++ [']']) = some (inner ++ [']']) :=
        Chars.stripStart?_append ['['] (inner ++ [']'])
      rw [parseCandidates, if_neg (by simp), hstart]
      simp only [Chars.stripEnd?_append]

/-- An index is read back from its digits. -/
theorem index?_toDigits (i : UInt32) : index? (Nat.toDigits 10 i.toNat) = some i.toNat := by
  have hvalue := Nat.ofDigitChars_toDigits (b := 10) (n := i.toNat) (by simp) (by simp)
  have hlt : i.toNat < Nat.pow 2 32 := i.toNat_lt
  rw [Nat.ofDigitChars] at hvalue
  simp only [index?, hvalue]
  simp [Nat.toDigits_ne_nil, hlt]

/-- The digits of an index end where the candidates begin. -/
theorem span_isDigit (i : UInt32) (p : Placeholder) :
    (Nat.toDigits 10 i.toNat ++ p.candidatesText).takeWhile Char.isDigit
        = Nat.toDigits 10 i.toNat
      ∧ (Nat.toDigits 10 i.toNat ++ p.candidatesText).dropWhile Char.isDigit
        = p.candidatesText := by
  have hdigits : ∀ c ∈ Nat.toDigits 10 i.toNat, c.isDigit = true :=
    fun c hc => Nat.isDigit_of_mem_toDigits (by simp) (by simp) hc
  rw [List.takeWhile_append_of_pos hdigits, List.dropWhile_append_of_pos hdigits]
  cases hcs : p.candidates with
  | none => simp [Placeholder.candidatesText, hcs]
  | some cs => simp [Placeholder.candidatesText, hcs]

/-- A placeholder is read back from what stands after its keyword. -/
theorem parsePlaceholder_text (source : List Char) (p : Placeholder) :
    parsePlaceholder source (p.indexText ++ p.candidatesText)
      = .ok (.placeholder (p.index.map UInt32.toNat) p.candidateNames (String.ofList source)) := by
  cases hi : p.index with
  | none =>
      have hskip : parsePlaceholder source p.candidatesText
          = parseCandidates none source p.candidatesText := by
        cases hcs : p.candidates <;> simp [Placeholder.candidatesText, hcs, parsePlaceholder]
      simp only [Placeholder.indexText, hi, Option.elim_none, List.nil_append, hskip,
        parseCandidates_candidatesText, Option.map_none]
  | some i =>
      obtain ⟨htake, hdrop⟩ := span_isDigit i p
      simp only [Placeholder.indexText, hi, Option.elim_some, List.cons_append, parsePlaceholder,
        htake, hdrop, index?_toDigits, parseCandidates_candidatesText, Option.map_some]

/-! ## Class references -/

namespace Reference

variable (r : Reference)

theorem marked_colon : ':' ∉ r.marked := by
  have hconst : ':' ∉ if r.isConst then "Const".toList else [] := by
    cases r.isConst <;> decide
  have hspelling : ':' ∉ r.pointer.spelling.toList := by
    cases r.pointer <;> decide
  simp only [marked, List.mem_append, not_or]
  exact ⟨hconst, r.name_colon, hspelling⟩

/-- The namespace of a reference is what was written as its namespace. -/
theorem splitNamespace_inner : splitNamespace (r.ns ++ r.marked) = (r.ns, r.marked) := by
  rcases r.ns_ends with hns | ⟨start, hns⟩
  · have hcut : Chars.cutLast? [':', ':'] r.marked = none :=
      Chars.cutLast?_eq_none [':'] r.marked_colon
    rw [splitNamespace, hns, List.nil_append, hcut]
  · have hcut : Chars.cutLast? [':', ':'] (start ++ [':', ':'] ++ r.marked)
        = some (start, r.marked) := Chars.cutLast?_append [':'] start r.marked_colon
    have hends : start ++ [':', ':'] = r.ns := hns
    rw [hends] at hcut
    rw [splitNamespace, hcut]
    simp only [hends]

/-- `Const` is taken off a name where it was written, and only there. -/
theorem takeConst_marked :
    takeConst r.marked = (r.isConst, r.name ++ r.pointer.spelling.toList) := by
  cases hconst : r.isConst with
  | true =>
      obtain ⟨c, rest, hname, hupper⟩ := r.upper_of_const hconst
      rw [marked, hconst, if_pos rfl, takeConst, Chars.stripStart?_append, hname]
      simp [hupper]
  | false =>
      rw [marked, hconst, if_neg (by simp), List.nil_append, takeConst]
      split
      · rename_i c rest hstrip
        have hupper := r.not_const hconst c rest (Chars.stripStart?_eq_some.mp hstrip)
        rw [hupper]
        rfl
      · rfl

/-- So is the mark of a pointer. -/
theorem takePointer_name :
    takePointer (r.name ++ r.pointer.spelling.toList) = (r.pointer, r.name) := by
  have hmark : "CPtr".toList = ['C'] ++ "Ptr".toList := by decide
  obtain ⟨c, rest, hname⟩ := List.exists_cons_of_ne_nil r.name_ne_nil
  cases hp : r.pointer with
  | absent =>
      have hptr (start : List Char) (h : r.name = start ++ "Ptr".toList) : start = [] := by
        rw [r.not_pointer hp ⟨start, h.symm⟩] at h
        exact List.self_eq_append_left.mp h
      rw [Pointer.spelling, String.toList_empty, List.append_nil, takePointer]
      split
      · rename_i d start hstrip
        rw [Chars.stripEnd?_eq_some, hmark, ← List.append_assoc] at hstrip
        exact absurd (hptr _ hstrip) (by simp)
      · split
        · rename_i d start hstrip
          exact absurd (hptr _ (Chars.stripEnd?_eq_some.mp hstrip)) (by simp)
        · rfl
  | plain =>
      rw [Pointer.spelling, takePointer, Chars.stripEnd?_append "Ptr".toList r.name]
      split
      · rename_i d start hstrip
        rw [Chars.stripEnd?_eq_some, hmark, ← List.append_assoc] at hstrip
        have hC : r.name = d :: start ++ ['C'] := List.append_cancel_right hstrip
        rw [r.not_constPointer hp ⟨_, hC.symm⟩] at hC
        exact absurd (List.self_eq_append_left.mp hC) (by simp)
      · rw [hname]
  | const =>
      rw [Pointer.spelling, takePointer, Chars.stripEnd?_append "CPtr".toList r.name, hname]

/-- A class reference is read back from what stands in its brackets. -/
theorem parseReference_text (source : List Char) :
    parseReference source (r.ns ++ r.marked ++ [')'])
      = .ok (.reference (String.ofList (r.ns ++ r.name)) r.isConst r.pointer
          (String.ofList source)) := by
  have hne : r.ns ++ r.marked ≠ [] :=
    List.append_ne_nil_of_right_ne_nil _ (List.append_ne_nil_of_right_ne_nil _
      (List.append_ne_nil_of_left_ne_nil r.name_ne_nil _))
  have htrim := (r.inner_plain.standalone hne).trimmed.trim_eq_self
  have hopen : '(' ∉ r.ns ++ r.marked := fun h => Bool.noConfusion (r.inner_plain _ h).2
  have hclose : ')' ∉ r.ns ++ r.marked := fun h => Bool.noConfusion (r.inner_plain _ h).2
  have hname : ((r.ns ++ r.marked).isEmpty || (r.ns ++ r.marked).contains '('
      || (r.ns ++ r.marked).contains ')') = false := by
    simp only [Bool.or_eq_false_iff, List.isEmpty_eq_false_iff, List.contains_eq_mem,
      decide_eq_false_iff_not]
    exact ⟨⟨hne, hopen⟩, hclose⟩
  rw [parseReference, Chars.stripEnd?_append]
  simp only [htrim, hname, splitNamespace_inner, takeConst_marked, takePointer_name]
  rfl

end Reference

/-- The signature of a function is kept as it is. -/
theorem parseFunction_text (source : List Char) (s : Signature) :
    parseFunction source (s.chars ++ [')'])
      = .ok (.function (String.ofList s.chars) (String.ofList source)) := by
  rw [parseFunction, Chars.stripEnd?_append]
  simp only [s.trimmed.trim_eq_self]

/-! ## Telling the kinds of types apart -/

section Kinds

variable (parseArg : List Char → Except Error TypeExpr)

/-- A name is read as itself. -/
theorem parseBalanced_name (n : Ident) :
    parseBalanced parseArg n.chars = .ok (Form.name n).expr := by
  have hopen : '(' ∉ n.chars := n.open_not_mem
  have hplaceholder := Chars.stripStart?_eq_none.mpr n.not_placeholder
  have hreference : Chars.stripStart? "XTYPE(".toList n.chars = none :=
    Chars.stripStart?_eq_none.mpr fun h => hopen (h.subset (by decide))
  have hfunction : Chars.stripStart? "FUNCTION(".toList n.chars = none :=
    Chars.stripStart?_eq_none.mpr fun h => hopen (h.subset (by decide))
  rw [parseBalanced, hplaceholder, hreference, hfunction, Chars.cut?_eq_none [] hopen]
  rfl

/-- A class reference is read back. -/
theorem parseBalanced_reference (r : Reference) :
    parseBalanced parseArg r.text = .ok (Form.reference r).expr := by
  have hplaceholder : Chars.stripStart? "TEMPLATE".toList r.text = none := rfl
  have hreference : Chars.stripStart? "XTYPE(".toList r.text
      = some (r.ns ++ r.marked ++ [')']) := Chars.stripStart?_append "XTYPE(".toList _
  rw [parseBalanced, hplaceholder, hreference]
  simp only [r.parseReference_text, liftFlaw]
  rfl

/-- A placeholder is read back. -/
theorem parseBalanced_placeholder (p : Placeholder) :
    parseBalanced parseArg p.text = .ok (Form.placeholder p).expr := by
  have hplaceholder : Chars.stripStart? "TEMPLATE".toList p.text
      = some (p.indexText ++ p.candidatesText) := Chars.stripStart?_append _ _
  rw [parseBalanced, hplaceholder]
  simp only [parsePlaceholder_text, liftFlaw]
  rfl

/-- A function is read back. -/
theorem parseBalanced_function (s : Signature) :
    parseBalanced parseArg s.text = .ok (Form.function s).expr := by
  have hplaceholder : Chars.stripStart? "TEMPLATE".toList s.text = none := rfl
  have hreference : Chars.stripStart? "XTYPE(".toList s.text = none := rfl
  have hfunction : Chars.stripStart? "FUNCTION(".toList s.text = some (s.chars ++ [')']) :=
    Chars.stripStart?_append "FUNCTION(".toList _
  rw [parseBalanced, hplaceholder, hreference, hfunction]
  simp only [parseFunction_text, liftFlaw]
  rfl

/-- What begins with the name of a constructor is read as a composite type. -/
theorem parseBalanced_composite (b : Constructor) (inner : List Char) :
    parseBalanced parseArg (b.chars ++ ('(' :: inner ++ [')']))
      = parseComposite parseArg (b.chars ++ ('(' :: inner ++ [')'])) b.chars (inner ++ [')']) := by
  have hopen : '(' ∉ b.chars := b.open_not_mem
  have hplaceholder : Chars.stripStart? "TEMPLATE".toList (b.chars ++ ('(' :: inner ++ [')']))
      = none :=
    Chars.stripStart?_eq_none.mpr fun h =>
      b.not_placeholder (Chars.prefix_of_prefix_append_cons (by decide) h)
  have hreference : Chars.stripStart? "XTYPE(".toList (b.chars ++ ('(' :: inner ++ [')']))
      = none :=
    Chars.stripStart?_eq_none.mpr fun h =>
      b.not_reference (Chars.eq_of_prefix_append_cons hopen (by decide) h)
  have hfunction : Chars.stripStart? "FUNCTION(".toList (b.chars ++ ('(' :: inner ++ [')']))
      = none :=
    Chars.stripStart?_eq_none.mpr fun h =>
      b.not_function (Chars.eq_of_prefix_append_cons hopen (by decide) h)
  have hcut : Chars.cut? ['('] (b.chars ++ ('(' :: inner ++ [')']))
      = some (b.chars, inner ++ [')']) := by
    simpa using Chars.cut?_append [] (inner ++ [')']) hopen
  rw [parseBalanced, hplaceholder, hreference, hfunction, hcut]

end Kinds

/-! ## Arguments -/

/-- The texts of the arguments, each with the blanks around it. -/
def Args.pieces : Args → List (List Char)
  | .last padding arg => [padding.around arg.text]
  | .cons padding arg _ rest => padding.around arg.text :: rest.pieces

/-- The arguments are cut apart where they were put together. -/
theorem Args.splitTop_text (args : Args) : splitTop 0 args.text = some args.pieces := by
  cases args with
  | last padding arg => exact (Whole.around padding (arg.standalone.whole 0)).splitTop_eq
  | cons padding arg sep rest =>
      have harg := Whole.around padding (arg.standalone.whole 0)
      rw [text, harg.splitTop_append sep.isSeparator_char, rest.splitTop_text]
      rfl

/-- Whether a form is a class reference can be seen in its type. -/
theorem Form.isReference_expr (t : Form) : t.expr.isReference = t.isReference := by
  cases t <;> rfl

/-- Whether there is a class reference among arguments can be seen in their types. -/
theorem Args.any_isReference_exprs (args : Args) :
    args.exprs.any TypeExpr.isReference = args.anyReference := by
  cases args with
  | last padding arg => simp [exprs, anyReference, arg.isReference_expr]
  | cons padding arg sep rest =>
      simp [exprs, anyReference, arg.isReference_expr, rest.any_isReference_exprs]

/-- Blanks around a text make no difference, and each level takes one step of the depth. -/
theorem Standalone.parseWithin_around {cs : List Char} (h : Standalone cs) (p : Chars.Padding)
    (depth : Nat) :
    parseWithin (depth + 1) (p.around cs) = parseBalanced (parseWithin depth) cs := by
  have hne : cs.isEmpty = false := List.isEmpty_eq_false_iff.mpr h.ne_nil
  simp only [parseWithin, h.trimmed.trim_around, hne, h.closed.checkBalance_eq_ok]
  rfl

/-- An argument is never empty, so it is read like a text of its own. -/
theorem Standalone.parseArgument_around {cs : List Char} (h : Standalone cs) (p : Chars.Padding)
    (parseArg : List Char → Except Error TypeExpr) (source : List Char) :
    parseArgument parseArg source (p.around cs) = parseArg (p.around cs) := by
  rw [parseArgument, h.trimmed.trim_around, if_neg (by simpa using h.ne_nil)]

theorem mapM_cons_eq_ok {α β ε : Type} {f : α → Except ε β} {a : α} {as : List α} {b : β}
    {bs : List β} : (a :: as).mapM f = .ok (b :: bs) ↔ f a = .ok b ∧ as.mapM f = .ok bs := by
  rw [List.mapM_cons]
  cases f a with
  | error e => simp [bind, Except.bind]
  | ok b' =>
      cases as.mapM f with
      | error e => simp [bind, Except.bind]
      | ok bs' => simp [bind, Except.bind, pure, Except.pure]

/-- A constructor is refused if it makes a set of references, and else it is read with what its
arguments are read as. -/
theorem parseComposite_eq_ok (parseArg : List Char → Except Error TypeExpr) (source : List Char)
    (b : Constructor) (args : Args) :
    parseComposite parseArg source b.chars (args.text ++ [')'])
        = .ok (.composite b.base args.exprs (String.ofList source))
      ↔ (Container.isSetLike b.base = true → args.anyReference = false)
        ∧ args.pieces.mapM (parseArgument parseArg source) = .ok args.exprs := by
  have hname : b.chars.isEmpty = false := List.isEmpty_eq_false_iff.mpr b.ne_nil
  simp only [parseComposite, Chars.stripEnd?_append, b.trimmed.trim_eq_self, hname,
    args.splitTop_text, ← args.any_isReference_exprs, Bool.false_eq_true, if_false]
  constructor
  · intro h
    cases hread : args.pieces.mapM (parseArgument parseArg source) with
    | error e =>
        rw [hread] at h
        exact absurd h (by simp [bind, Except.bind])
    | ok exprs =>
        simp only [hread, bind, Except.bind] at h
        split at h
        · exact absurd h (by simp)
        · rename_i hset
          simp only [Except.ok.injEq, TypeExpr.composite.injEq] at h
          obtain ⟨-, rfl, -⟩ := h
          simp only [Bool.and_eq_true, not_and, Bool.not_eq_true] at hset
          exact ⟨hset, rfl⟩
  · rintro ⟨hset, hread⟩
    have hrefused : ¬ (Container.isSetLike b.base && args.exprs.any isReference) = true := by
      simpa only [Bool.and_eq_true, not_and, Bool.not_eq_true] using hset
    simp only [hread, bind, Except.bind]
    exact if_neg hrefused

-- By recursion on the tree. An argument is shorter than the text it stands in, so a depth that is
-- greater than the length of the text is enough for all of its arguments.

mutual

/-- A form is read as its type if and only if it is admissible, given enough depth. -/
theorem Form.parseWithin_text : (t : Form) → (p : Chars.Padding) → (depth : Nat) →
    t.text.length < depth → (parseWithin depth (p.around t.text) = .ok t.expr ↔ t.Admissible)
  | t, p, 0, h => absurd h (Nat.not_lt_zero _)
  | .name n, p, depth + 1, _ => by
      rw [(Form.name n).standalone.parseWithin_around p depth]
      exact iff_of_true (parseBalanced_name _ n) trivial
  | .reference r, p, depth + 1, _ => by
      rw [(Form.reference r).standalone.parseWithin_around p depth]
      exact iff_of_true (parseBalanced_reference _ r) trivial
  | .placeholder q, p, depth + 1, _ => by
      rw [(Form.placeholder q).standalone.parseWithin_around p depth]
      exact iff_of_true (parseBalanced_placeholder _ q) trivial
  | .function s, p, depth + 1, _ => by
      rw [(Form.function s).standalone.parseWithin_around p depth]
      exact iff_of_true (parseBalanced_function _ s) trivial
  | .composite b args, p, depth + 1, h => by
      have hargs : args.text.length < depth := by
        simp only [Form.text, List.length_append, List.length_cons] at h
        omega
      rw [(Form.composite b args).standalone.parseWithin_around p depth]
      rw [Form.expr, Form.text, parseBalanced_composite, parseComposite_eq_ok,
        args.mapM_pieces _ depth hargs]
      rfl

/-- So are all the arguments of a form. -/
theorem Args.mapM_pieces : (args : Args) → (source : List Char) → (depth : Nat) →
    args.text.length < depth →
    (args.pieces.mapM (parseArgument (parseWithin depth) source) = .ok args.exprs
      ↔ args.Admissible)
  | .last padding arg, source, depth, h => by
      have harg : arg.text.length < depth := by
        simp only [Args.text, Chars.Padding.around, List.length_append] at h
        omega
      rw [Args.pieces, Args.exprs, mapM_cons_eq_ok, arg.standalone.parseArgument_around,
        arg.parseWithin_text padding depth harg]
      exact and_iff_left rfl
  | .cons padding arg sep rest, source, depth, h => by
      have hlt : arg.text.length < depth ∧ rest.text.length < depth := by
        simp only [Args.text, Chars.Padding.around, List.length_append, List.length_cons] at h
        omega
      rw [Args.pieces, Args.exprs, mapM_cons_eq_ok, arg.standalone.parseArgument_around,
        arg.parseWithin_text padding depth hlt.1, rest.mapM_pieces source depth hlt.2]
      rfl

end

/-- The text of a type is read as the type that it stands for, with the text of every part, just if
no set in it has a class reference as an argument. -/
theorem parse_eq_ok_iff (t : Form) :
    parse (String.ofList t.text) = .ok t.expr ↔ t.Admissible := by
  have hread := t.parseWithin_text .none (t.text.length + 1) (Nat.lt_succ_self _)
  rw [Chars.Padding.none_around] at hread
  rw [parse, String.toList_ofList]
  exact hread

/-- A map to a set, with a separator inside each of its parts. -/
def nested : Form :=
  let space : Chars.Padding := ⟨[' '], [], by decide, Chars.Padding.none.after_blank⟩
  .composite ⟨⟨"map".toList, by decide, ⟨by decide, by decide⟩, by decide, by decide⟩, by decide,
      by decide⟩
    (.cons .none
      (.reference ⟨"a::".toList, true, "Foo".toList, .plain, by decide, by decide, by decide,
        by decide, by decide, fun _ => ⟨'F', "oo".toList, rfl, rfl⟩, by simp, by simp, by decide⟩)
      .comma
      (.last space
        (.composite ⟨⟨"set".toList, by decide, ⟨by decide, by decide⟩, by decide, by decide⟩,
            by decide, by decide⟩
          (.cons .none
            (.placeholder ⟨some 7, some
              [⟨.none, "A, B".toList, by decide, ⟨by decide, by decide⟩, by decide⟩,
                ⟨space, "C".toList, by decide, ⟨by decide, by decide⟩, by decide⟩]⟩)
            .semicolon
            (.last space
              (.function ⟨"f(x, [y)]".toList, ⟨by decide, by decide⟩, ⟨by decide, by decide⟩,
                ⟨by decide, by decide⟩⟩))))))

/-- All kinds of forms in one text, with letters of both cases in the constructor. -/
theorem parse_nested :
    nested.Admissible
      ∧ parse "map(XTYPE(a::ConstFooPtr), set(TEMPLATE:7[A, B; C]; FUNCTION(f(x, [y)])))"
        = .ok (.composite "MAP"
            [.reference "a::Foo" true .plain "XTYPE(a::ConstFooPtr)",
              .composite "SET"
                [.placeholder (some 7) ["A, B", "C"] "TEMPLATE:7[A, B; C]",
                  .function "f(x, [y)]" "FUNCTION(f(x, [y)])"]
                "set(TEMPLATE:7[A, B; C]; FUNCTION(f(x, [y)]))"]
            "map(XTYPE(a::ConstFooPtr), set(TEMPLATE:7[A, B; C]; FUNCTION(f(x, [y)])))") := by
  have hadmissible : nested.Admissible := by
    simp only [nested, Form.Admissible, Args.Admissible]
    decide
  exact ⟨hadmissible, (parse_eq_ok_iff nested).mpr hadmissible⟩

end ClassSchema.TypeExpr
