import ClassSchema.Proofs.Computation
import ClassSchema.Proofs.TypeExpr.Fill
import ClassSchema.Proofs.TypeExpr.Form

/-! # The texts that are accepted as types

Types are read from any text, not only from those of the grammar. `ReadAs` says of what form a text
is that was accepted, and what it is read as. The bound on the nesting does not matter, so the
arguments of a constructor are types that are read from their own pieces of the text, and with them
every node of a type. -/

namespace ClassSchema.TypeExpr

variable {source rest : List Char} {t : TypeExpr}

/-! ## The kinds of types -/

/-- To say where a flaw was found changes nothing if there is none. -/
theorem liftFlaw_eq_ok {α : Type} {x : Except Flaw α} {a : α} (h : liftFlaw source x = .ok a) :
    x = .ok a := by
  cases x with
  | error flaw => cases h
  | ok b => exact congrArg _ (Except.ok.inj h)

/-- Behind the index of a placeholder stands nothing, or a list in square brackets. -/
theorem parseCandidates_eq_ok {index : Option Nat} (h : parseCandidates index source rest = .ok t) :
    rest = [] ∧ t = .placeholder index [] (String.ofList source) ∨
      ∃ inner, rest = '[' :: inner ++ [']'] ∧
        t = .placeholder index (candidateList inner) (String.ofList source) := by
  unfold parseCandidates at h
  split at h
  · rename_i hempty
    exact .inl ⟨List.isEmpty_iff.mp hempty, (Except.ok.inj h).symm⟩
  · split at h
    · cases h
    · rename_i tail hstart
      split at h
      · cases h
      · rename_i inner hend
        refine .inr ⟨inner, ?_, (Except.ok.inj h).symm⟩
        rw [Chars.stripStart?_eq_some.mp hstart, Chars.stripEnd?_eq_some.mp hend]
        rfl

/-- The index of a placeholder is plain, and its candidates come behind it. -/
theorem parsePlaceholder_eq_ok (h : parsePlaceholder source rest = .ok t) :
    ∃ index number list, rest = number ++ list ∧ Plain number ∧
      parseCandidates index source list = .ok t := by
  unfold parsePlaceholder at h
  split at h
  · rename_i after
    split at h
    · cases h
    · rename_i i _
      have hcolon : Plain [':'] := by decide
      have hdigits : Plain (after.takeWhile Char.isDigit) :=
        fun c hc => plain_of_isDigit (List.mem_takeWhile_imp hc)
      refine ⟨some i, [':'] ++ after.takeWhile Char.isDigit, after.dropWhile Char.isDigit, ?_,
        hcolon.append hdigits, h⟩
      rw [List.append_assoc, List.takeWhile_append_dropWhile]
      rfl
  · exact ⟨none, [], rest, rfl, by simp [Plain], h⟩

/-- The class name in a reference is taken apart: first the namespace, then `Const`, and then the
mark of a pointer. -/
theorem parseReference_eq_ok (h : parseReference source rest = .ok t) :
    ∃ inner ns marked isConst pointed pointer name, rest = inner ++ [')'] ∧
      splitNamespace (Chars.trim inner) = (ns, marked) ∧ takeConst marked = (isConst, pointed) ∧
      takePointer pointed = (pointer, name) ∧
      t = .reference (String.ofList (ns ++ name)) isConst pointer (String.ofList source) := by
  unfold parseReference at h
  split at h
  · cases h
  · rename_i inner hend
    obtain ⟨-, h⟩ := guard_eq_ok h
    exact ⟨inner, _, _, _, _, _, _, Chars.stripEnd?_eq_some.mp hend, rfl, rfl, rfl,
      (Except.ok.inj h).symm⟩

/-- A function keeps the text in its parentheses. -/
theorem parseFunction_eq_ok (h : parseFunction source rest = .ok t) :
    ∃ inner, rest = inner ++ [')'] ∧
      t = .function (String.ofList (Chars.trim inner)) (String.ofList source) := by
  unfold parseFunction at h
  split at h
  · cases h
  · rename_i inner hend
    exact ⟨inner, Chars.stripEnd?_eq_some.mp hend, (Except.ok.inj h).symm⟩

section Composite

variable {parseArg parseArg' : List Char → Except Error TypeExpr} {before after : List Char}

/-- An argument is what is read from its piece. -/
theorem parseArgument_eq_ok {piece : List Char} (h : parseArgument parseArg source piece = .ok t) :
    parseArg piece = .ok t :=
  (guard_eq_ok h).2

/-- The arguments of a constructor are read from the pieces of the text in its parentheses, and none
of a set is a reference. -/
theorem parseComposite_inv (h : parseComposite parseArg source before after = .ok t) :
    ∃ inner pieces args, after = inner ++ [')'] ∧ splitTop 0 inner = some pieces ∧
      List.Forall₂ (fun piece arg => parseArg piece = .ok arg) pieces args ∧
      (Container.isSetLike (Text.upper (String.ofList (Chars.trim before))) = true →
        ∀ arg ∈ args, arg.isReference = false) ∧
      t = .composite (Text.upper (String.ofList (Chars.trim before))) args
        (String.ofList source) := by
  unfold parseComposite at h
  split at h
  · cases h
  · rename_i inner hend
    obtain ⟨-, h⟩ := guard_eq_ok h
    split at h
    · cases h
    · rename_i pieces hsplit
      obtain ⟨args, hargs, h⟩ := bind_eq_ok h
      obtain ⟨hset, h⟩ := guard_eq_ok h
      refine ⟨inner, pieces, args, Chars.stripEnd?_eq_some.mp hend, hsplit, ?_, ?_,
        (Except.ok.inj h).symm⟩
      · exact (forall₂_of_mapM hargs).imp fun _ _ => parseArgument_eq_ok
      · simpa using hset

/-- Only the pieces matter for how arguments are read, and they are no longer than the text in the
parentheses. -/
theorem parseComposite_congr {inner : List Char} (hafter : after = inner ++ [')'])
    (h : ∀ piece : List Char, piece.length ≤ inner.length → parseArg piece = parseArg' piece) :
    parseComposite parseArg source before after = parseComposite parseArg' source before after := by
  subst hafter
  unfold parseComposite
  rw [Chars.stripEnd?_append]
  cases hsplit : splitTop 0 inner with
  | none => simp only [hsplit]
  | some pieces =>
      have hargs : pieces.mapM (parseArgument parseArg source)
          = pieces.mapM (parseArgument parseArg' source) := by
        apply mapM_congr
        intro piece hpiece
        rw [parseArgument, parseArgument, h piece ((pieces_of_splitTop hsplit).2 piece hpiece)]
      simp only [hsplit, hargs]

/-- Only shorter texts are read as arguments. -/
theorem parseBalanced_congr
    (h : ∀ piece : List Char, piece.length < source.length → parseArg piece = parseArg' piece) :
    parseBalanced parseArg source = parseBalanced parseArg' source := by
  unfold parseBalanced
  split
  · rfl
  · split
    · rfl
    · split
      · rfl
      · split
        · rename_i before after hcut
          have htext := Chars.cut?_eq_some hcut
          cases hend : Chars.stripEnd? [')'] after with
          | none => simp only [parseComposite, hend]
          | some inner =>
              rw [Chars.stripEnd?_eq_some] at hend
              apply parseComposite_congr hend
              intro piece hpiece
              apply h
              rw [htext, hend]
              simp only [List.length_append, List.length_singleton]
              omega
        · rfl

end Composite

/-! ## Nesting -/

/-- Two bounds on the nesting above the length of the text make no difference. -/
theorem parseWithin_congr {d d' : Nat} {expr : List Char} (h : expr.length < d)
    (h' : expr.length < d') : parseWithin d expr = parseWithin d' expr := by
  -- A piece is shorter than the text, so each level takes off as much of the length as of the
  -- bound.
  induction d generalizing d' expr with
  | zero => cases h
  | succ d ih =>
      cases d' with
      | zero => cases h'
      | succ d' =>
          have hsource := (Chars.trim_infix expr).length_le
          have hargs : parseBalanced (parseWithin d) (Chars.trim expr)
              = parseBalanced (parseWithin d') (Chars.trim expr) := by
            apply parseBalanced_congr
            intro piece hpiece
            exact ih (by omega) (by omega)
          simp only [parseWithin, hargs]

/-- So a text is read below any such bound as it is on its own. -/
theorem parseWithin_eq_parse {d : Nat} {expr : List Char} (h : expr.length < d) :
    parseWithin d expr = parse (String.ofList expr) := by
  rw [parse, String.toList_ofList]
  exact parseWithin_congr h (Nat.lt_succ_self _)

/-- The pieces of a text are read as types of their own. -/
def readPiece (piece : List Char) : Except Error TypeExpr := parse (String.ofList piece)

section Parse

variable {expr : String} (hne : Chars.trim expr.toList ≠ [])

include hne

/-- A text in which the parentheses match is read by its form. -/
theorem parse_of_balanced (h : Matched (Chars.trim expr.toList)) :
    parse expr = parseBalanced readPiece (Chars.trim expr.toList) := by
  have hsource := (Chars.trim_infix expr.toList).length_le
  have hargs : parseBalanced (parseWithin expr.toList.length) (Chars.trim expr.toList)
      = parseBalanced readPiece (Chars.trim expr.toList) := by
    apply parseBalanced_congr
    intro piece hpiece
    exact parseWithin_eq_parse (by omega)
  rw [parse, parseWithin, if_neg (mt List.isEmpty_iff.mp hne), checkBalance_eq_ok_iff.mpr h]
  exact hargs

/-- Any other text is refused for its parentheses. -/
theorem parse_of_not_balanced (h : ¬ Matched (Chars.trim expr.toList)) :
    ∃ flaw, checkBalance 0 (Chars.trim expr.toList) = .error flaw ∧
      parse expr = .error (.malformed (Text.trim expr) flaw) := by
  cases hcheck : checkBalance 0 (Chars.trim expr.toList) with
  | ok u => exact absurd (checkBalance_eq_ok_iff.mp hcheck) h
  | error flaw =>
      refine ⟨flaw, rfl, ?_⟩
      rw [parse, parseWithin, if_neg (mt List.isEmpty_iff.mp hne), hcheck]
      rfl

end Parse

/-- A text that is accepted is not empty, and its parentheses match. -/
theorem parse_eq_ok {expr : String} (h : parse expr = .ok t) :
    Chars.trim expr.toList ≠ [] ∧ Matched (Chars.trim expr.toList) ∧
      parseBalanced readPiece (Chars.trim expr.toList) = .ok t := by
  have hne : Chars.trim expr.toList ≠ [] := by
    rw [parse, parseWithin] at h
    exact mt List.isEmpty_iff.mpr (guard_eq_ok h).1
  have hbalanced : Matched (Chars.trim expr.toList) := by
    by_contra hunbalanced
    obtain ⟨flaw, -, herror⟩ := parse_of_not_balanced hne hunbalanced
    cases h.symm.trans herror
  exact ⟨hne, hbalanced, (parse_of_balanced hne hbalanced).symm.trans h⟩

/-! ## What is accepted -/

/-- The form of a text that is accepted, without blanks around it, and what it is read as. -/
inductive ReadAs (source : List Char) : TypeExpr → Prop
  | name (unopened : '(' ∉ source) : ReadAs source (.primitive (String.ofList source))
  | reference {inner : List Char} {className : String} {isConst : Bool} {pointer : Pointer}
      (text : source = "XTYPE(".toList ++ (inner ++ [')'])) :
      ReadAs source (.reference className isConst pointer (String.ofList source))
  | placeholder {index : Option Nat} (plain : Plain source) :
      ReadAs source (.placeholder index [] (String.ofList source))
  | choice {index : Option Nat} {head inner : List Char} (plain : Plain head)
      (text : source = head ++ ('[' :: inner ++ [']'])) :
      ReadAs source (.placeholder index (candidateList inner) (String.ofList source))
  | function {inner : List Char} (text : source = "FUNCTION(".toList ++ (inner ++ [')'])) :
      ReadAs source (.function (String.ofList (Chars.trim inner)) (String.ofList source))
  | composite {before inner : List Char} {pieces : List (List Char)} {args : List TypeExpr}
      (text : source = before ++ ('(' :: inner ++ [')'])) (first : '(' ∉ before)
      (split : splitTop 0 inner = some pieces)
      (read : List.Forall₂ (fun piece arg => readPiece piece = .ok arg) pieces args)
      (values : Container.isSetLike (Text.upper (String.ofList (Chars.trim before))) = true →
        ∀ arg ∈ args, arg.isReference = false) :
      ReadAs source (.composite (Text.upper (String.ofList (Chars.trim before))) args
        (String.ofList source))

/-- Placeholders are of the form that is described. -/
theorem readAs_of_parsePlaceholder (htext : source = "TEMPLATE".toList ++ rest)
    (h : parsePlaceholder source rest = .ok t) : ReadAs source t := by
  obtain ⟨index, number, list, rfl, hnumber, h⟩ := parsePlaceholder_eq_ok h
  have hkeyword : Plain "TEMPLATE".toList := by decide
  have hhead := hkeyword.append hnumber
  rw [← List.append_assoc] at htext
  rcases parseCandidates_eq_ok h with ⟨rfl, rfl⟩ | ⟨inner, rfl, rfl⟩
  · rw [List.append_nil] at htext
    exact .placeholder (htext ▸ hhead)
  · exact .choice hhead htext

/-- So are all types, whatever their kind. -/
theorem readAs_of_parseBalanced (h : parseBalanced readPiece source = .ok t) :
    ReadAs source t := by
  unfold parseBalanced at h
  split at h
  · rename_i rest hrest
    exact readAs_of_parsePlaceholder (Chars.stripStart?_eq_some.mp hrest) (liftFlaw_eq_ok h)
  · split at h
    · rename_i rest hrest
      obtain ⟨inner, _, _, _, _, _, _, rfl, -, -, -, rfl⟩ := parseReference_eq_ok (liftFlaw_eq_ok h)
      exact .reference (Chars.stripStart?_eq_some.mp hrest)
    · split at h
      · rename_i rest hrest
        obtain ⟨inner, rfl, rfl⟩ := parseFunction_eq_ok (liftFlaw_eq_ok h)
        exact .function (Chars.stripStart?_eq_some.mp hrest)
      · split at h
        · rename_i before after hcut
          obtain ⟨inner, pieces, args, rfl, hsplit, hread, hvalues, rfl⟩ := parseComposite_inv h
          have htext := Chars.cut?_eq_some hcut
          rw [List.append_assoc] at htext
          exact .composite htext (Chars.not_mem_of_cut? hcut) hsplit hread hvalues
        · rename_i hcut
          cases h
          refine .name fun hopen => ?_
          obtain ⟨u, v, rfl⟩ := List.append_of_mem hopen
          obtain ⟨before, after, hsome, -⟩ := Chars.exists_cut? ['('] u v
          rw [List.append_assoc, List.singleton_append, hcut] at hsome
          cases hsome

section Nodes

variable {expr : String}

/-- Whatever is accepted is of one of the forms, blanks around it aside. -/
theorem readAs_of_parse (h : parse expr = .ok t) : ReadAs (Chars.trim expr.toList) t :=
  readAs_of_parseBalanced (parse_eq_ok h).2.2

/-- A type keeps the text that it was read from. -/
theorem ReadAs.source_eq (h : ReadAs source t) : t.source = String.ofList source := by
  cases h <;> rfl

/-- The text that is kept is without the blanks around it. -/
theorem source_of_parse (h : parse expr = .ok t) : t.source.toList = Chars.trim expr.toList := by
  rw [(readAs_of_parse h).source_eq, String.toList_ofList]

/-- The text that is kept is read as the same type. -/
theorem parse_source (h : parse expr = .ok t) : parse t.source = .ok t := by
  obtain ⟨hne, hbalanced, hread⟩ := parse_eq_ok h
  have htrim : Chars.trim t.source.toList = Chars.trim expr.toList := by
    rw [source_of_parse h]
    exact (Chars.trimmed_trim _).trim_eq_self
  rw [← htrim] at hne hbalanced hread
  exact (parse_of_balanced hne hbalanced).trans hread

/-- Whatever stands in a type that was read is read from a text as well. -/
theorem exists_parse_of_within {s : TypeExpr} (h : parse expr = .ok t) (hs : s.Within t) :
    ∃ expr, parse expr = .ok s := by
  induction hs generalizing expr with
  | self => exact ⟨expr, h⟩
  | argument harg _ ih =>
      cases readAs_of_parse h with
      | composite _ _ _ hread _ =>
          obtain ⟨piece, -, hpiece⟩ := exists_of_mem_right hread harg
          exact ih hpiece

end Nodes

end ClassSchema.TypeExpr
