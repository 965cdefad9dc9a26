import Mathlib.Data.List.Chain
import ClassSchema.Literal
import ClassSchema.Proofs.Number

/-! # Aggregates inside raw strings

An aggregate is given as a raw string, which ends at the first `)"`. In the text of an aggregate
this occurs where a string or a key ends in a parenthesis, and nowhere else: all other quotes inside
a string are escaped, and outside of strings there are no parentheses. -/

namespace ClassSchema

namespace Chars

/-- No parenthesis stands right before a quote. -/
def Unclosed (cs : List Char) : Prop := cs.IsChain fun a b => ¬ (a = ')' ∧ b = '"')

variable {cs ds : List Char}

/-- A text without parenthesis closes nothing. -/
theorem unclosed_of_not_mem (h : ')' ∉ cs) : Unclosed cs := by
  refine List.isChain_iff_forall_rel_of_append_cons_cons.mpr ?_
  rintro a b l₁ l₂ rfl ⟨rfl, -⟩
  simp at h

/-- Texts one after another close nothing if none of them does, and the first does not end in a
parenthesis. -/
theorem unclosed_append (h : cs.getLast? ≠ some ')') :
    Unclosed (cs ++ ds) ↔ Unclosed cs ∧ Unclosed ds := by
  unfold Unclosed
  rw [List.isChain_append]
  constructor
  · rintro ⟨hcs, hds, -⟩
    exact ⟨hcs, hds⟩
  · rintro ⟨hcs, hds⟩
    refine ⟨hcs, hds, ?_⟩
    rintro a ha b - ⟨rfl, -⟩
    exact h ha

/-- Neither does a text between two other characters. -/
theorem unclosed_enclosed {a b : Char} (ha : a ≠ ')') (hb : b ≠ '"') :
    Unclosed (a :: (cs ++ [b])) ↔ Unclosed cs := by
  unfold Unclosed
  rw [List.isChain_cons, List.isChain_append]
  constructor
  · rintro ⟨-, hcs, -, -⟩
    exact hcs
  · intro hcs
    refine ⟨fun _ _ h => ha h.1, hcs, List.isChain_singleton b, ?_⟩
    rintro _ - c hc ⟨-, rfl⟩
    exact hb (Option.some.inj hc)

theorem getLast?_ne_of_not_mem {c : Char} (h : c ∉ cs) : cs.getLast? ≠ some c :=
  mt List.mem_of_getLast? h

theorem getLast?_append_ne {c : Char} (hcs : cs.getLast? ≠ some c) (hds : ds.getLast? ≠ some c) :
    (cs ++ ds).getLast? ≠ some c := by
  rw [List.getLast?_append]
  cases hlast : ds.getLast? with
  | none => exact hcs
  | some d =>
      rw [hlast] at hds
      exact hds

/-- The text of a raw string is found again if and only if it does not end early. -/
theorem cut?_eq_iff_unclosed (after : List Char) :
    cut? [')', '"'] (cs ++ [')', '"'] ++ after) = some (cs, after) ↔ Unclosed cs := by
  constructor
  · intro h
    refine List.isChain_iff_forall_rel_of_append_cons_cons.mpr ?_
    rintro a b u v rfl ⟨rfl, rfl⟩
    obtain ⟨before, rest, hcut, hlength⟩ := exists_cut? [')', '"'] u (v ++ [')', '"'] ++ after)
    have htext : u ++ [')', '"'] ++ (v ++ [')', '"'] ++ after)
        = u ++ ')' :: '"' :: v ++ [')', '"'] ++ after := by simp
    rw [htext, h] at hcut
    cases hcut
    rw [List.length_append, List.length_cons] at hlength
    omega
  · intro h
    induction cs with
    | nil => simp [cut?, stripStart?]
    | cons c cs ih =>
        have hstrip : stripStart? [')', '"'] (c :: (cs ++ [')', '"'] ++ after)) = none := by
          rw [stripStart?_eq_none]
          rintro ⟨rest, hrest⟩
          -- At the end of the text a parenthesis follows, and no quote.
          cases cs with
          | nil => simp at hrest
          | cons d cs =>
              have hpair := (List.isChain_cons_cons.mp h).1
              simp only [List.cons_append, List.nil_append, List.cons.injEq] at hrest
              exact hpair ⟨hrest.1.symm, hrest.2.1.symm⟩
        rw [List.cons_append, List.cons_append, cut?, hstrip]
        simp only [ih h.of_cons, Option.map_some]

end Chars

/-- There is no parenthesis in a number. -/
theorem Number.paren_not_mem_aggregate (n : Number) :
    ')' ∉ (n.textIn Number.aggregateLayout).toList := by
  intro h
  exact absurd (n.numeral_aggregate.forall_mem _ h) (by decide)

namespace Json

open Chars

/-! ## Strings -/

/-- Nor in a digit. -/
theorem hexDigit_ne_paren {n : Nat} (h : n < 16) : hexDigit n ≠ ')' := by
  decide +revert

/-- A character stands for itself, or is given by what follows a backslash. -/
inductive Escaped (c : Char) : List Char → Prop
  | plain (ne_quote : c ≠ '"') : Escaped c [c]
  | backslash {rest : List Char} (ne_paren : c ≠ ')') (not_mem : ')' ∉ rest) :
      Escaped c ('\\' :: rest)

/-- What a character is escaped to has one of these forms. -/
theorem escaped_escape (c : Char) : Escaped c (escape c) := by
  have hshort {d e : Char} (hd : d ≠ ')') (he : ')' ≠ e) (h : c = d) : Escaped c ['\\', e] :=
    .backslash (h ▸ hd) (mt List.mem_singleton.mp he)
  unfold escape
  refine iteInduction (hshort (by decide) (by decide)) fun hquote => ?_
  iterate 6 refine iteInduction (hshort (by decide) (by decide)) fun _ => ?_
  refine iteInduction (fun hcontrol => .backslash ?_ ?_) fun _ => .plain hquote
  · rintro rfl
    exact absurd hcontrol (by decide)
  · have hhigh := hexDigit_ne_paren (n := c.toNat / 16) (by omega)
    have hlow := hexDigit_ne_paren (n := c.toNat % 16) (by omega)
    simp [hhigh.symm, hlow.symm]

namespace Escaped

variable {c : Char} {cs : List Char} (h : Escaped c cs)

include h

theorem ne_nil : cs ≠ [] := by
  cases h <;> exact List.cons_ne_nil _ _

/-- An escaped character closes nothing. -/
theorem unclosed : Unclosed cs := by
  cases h with
  | plain => exact List.isChain_singleton c
  | backslash _ hrest => exact unclosed_of_not_mem (by simp [hrest])

/-- It does not begin with a quotation mark. -/
theorem head_ne_quote (ds : List Char) : (cs ++ ds).head? ≠ some '"' := by
  cases h with
  | plain hc => simpa using hc
  | backslash => simp

/-- It ends in a parenthesis only if it is one. -/
theorem getLast?_eq_paren : cs.getLast? = some ')' ↔ c = ')' := by
  cases h with
  | plain => simp
  | backslash hc hrest =>
      exact iff_of_false (getLast?_ne_of_not_mem (by simp [hrest])) hc

end Escaped

/-- An escaped text does not begin with a quotation mark. -/
theorem head?_flatMap_escape (cs : List Char) : (cs.flatMap escape).head? ≠ some '"' := by
  cases cs with
  | nil => simp
  | cons c cs =>
      rw [List.flatMap_cons]
      exact (escaped_escape c).head_ne_quote _

/-- An escaped text closes nothing. -/
theorem unclosed_flatMap_escape (cs : List Char) : Unclosed (cs.flatMap escape) := by
  induction cs with
  | nil => exact List.isChain_nil
  | cons c cs ih =>
      rw [List.flatMap_cons]
      refine List.isChain_append.mpr ⟨(escaped_escape c).unclosed, ih, ?_⟩
      rintro a - b hb ⟨-, rfl⟩
      exact head?_flatMap_escape cs hb

/-- It ends in a parenthesis if the text does. -/
theorem getLast?_flatMap_escape (cs : List Char) :
    (cs.flatMap escape).getLast? = some ')' ↔ cs.getLast? = some ')' := by
  rcases List.eq_nil_or_concat cs with rfl | ⟨cs, c, rfl⟩
  · simp
  · rw [List.concat_eq_append, List.flatMap_append, List.flatMap_singleton,
      List.getLast?_append_of_ne_nil _ (escaped_escape c).ne_nil, List.getLast?_concat,
      (escaped_escape c).getLast?_eq_paren, Option.some.injEq]

/-- The quote that ends a string is the only one that can follow a parenthesis. -/
theorem unclosed_quotedChars (cs : List Char) :
    Unclosed (quotedChars cs) ↔ cs.getLast? ≠ some ')' := by
  have hend : Unclosed (cs.flatMap escape ++ ['"']) ↔ cs.getLast? ≠ some ')' := by
    rw [Unclosed, List.isChain_append, ne_eq, ← getLast?_flatMap_escape]
    constructor
    · rintro ⟨-, -, hlast⟩ hparen
      exact hlast _ hparen _ rfl ⟨rfl, rfl⟩
    · intro hlast
      refine ⟨unclosed_flatMap_escape cs, List.isChain_singleton _, ?_⟩
      rintro a ha b - ⟨rfl, -⟩
      exact hlast ha
  have hstart : ['"'].getLast? ≠ some ')' := by decide
  rw [quotedChars, ← hend, ← List.singleton_append, unclosed_append hstart]
  exact and_iff_right (List.isChain_singleton _)

/-- In terms of the last character. -/
theorem endsWith_paren (s : String) : Text.endsWith ")" s ↔ s.toList.getLast? = some ')' := by
  have hparen : ")".toList = [')'] := rfl
  rw [Text.endsWith, hparen, Option.isSome_iff_exists, List.getLast?_eq_some_iff]
  simp only [stripEnd?_eq_some]

/-- A quoted text closes nothing unless it ends in a parenthesis. -/
theorem unclosed_quoted (s : String) :
    Unclosed (quoted s).toList ↔ ¬ Text.endsWith ")" s := by
  rw [quoted, String.toList_ofList, unclosed_quotedChars, endsWith_paren]

/-! ## Aggregates -/

mutual

/-- The strings and keys of an aggregate, at any depth. -/
def strings : Json → List String
  | .null | .bool _ | .number _ => []
  | .string s => [s]
  | .array items => itemStrings items
  | .object fields => fieldStrings fields

/-- The strings in a list of values. -/
def itemStrings : List Json → List String
  | [] => []
  | j :: js => strings j ++ itemStrings js

/-- The keys of fields, and the strings in their values. -/
def fieldStrings : List (String × Json) → List String
  | [] => []
  | (k, v) :: fs => k :: strings v ++ fieldStrings fs

end

-- No text ends in a parenthesis, so what follows it does not matter.

/-- A quoted text ends in a quotation mark. -/
theorem getLast?_quoted_ne (s : String) : (quoted s).toList.getLast? ≠ some ')' := by
  rw [quoted, String.toList_ofList, quotedChars, ← List.cons_append, List.getLast?_concat]
  decide

/-- The text of a value does not end in a parenthesis. -/
theorem getLast?_text_ne (j : Json) : j.text.toList.getLast? ≠ some ')' := by
  cases j with
  | null => decide
  | bool b => cases b <;> decide
  | number n => exact getLast?_ne_of_not_mem n.paren_not_mem_aggregate
  | string s => exact getLast?_quoted_ne s
  | array items =>
      rw [text, String.toList_append, List.getLast?_append]
      simp
  | object fields =>
      rw [text, String.toList_append, List.getLast?_append]
      simp

/-- Nor does that of a field. -/
theorem getLast?_field_ne (k : String) (j : Json) :
    (quoted k ++ ":" ++ j.text).toList.getLast? ≠ some ')' := by
  rw [String.toList_append]
  refine getLast?_append_ne ?_ j.getLast?_text_ne
  simp

/-- A field closes nothing unless its key or its value does. -/
theorem unclosed_field (k : String) (j : Json) :
    Unclosed (quoted k ++ ":" ++ j.text).toList ↔
      ¬ Text.endsWith ")" k ∧ Unclosed j.text.toList := by
  have hcolon : Unclosed ":".toList := List.isChain_singleton _
  have hlast : (quoted k ++ ":").toList.getLast? ≠ some ')' := by simp
  rw [String.toList_append, unclosed_append hlast, String.toList_append,
    unclosed_append (getLast?_quoted_ne k), unclosed_quoted, and_iff_left hcolon]

/-- Commas between texts neither open nor close anything. -/
theorem unclosed_join {ss : List String} (h : ∀ s ∈ ss, s.toList.getLast? ≠ some ')') :
    Unclosed (Text.join "," ss).toList ↔ ∀ s ∈ ss, Unclosed s.toList := by
  induction ss with
  | nil => exact iff_of_true List.isChain_nil (by simp)
  | cons s ss ih =>
      obtain ⟨hs, hss⟩ := List.forall_mem_cons.mp h
      cases ss with
      | nil => simp [Text.join]
      | cons t ss =>
          have hcomma : Unclosed ",".toList := List.isChain_singleton _
          have hlast : (s ++ ",").toList.getLast? ≠ some ')' := by simp
          rw [List.forall_mem_cons, Text.join, String.toList_append, unclosed_append hlast,
            String.toList_append, unclosed_append hs, ih hss, and_iff_left hcomma]

/-- What holds of the texts of all values holds of those of items. -/
theorem forall_mem_texts {P : String → Prop} (h : ∀ j : Json, P j.text) (js : List Json) :
    ∀ s ∈ texts js, P s := by
  induction js with
  | nil => simp [texts]
  | cons j js ih =>
      rw [texts, List.forall_mem_cons]
      exact ⟨h j, ih⟩

/-- What holds of the texts of all fields holds of those of an object. -/
theorem forall_mem_fieldTexts {P : String → Prop}
    (h : ∀ (k : String) (j : Json), P (quoted k ++ ":" ++ j.text)) (fs : List (String × Json)) :
    ∀ s ∈ fieldTexts fs, P s := by
  induction fs with
  | nil => simp [fieldTexts]
  | cons f fs ih =>
      obtain ⟨k, j⟩ := f
      rw [fieldTexts, List.forall_mem_cons]
      exact ⟨h k j, ih⟩

mutual

/-- The text of an aggregate holds the end of a raw string exactly where a string or key ends in a
parenthesis. -/
theorem unclosed_text (j : Json) :
    Unclosed j.text.toList ↔ ∀ s ∈ j.strings, ¬ Text.endsWith ")" s := by
  cases j with
  | null => exact iff_of_true (unclosed_of_not_mem (by decide)) (by simp [strings])
  | bool b =>
      refine iff_of_true (unclosed_of_not_mem ?_) (by simp [strings])
      cases b <;> decide
  | number n =>
      rw [text]
      exact iff_of_true (unclosed_of_not_mem n.paren_not_mem_aggregate) (by simp [strings])
  | string s =>
      rw [text, unclosed_quoted]
      simp [strings]
  | array items =>
      have htext : (text (.array items)).toList
          = '[' :: ((Text.join "," (texts items)).toList ++ [']']) := by simp [text]
      rw [htext, unclosed_enclosed (by decide) (by decide),
        unclosed_join (forall_mem_texts getLast?_text_ne items), strings, unclosed_texts items]
  | object fields =>
      have htext : (text (.object fields)).toList
          = '\x7b' :: ((Text.join "," (fieldTexts fields)).toList ++ ['\x7d']) := by simp [text]
      rw [htext, unclosed_enclosed (by decide) (by decide),
        unclosed_join (forall_mem_fieldTexts getLast?_field_ne fields), strings,
        unclosed_fieldTexts fields]

/-- The items of a list. -/
theorem unclosed_texts (js : List Json) :
    (∀ s ∈ texts js, Unclosed s.toList) ↔ ∀ s ∈ itemStrings js, ¬ Text.endsWith ")" s := by
  cases js with
  | nil => simp [texts, itemStrings]
  | cons j js =>
      rw [texts, itemStrings, List.forall_mem_cons, List.forall_mem_append, unclosed_text j,
        unclosed_texts js]

/-- The fields of an object. -/
theorem unclosed_fieldTexts (fs : List (String × Json)) :
    (∀ s ∈ fieldTexts fs, Unclosed s.toList) ↔ ∀ s ∈ fieldStrings fs, ¬ Text.endsWith ")" s := by
  cases fs with
  | nil => simp [fieldTexts, fieldStrings]
  | cons f fs =>
      obtain ⟨k, v⟩ := f
      rw [fieldTexts, fieldStrings, List.forall_mem_cons, List.cons_append, List.forall_mem_cons,
        List.forall_mem_append, unclosed_field, unclosed_text v, unclosed_fieldTexts fs, and_assoc]

end

end Json

/-! ## Literals -/

/-- What the first raw string of an expression holds, and what follows it. -/
def rawString? (expression : List Char) : Option (List Char × List Char) :=
  (Chars.cut? ['R', '"', '('] expression).bind fun (_, rest) => Chars.cut? [')', '"'] rest

theorem toList_append_append {a b : String} {cs ds : List Char} (ha : a.toList = cs)
    (hb : b.toList = ds) (s : String) : (a ++ s ++ b).toList = cs ++ (s.toList ++ ds) := by
  rw [String.toList_append, String.toList_append, ha, hb, List.append_assoc]

/-- The literal of an aggregate, as characters. -/
theorem toList_jsonLiteral (j : Json) :
    (Language.cpp.jsonLiteral j).toList = "nl::json::parse(".toList ++ 'R' :: ['"', '(']
      ++ (j.text.toList ++ ([')', '"'] ++ [')'])) :=
  toList_append_append (by decide) (by decide) j.text

/-- Its raw string is read up to the first place where it could be closed. -/
theorem rawString?_jsonLiteral (j : Json) :
    rawString? (Language.cpp.jsonLiteral j).toList
      = Chars.cut? [')', '"'] (j.text.toList ++ [')', '"'] ++ [')']) := by
  have hbefore : 'R' ∉ "nl::json::parse(".toList := by decide
  rw [rawString?, toList_jsonLiteral, Chars.cut?_append _ _ hbefore, List.append_assoc]
  rfl

/-- This is the end of the text unless a string in it ends in a parenthesis. -/
theorem rawString?_eq_text_iff (j : Json) :
    rawString? (Language.cpp.jsonLiteral j).toList = some (j.text.toList, [')']) ↔
      ∀ s ∈ j.strings, ¬ Text.endsWith ")" s := by
  rw [rawString?_jsonLiteral, Chars.cut?_eq_iff_unclosed, Json.unclosed_text]

namespace Literal

/-- A sequence or a mapping. -/
inductive IsAggregate : Yaml.Value → Prop
  | sequence (items : List Yaml.Value) : IsAggregate (.sequence items)
  | mapping (entries : List (Yaml.Value × Yaml.Value)) : IsAggregate (.mapping entries)

variable {t : TypeExpr} {role : Role} {v : Yaml.Value} {literal : String}

/-- An aggregate without text has no literal. -/
theorem IsAggregate.untyped_of_none (language : Language) (hv : IsAggregate v)
    (h : aggregate? v = none) : untyped language v = unsupported v := by
  cases hv <;> simp only [untyped, h]

/-- One with a text has the literal of this text. -/
theorem IsAggregate.untyped_of_some (language : Language) {j : Json} (hv : IsAggregate v)
    (h : aggregate? v = some j) : untyped language v = .ok (language.jsonLiteral j) := by
  cases hv <;> simp only [untyped, h]

/-- The literal of an aggregate is made from its text. -/
theorem IsAggregate.untyped_eq_ok (hv : IsAggregate v) (h : untyped .cpp v = .ok literal) :
    ∃ j, aggregate? v = some j ∧ literal = Language.cpp.jsonLiteral j := by
  cases hj : aggregate? v with
  | none =>
      rw [hv.untyped_of_none .cpp hj] at h
      cases h
  | some j =>
      rw [hv.untyped_of_some .cpp hj] at h
      exact ⟨j, rfl, (Except.ok.inj h).symm⟩

/-- The only aggregate that counts as an empty object is the empty mapping. -/
theorem IsAggregate.eq_of_isEmptyObject (hv : IsAggregate v) (h : isEmptyObject v = true) :
    v = .mapping [] := by
  cases hv with
  | sequence items => cases h
  | mapping entries => rw [List.isEmpty_iff.mp h]

/-- The literal of an aggregate holds its text, but for the empty object that is given to an
argument. -/
theorem IsAggregate.typed_eq_ok (hv : IsAggregate v) (h : typed .cpp t role v = .ok literal) :
    (v = .mapping [] ∧ literal = Language.cpp.emptyObject) ∨
      ∃ j, aggregate? v = some j ∧ literal = Language.cpp.jsonLiteral j := by
  unfold typed at h
  split at h
  · rename_i hempty
    simp only [Bool.and_eq_true] at hempty
    exact .inl ⟨hv.eq_of_isEmptyObject hempty.2, (Except.ok.inj h).symm⟩
  · refine .inr (hv.untyped_eq_ok ?_)
    cases hv <;> exact h

end Literal

/-- An aggregate is read back from its literal if and only if none of its strings and keys ends in a
parenthesis. The literals of sequences and mappings are such literals, but for the explicit empty
object. -/
theorem rawString?_literal (j : Json) (t : TypeExpr) (role : Literal.Role) (v : Yaml.Value)
    (literal : String) :
    (rawString? (Language.cpp.jsonLiteral j).toList = some (j.text.toList, [')']) ↔
      ∀ s ∈ j.strings, ¬ Text.endsWith ")" s) ∧
    (Literal.IsAggregate v → Literal.typed .cpp t role v = .ok literal →
      (v = .mapping [] ∧ literal = Language.cpp.emptyObject) ∨
      ∃ j, Literal.aggregate? v = some j ∧ literal = Language.cpp.jsonLiteral j ∧
        (rawString? literal.toList = some (j.text.toList, [')']) ↔
          ∀ s ∈ j.strings, ¬ Text.endsWith ")" s)) := by
  refine ⟨rawString?_eq_text_iff j, fun hv h => ?_⟩
  rcases hv.typed_eq_ok h with hempty | ⟨j, hj, rfl⟩
  · exact .inl hempty
  · exact .inr ⟨j, hj, rfl, rawString?_eq_text_iff j⟩

/-- The raw string ends inside the aggregate. -/
theorem rawString?_early :
    rawString? (Language.cpp.jsonLiteral (.array [.string "see (a)"])).toList
      = some ("[\"see (a".toList, "])\")".toList) ∧
    Json.text (.array [.string "see (a)"]) = "[\"see (a)\"]" := by
  decide +kernel

/-- Inside a string an escaped quote does no harm. -/
theorem rawString?_escaped :
    ∃ literal, Literal.typed .cpp (.primitive "JSON") .property
        (.mapping [(.string "f(x)=", .sequence [.string "a)\"b"])]) = .ok literal ∧
      rawString? literal.toList = some ("\x7b\"f(x)=\":[\"a)\\\"b\"]\x7d".toList, [')']) := by
  have htyped : Literal.typed .cpp (.primitive "JSON") .property
      (.mapping [(.string "f(x)=", .sequence [.string "a)\"b"])])
        = .ok (Language.cpp.jsonLiteral (.object [("f(x)=", .array [.string "a)\"b"])])) := by
    decide +kernel
  refine ⟨_, htyped, ?_⟩
  rcases (rawString?_literal .null _ _ _ _).2 (.mapping _) htyped with
    ⟨hempty, -⟩ | ⟨j, hj, -, hiff⟩
  · cases hempty
  · obtain rfl : .object [("f(x)=", .array [.string "a)\"b"])] = j := Option.some.inj hj
    exact hiff.mpr (by decide)

end ClassSchema
