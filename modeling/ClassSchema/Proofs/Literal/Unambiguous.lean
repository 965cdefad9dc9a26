import Mathlib.Data.List.Forall2
import ClassSchema.Language
import ClassSchema.Proofs.Number
import ClassSchema.Proofs.Text.Join

/-! # Aggregates that are written out

No two values have the same literal: from the left, a literal can be read in one way only, as long
as what follows it does not go on with a number. Strings may hold whatever marks they like. -/

namespace ClassSchema

namespace Json

/-! ## Strings -/

/-- The value of a digit. -/
def hexValue (c : Char) : Nat :=
  if c.isDigit then c.toNat - '0'.toNat else c.toNat - 'a'.toNat + 10

/-- Digits are read back. -/
theorem hexValue_hexDigit {n : Nat} (h : n < 16) : hexValue (hexDigit n) = n := by
  decide +revert

/-- The escapes of one letter, with what they stand for. -/
def shortEscapes : List (Char × Char) :=
  [('"', '"'), ('\\', '\\'), ('b', '\x08'), ('f', '\x0c'), ('n', '\n'), ('r', '\r'), ('t', '\t')]

/-- The character that is escaped by a backslash and what comes next. -/
def unescapeMark? : List Char → Option (Char × List Char)
  | 'u' :: '0' :: '0' :: high :: low :: rest =>
      some (Char.ofNat (16 * hexValue high + hexValue low), rest)
  | mark :: rest => (shortEscapes.lookup mark).map (·, rest)
  | [] => none

/-- The first character of a string whose inside is given, and the rest. -/
def unescape? : List Char → Option (Char × List Char)
  | [] => none
  | c :: rest =>
      if c = '"' then none
      else if c = '\\' then unescapeMark? rest
      else some (c, rest)

/-- The text is read as the character, whatever follows it. -/
def Unescapes (c : Char) (cs : List Char) : Prop :=
  ∀ rest, unescape? (cs ++ rest) = some (c, rest)

/-- Each escaped character is read back. -/
theorem unescapes_escape (c : Char) : Unescapes c (escape c) := by
  have hshort {d e : Char} (hd : Unescapes d ['\\', e]) (h : c = d) : Unescapes c ['\\', e] := by
    rwa [h]
  unfold escape
  refine iteInduction (hshort fun _ => rfl) fun hquote => ?_
  refine iteInduction (hshort fun _ => rfl) fun hbackslash => ?_
  iterate 5 refine iteInduction (hshort fun _ => rfl) fun _ => ?_
  refine iteInduction (fun hcontrol rest => ?_) fun _ rest => ?_
  · have hhigh := hexValue_hexDigit (n := c.toNat / 16) (by omega)
    have hlow := hexValue_hexDigit (n := c.toNat % 16) (by omega)
    have hcode : 16 * (c.toNat / 16) + c.toNat % 16 = c.toNat := by omega
    simp [unescape?, unescapeMark?, hhigh, hlow, hcode]
  · simp [unescape?, hquote, hbackslash]

/-- So is a text up to its closing quotation mark, whatever follows. -/
theorem flatMap_escape_append {cs ds r s : List Char} :
    cs.flatMap escape ++ '"' :: r = ds.flatMap escape ++ '"' :: s ↔ cs = ds ∧ r = s := by
  constructor
  · intro h
    induction cs generalizing ds with
    | nil =>
        cases ds with
        | nil => exact ⟨rfl, (List.cons.inj h).2⟩
        | cons d ds =>
            have hread := congrArg unescape? h
            rw [List.flatMap_cons, List.append_assoc, unescapes_escape d] at hread
            cases hread
    | cons c cs ih =>
        have hread := congrArg unescape? h
        rw [List.flatMap_cons, List.append_assoc, unescapes_escape c] at hread
        cases ds with
        | nil => cases hread
        | cons d ds =>
            rw [List.flatMap_cons, List.append_assoc, unescapes_escape d] at hread
            obtain ⟨rfl, hrest⟩ := Prod.mk.inj (Option.some.inj hread)
            obtain ⟨rfl, rfl⟩ := ih hrest
            exact ⟨rfl, rfl⟩
  · rintro ⟨rfl, rfl⟩
    rfl

/-- The quote that ends a string is found, since all quotes inside are escaped. -/
theorem quoted_append {a b : String} {r s : List Char} :
    (quoted a).toList ++ r = (quoted b).toList ++ s ↔ a = b ∧ r = s := by
  have hquoted (a : String) (r : List Char) :
      (quoted a).toList ++ r = '"' :: (a.toList.flatMap escape ++ '"' :: r) := by
    rw [quoted, String.toList_ofList, quotedChars, List.cons_append, List.append_assoc,
      List.singleton_append]
  rw [hquoted, hquoted, List.cons_inj_right, flatMap_escape_append, String.toList_inj]

/-! ## Values up to the numbers they print -/

mutual

/-- Two values are the same, but for numbers that have the same text. -/
inductive Alike : Json → Json → Prop
  | null : Alike .null .null
  | bool (b : Bool) : Alike (.bool b) (.bool b)
  | number {m n : Number}
      (text_eq : m.textIn Number.aggregateLayout = n.textIn Number.aggregateLayout) :
      Alike (.number m) (.number n)
  | string (s : String) : Alike (.string s) (.string s)
  | array {as bs : List Json} (items : List.Forall₂ Alike as bs) : Alike (.array as) (.array bs)
  | object {fs gs : List (String × Json)} (fields : List.Forall₂ AlikeField fs gs) :
      Alike (.object fs) (.object gs)

/-- Fields with the same key and values that are alike. -/
inductive AlikeField : String × Json → String × Json → Prop
  | mk (key : String) {v w : Json} (value : Alike v w) : AlikeField (key, v) (key, w)

end

/-- The kinds of values. -/
inductive Kind where
  | null
  | bool
  | number
  | string
  | array
  | object

def kind : Json → Kind
  | .null => .null
  | .bool _ => .bool
  | .number _ => .number
  | .string _ => .string
  | .array _ => .array
  | .object _ => .object

namespace Alike

/-- Values that are alike are of the same kind. -/
theorem kind_eq {v w : Json} (h : Alike v w) : v.kind = w.kind := by
  cases h <;> rfl

theorem bool_iff {a b : Bool} : Alike (.bool a) (.bool b) ↔ a = b := by
  constructor
  · rintro ⟨⟩
    rfl
  · rintro rfl
    exact .bool a

/-- Numbers are alike if they are written in the same way. -/
theorem number_iff {m n : Number} : Alike (.number m) (.number n) ↔
    m.textIn Number.aggregateLayout = n.textIn Number.aggregateLayout := by
  constructor
  · rintro ⟨⟩
    assumption
  · exact .number

theorem string_iff {s t : String} : Alike (.string s) (.string t) ↔ s = t := by
  constructor
  · rintro ⟨⟩
    rfl
  · rintro rfl
    exact .string s

/-- Arrays are alike if their items are, one by one. -/
theorem array_iff {as bs : List Json} :
    Alike (.array as) (.array bs) ↔ List.Forall₂ Alike as bs := by
  constructor
  · rintro ⟨⟩
    assumption
  · exact .array

/-- Objects are alike if their fields are, one by one. -/
theorem object_iff {fs gs : List (String × Json)} :
    Alike (.object fs) (.object gs) ↔ List.Forall₂ AlikeField fs gs := by
  constructor
  · rintro ⟨⟩
    assumption
  · exact .object

end Alike

/-- The kind of value whose literal starts with the character. -/
def Kind.ofFirst? (c : Char) : Option Kind :=
  if isNumeral c then some .number
  else [('N', .null), ('T', .bool), ('F', .bool), ('"', .string), ('[', .array),
    ('\x7b', .object)].lookup c

end Json

/-! ## Texts in a row -/

/-- What follows a number does not go on with it. -/
def Stops (cs : List Char) : Prop := ∀ c ∈ cs.head?, isNumeral c = false

/-- A number stops before any other character. -/
theorem Stops.cons {c : Char} (h : isNumeral c = false) (cs : List Char) : Stops (c :: cs) := by
  rintro _ ⟨⟩
  exact h

/-- A number is told from what follows it. -/
theorem Numeral.append_iff {cs ds r s : List Char} (hcs : Numeral cs) (hds : Numeral ds)
    (hr : Stops r) (hs : Stops s) : cs ++ r = ds ++ s ↔ cs = ds ∧ r = s := by
  have htake {cs r : List Char} (hcs : Numeral cs) (hr : Stops r) :
      (cs ++ r).takeWhile isNumeral = cs := by
    rw [List.takeWhile_append_of_pos hcs.forall_mem]
    cases r with
    | nil => exact List.append_nil cs
    | cons c r => rw [List.takeWhile_cons_of_neg (by simp [hr c rfl]), List.append_nil]
  constructor
  · intro h
    have hnumeral := congrArg (List.takeWhile isNumeral) h
    rw [htake hcs hr, htake hds hs] at hnumeral
    subst hnumeral
    exact ⟨rfl, List.append_cancel_left h⟩
  · rintro ⟨rfl, rfl⟩
    rfl

section Row

variable {α : Type} {text : α → String} {R : α → α → Prop}

/-- A text that starts with the one of `a` does so for nothing but what is related to `a`. -/
def Readable (text : α → String) (R : α → α → Prop) (a : α) : Prop :=
  ∀ b r s, Stops r → Stops s → ((text a).toList ++ r = (text b).toList ++ s ↔ R a b ∧ r = s)

/-- What follows the first text of a row. -/
def rowTail (text : α → String) (as : List α) (rest : List Char) : List Char :=
  as.flatMap (fun a => ',' :: ' ' :: (text a).toList) ++ rest

/-- Each item comes after a comma. -/
theorem rowTail_cons (a : α) (as : List α) (rest : List Char) :
    rowTail text (a :: as) rest = ',' :: ' ' :: ((text a).toList ++ rowTail text as rest) := by
  rw [rowTail, List.flatMap_cons, List.append_assoc]
  rfl

/-- Items in a row are the first one and the rest of the row. -/
theorem toList_join_append (a : α) (as : List α) (rest : List Char) :
    (Text.join ", " ((a :: as).map text)).toList ++ rest
      = (text a).toList ++ rowTail text as rest := by
  have hsep (a : α) : (", " ++ text a).toList = ',' :: ' ' :: (text a).toList :=
    String.toList_append
  rw [List.map_cons, Text.join_cons, String.toList_append, Text.toList_join_empty,
    List.append_assoc, List.map_map, List.flatMap_map]
  simp only [Function.comp_def, hsep]
  rfl

variable {close : Char} (hcomma : close ≠ ',') (hnumeral : isNumeral close = false)
  {as bs : List α} {r s : List Char}

include hnumeral in
/-- A number in a row stops before the next item, and before the closing bracket. -/
theorem stops_rowTail (as : List α) (r : List Char) : Stops (rowTail text as (close :: r)) := by
  cases as with
  | nil => exact .cons hnumeral r
  | cons a as =>
      rw [rowTail_cons]
      exact .cons rfl _

include hcomma hnumeral

/-- The rest of a row is told apart item by item, up to the closing bracket. -/
theorem rowTail_iff (h : ∀ a ∈ as, Readable text R a) :
    rowTail text as (close :: r) = rowTail text bs (close :: s) ↔
      List.Forall₂ R as bs ∧ r = s := by
  induction as generalizing bs with
  | nil =>
      cases bs with
      | nil => simp [rowTail]
      | cons b bs =>
          rw [rowTail_cons]
          refine iff_of_false (fun heq => hcomma (List.cons.inj heq).1) ?_
          rintro ⟨⟨⟩, -⟩
  | cons a as ih =>
      rw [List.forall_mem_cons] at h
      cases bs with
      | nil =>
          rw [rowTail_cons]
          refine iff_of_false (fun heq => hcomma (List.cons.inj heq).1.symm) ?_
          rintro ⟨⟨⟩, -⟩
      | cons b bs =>
          rw [rowTail_cons, rowTail_cons, List.cons_inj_right, List.cons_inj_right,
            h.1 b _ _ (stops_rowTail hnumeral as r) (stops_rowTail hnumeral bs s), ih h.2,
            List.forall₂_cons, and_assoc]

/-- Where each text can be read, so can a row of them that is closed by a mark that starts none. -/
theorem join_append_iff (hfirst : ∀ a rest rest', (text a).toList ++ rest ≠ close :: rest')
    (h : ∀ a ∈ as, Readable text R a) :
    (Text.join ", " (as.map text)).toList ++ close :: r
        = (Text.join ", " (bs.map text)).toList ++ close :: s ↔
      List.Forall₂ R as bs ∧ r = s := by
  cases as with
  | nil =>
      cases bs with
      | nil => simp [Text.join]
      | cons b bs =>
          rw [toList_join_append]
          refine iff_of_false (fun heq => hfirst b _ _ heq.symm) ?_
          rintro ⟨⟨⟩, -⟩
  | cons a as =>
      rw [List.forall_mem_cons] at h
      cases bs with
      | nil =>
          rw [toList_join_append]
          refine iff_of_false (fun heq => hfirst a _ _ heq) ?_
          rintro ⟨⟨⟩, -⟩
      | cons b bs =>
          rw [toList_join_append, toList_join_append,
            h.1 b _ _ (stops_rowTail hnumeral as r) (stops_rowTail hnumeral bs s),
            rowTail_iff hcomma hnumeral h.2, List.forall₂_cons, and_assoc]

end Row

/-! ## Literals -/

namespace Language

open Json

/-- The literal of a field of an object. -/
def pythonField (f : String × Json) : String := quoted f.1 ++ ": " ++ pythonLiteral f.2

/-- Items are written one by one. -/
theorem pythonItems_eq (js : List Json) : pythonItems js = js.map pythonLiteral := by
  induction js with
  | nil => rfl
  | cons j js ih => rw [pythonItems, ih, List.map_cons]

/-- So are fields. -/
theorem pythonFields_eq (fs : List (String × Json)) : pythonFields fs = fs.map pythonField := by
  induction fs with
  | nil => rfl
  | cons f fs ih => rw [pythonFields, ih, List.map_cons, pythonField]

/-- An array is a row in square brackets. -/
theorem pythonLiteral_array_append (items : List Json) (r : List Char) :
    (pythonLiteral (.array items)).toList ++ r
      = '[' :: ((Text.join ", " (items.map pythonLiteral)).toList ++ ']' :: r) := by
  simp [pythonLiteral, pythonItems_eq]

/-- An object is a row in curly brackets. -/
theorem pythonLiteral_object_append (fields : List (String × Json)) (r : List Char) :
    (pythonLiteral (.object fields)).toList ++ r
      = '\x7b' :: ((Text.join ", " (fields.map pythonField)).toList ++ '\x7d' :: r) := by
  simp [pythonLiteral, pythonFields_eq]

/-- A literal begins with a character that tells the kind of the value. -/
theorem exists_first (v : Json) (r : List Char) :
    ∃ c cs, (pythonLiteral v).toList ++ r = c :: cs ∧ Kind.ofFirst? c = some v.kind := by
  cases v with
  | null => exact ⟨'N', _, rfl, rfl⟩
  | bool b =>
      cases b with
      | false => exact ⟨'F', _, rfl, rfl⟩
      | true => exact ⟨'T', _, rfl, rfl⟩
  | number n =>
      obtain ⟨hne, hmem⟩ := n.numeral_aggregate
      obtain ⟨c, cs, heq⟩ := List.exists_cons_of_ne_nil hne
      rw [heq, List.forall_mem_cons] at hmem
      refine ⟨c, cs ++ r, by rw [pythonLiteral, heq, List.cons_append], ?_⟩
      rw [Kind.ofFirst?, if_pos hmem.1, kind]
  | string s => exact ⟨'"', _, by rw [pythonLiteral, quoted, String.toList_ofList]; rfl, rfl⟩
  | array items => exact ⟨'[', _, pythonLiteral_array_append items r, rfl⟩
  | object fields => exact ⟨'\x7b', _, pythonLiteral_object_append fields r, rfl⟩

/-- So texts that begin alike are those of values of the same kind. -/
theorem kind_eq_of_append {v w : Json} {r s : List Char}
    (h : (pythonLiteral v).toList ++ r = (pythonLiteral w).toList ++ s) : v.kind = w.kind := by
  obtain ⟨c, cs, hv, hc⟩ := exists_first v r
  obtain ⟨d, ds, hw, hd⟩ := exists_first w s
  obtain ⟨rfl, -⟩ := List.cons.inj (hv.symm.trans (h.trans hw))
  exact Option.some.inj (hc.symm.trans hd)

/-- Only values of one kind are to be compared. -/
theorem readable_of_kind {v : Json}
    (h : ∀ w, v.kind = w.kind → ∀ r s, Stops r → Stops s →
      ((pythonLiteral v).toList ++ r = (pythonLiteral w).toList ++ s ↔ v.Alike w ∧ r = s)) :
    Readable pythonLiteral Alike v := by
  intro w r s hr hs
  by_cases hkind : v.kind = w.kind
  · exact h w hkind r s hr hs
  · exact iff_of_false (mt kind_eq_of_append hkind) fun halike => hkind halike.1.kind_eq

/-- A field is read back if its value is. -/
theorem readable_field {f : String × Json} (h : Readable pythonLiteral Alike f.2) :
    Readable pythonField AlikeField f := by
  obtain ⟨k, v⟩ := f
  rintro ⟨k', w⟩ r s hr hs
  have hfield (k : String) (v : Json) (r : List Char) : (pythonField (k, v)).toList ++ r
      = (quoted k).toList ++ (':' :: ' ' :: ((pythonLiteral v).toList ++ r)) := by
    simp [pythonField]
  rw [hfield, hfield, quoted_append, List.cons_inj_right, List.cons_inj_right, h w r s hr hs]
  constructor
  · rintro ⟨rfl, halike, hrest⟩
    exact ⟨.mk k halike, hrest⟩
  · rintro ⟨⟨k, halike⟩, hrest⟩
    exact ⟨rfl, halike, hrest⟩

theorem boolLiteral_append {a b : Bool} {r s : List Char} :
    (pythonLiteral (.bool a)).toList ++ r = (pythonLiteral (.bool b)).toList ++ s ↔
      a = b ∧ r = s := by
  cases a <;> cases b <;> simp [pythonLiteral, boolLiteral]

/-- No literal begins with a closing bracket. -/
theorem literal_ne_square (v : Json) (r s : List Char) :
    (pythonLiteral v).toList ++ r ≠ ']' :: s := by
  intro h
  obtain ⟨c, cs, hv, hc⟩ := exists_first v r
  obtain ⟨rfl, -⟩ := List.cons.inj (hv.symm.trans h)
  cases hc

theorem field_ne_curly (f : String × Json) (r s : List Char) :
    (pythonField f).toList ++ r ≠ '\x7d' :: s := by
  intro h
  rw [pythonField, quoted] at h
  simp [quotedChars] at h

mutual

/-- The literal of a value is read as that value, up to numbers of the same text. -/
theorem readable_pythonLiteral (v : Json) : Readable pythonLiteral Alike v := by
  refine readable_of_kind fun w hkind r s hr hs => ?_
  cases v with
  | null =>
      cases w with
      | null => simp [Alike.null]
      | _ => cases hkind
  | bool a =>
      cases w with
      | bool b => rw [Alike.bool_iff, boolLiteral_append]
      | _ => cases hkind
  | number m =>
      cases w with
      | number n =>
          rw [Alike.number_iff, ← String.toList_inj]
          exact m.numeral_aggregate.append_iff n.numeral_aggregate hr hs
      | _ => cases hkind
  | string a =>
      cases w with
      | string b =>
          rw [Alike.string_iff]
          exact quoted_append
      | _ => cases hkind
  | array items =>
      cases w with
      | array items' =>
          rw [pythonLiteral_array_append, pythonLiteral_array_append, List.cons_inj_right,
            Alike.array_iff]
          exact join_append_iff (by decide) (by decide) literal_ne_square (readable_items items)
      | _ => cases hkind
  | object fields =>
      cases w with
      | object fields' =>
          rw [pythonLiteral_object_append, pythonLiteral_object_append, List.cons_inj_right,
            Alike.object_iff]
          exact join_append_iff (by decide) (by decide) field_ne_curly (readable_fields fields)
      | _ => cases hkind

/-- So are all items of an array. -/
theorem readable_items (js : List Json) : ∀ j ∈ js, Readable pythonLiteral Alike j := by
  cases js with
  | nil => exact nofun
  | cons j js => exact List.forall_mem_cons.mpr ⟨readable_pythonLiteral j, readable_items js⟩

/-- And so are all fields of an object. -/
theorem readable_fields (fs : List (String × Json)) :
    ∀ f ∈ fs, Readable pythonField AlikeField f := by
  cases fs with
  | nil => exact nofun
  | cons f fs =>
      obtain ⟨k, v⟩ := f
      exact List.forall_mem_cons.mpr ⟨readable_field (readable_pythonLiteral v), readable_fields fs⟩

end

/-- No two values have the same literal, numbers of the same text apart. -/
theorem pythonLiteral_eq_iff (v w : Json) : pythonLiteral v = pythonLiteral w ↔ v.Alike w := by
  have hread := readable_pythonLiteral v w [] [] nofun nofun
  rwa [List.append_nil, List.append_nil, String.toList_inj, and_iff_left rfl] at hread

end Language

end ClassSchema
