import Mathlib.Data.List.Forall2
import Mathlib.Data.List.Infix
import ClassSchema.Proofs.Text.Cut

/-! # Putting texts in for tokens

Tokens may be replaced one after the other, where each replacement sees what the earlier ones have
put in, or all at once. Both come to the same if the delimiter of the tokens stands nowhere else. -/

namespace ClassSchema

namespace Chars

/-- A parameter between its delimiters. -/
def token (param : List Char) : List Char := '@' :: (param ++ ['@'])

/-- Texts that stand between the parts of a frame. -/
def weave (first : List Char) : (gaps texts : List (List Char)) → List Char
  | gap :: gaps, text :: texts => first ++ text ++ weave gap gaps texts
  | _, _ => first

/-- The parameters can be told apart in a frame: the delimiter stands in the tokens only, and no
parameter is met again behind its token. -/
def Apart : (params gaps : List (List Char)) → Prop
  | param :: params, gap :: gaps => '@' ∉ param ∧ '@' ∉ gap ∧ param ∉ params ∧
      ¬ token param <:+: weave gap gaps (params.map token) ∧ Apart params gaps
  | [], [] => True
  | _, _ => False

instance decidableApart : (params gaps : List (List Char)) → Decidable (Apart params gaps)
  | _ :: params, _ :: gaps =>
      have := decidableApart params gaps
      inferInstanceAs (Decidable (_ ∧ _ ∧ _ ∧ _ ∧ _))
  | [], [] => isTrue trivial
  | [], _ :: _ | _ :: _, [] => isFalse id

/-- There are no marks between tokens. -/
theorem Apart.not_mem_gap {params gaps : List (List Char)} (h : Apart params gaps) :
    ∀ gap ∈ gaps, '@' ∉ gap := by
  induction params generalizing gaps with
  | nil =>
      cases gaps with
      | nil => nofun
      | cons gap gaps => cases h
  | cons param params ih =>
      cases gaps with
      | nil => nofun
      | cons gap gaps =>
          obtain ⟨-, hgap, -, -, h⟩ := h
          exact List.forall_mem_cons.mpr ⟨hgap, ih h⟩

/-- There are none in names, and the names are different. -/
theorem Apart.params {params gaps : List (List Char)} (h : Apart params gaps) :
    (∀ param ∈ params, '@' ∉ param) ∧ params.Nodup := by
  induction params generalizing gaps with
  | nil => exact ⟨nofun, .nil⟩
  | cons param params ih =>
      cases gaps with
      | nil => cases h
      | cons gap gaps =>
          obtain ⟨hparam, -, hnew, -, h⟩ := h
          obtain ⟨hparams, hnodup⟩ := ih h
          exact ⟨List.forall_mem_cons.mpr ⟨hparam, hparams⟩, List.nodup_cons.mpr ⟨hnew, hnodup⟩⟩

section Weave

variable {first : List Char} {gaps texts : List (List Char)}

/-- What comes before the first token. -/
theorem weave_append (before : List Char) :
    weave (before ++ first) gaps texts = before ++ weave first gaps texts := by
  cases gaps with
  | nil => rfl
  | cons gap gaps =>
      cases texts with
      | nil => rfl
      | cons text texts => simp [weave]

/-- A character of the whole is one of its parts. -/
theorem not_mem_weave {c : Char} (hfirst : c ∉ first) (hgaps : ∀ gap ∈ gaps, c ∉ gap)
    (htexts : ∀ text ∈ texts, c ∉ text) : c ∉ weave first gaps texts := by
  induction texts generalizing first gaps with
  | nil => cases gaps <;> exact hfirst
  | cons text texts ih =>
      cases gaps with
      | nil => exact hfirst
      | cons gap gaps =>
          rw [List.forall_mem_cons] at hgaps htexts
          rw [weave, List.mem_append, List.mem_append, not_or, not_or]
          exact ⟨⟨hfirst, htexts.1⟩, ih hgaps.1 hgaps.2 htexts.2⟩

end Weave

/-! ## One after the other -/

/-- A text without the pattern is kept. -/
theorem replace_eq_self {pat new text : List Char} (h : ¬ pat <:+: text) :
    replace pat new text = text := by
  induction text with
  | nil => rfl
  | cons c cs ih =>
      have hprefix : ¬ pat.isPrefixOf (c :: cs) = true := by
        rw [List.isPrefixOf_iff_prefix]
        exact fun hp => h hp.isInfix
      rw [replace, replaceFrom, if_neg hprefix]
      exact congrArg _ (ih fun hcs => h (hcs.trans (List.suffix_cons c cs).isInfix))

/-- No other characters appear. -/
theorem mem_replaceFrom {c : Char} {pat new : List Char} {skip : Nat} {text : List Char}
    (h : c ∈ replaceFrom pat new skip text) : c ∈ new ∨ c ∈ text := by
  fun_induction replaceFrom pat new skip text with
  | case1 => cases h
  | case2 skip d cs ih => exact (ih h).imp_right (List.mem_cons_of_mem d)
  | case3 d cs _ ih =>
      rcases List.mem_append.mp h with h | h
      · exact .inl h
      · exact (ih h).imp_right (List.mem_cons_of_mem d)
  | case4 d cs _ ih =>
      rcases List.mem_cons.mp h with rfl | h
      · exact .inr List.mem_cons_self
      · exact (ih h).imp_right (List.mem_cons_of_mem d)

/-! ## All at once -/

section Substitute

variable {entries : List (List Char × List Char)}

end Substitute

end Chars

end ClassSchema
