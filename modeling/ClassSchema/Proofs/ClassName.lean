import Mathlib.Data.List.TakeWhile
import ClassSchema.ClassName
import ClassSchema.Proofs.Text.Cut
import ClassSchema.TypeExpr.Render

/-! # Qualified names

A name is plain, or a plain name, `::` and another name. What is known of such names is how they are
qualified, taken apart and written in a type. -/

namespace ClassSchema

/-- The part before the first `c`, or the whole text if there is none. -/
def Text.upTo (c : Char) (s : String) : String := String.ofList (s.toList.takeWhile (· != c))

section UpTo

variable {c : Char} {s : String} (h : c ∉ s.toList)

include h

theorem Text.forall_bne : ∀ d ∈ s.toList, (d != c) = true := by
  intro d hd
  rw [bne_iff_ne]
  rintro rfl
  exact h hd

/-- A text without the character is kept. -/
theorem Text.upTo_of_not_mem : upTo c s = s := by
  rw [upTo, List.takeWhile_eq_self_iff.mpr (forall_bne h), String.ofList_toList]

/-- What comes before the first such character is kept. -/
theorem Text.upTo_append {t : String} {cs : List Char} (ht : t.toList = c :: cs) :
    upTo c (s ++ t) = s := by
  rw [upTo, String.toList_append, ht, List.takeWhile_append_of_pos (forall_bne h),
    List.takeWhile_cons_of_neg (by simp), List.append_nil, String.ofList_toList]

end UpTo

namespace ClassName

/-- Without namespace. -/
def IsPlain (name : String) : Prop := ':' ∉ name.toList ∧ '.' ∉ name.toList

instance : DecidablePred IsPlain := fun _ => inferInstanceAs (Decidable (_ ∧ _))

/-- Plain names with `::` between them. -/
inductive IsQualified : String → Prop
  | plain {name : String} (h : IsPlain name) : IsQualified name
  | under {first rest : String} (h : IsPlain first) (hrest : IsQualified rest) :
      IsQualified (first ++ "::" ++ rest)

/-- A name with `::` in it. -/
def Separated (name : String) : Prop := ∃ first rest, name = first ++ "::" ++ rest

/-- The part of a name before its first `::`. -/
def Under (ns name : String) : Prop :=
  (∃ rest, name = ns ++ "::" ++ rest) ∧
    ∀ first rest, name = first ++ "::" ++ rest → ns.length ≤ first.length

variable {ns name first rest last : String}

/-- There are no dots in a qualified name. -/
theorem IsQualified.dot_not_mem (h : IsQualified name) : '.' ∉ name.toList := by
  induction h with
  | plain h => exact h.2
  | under h _ ih =>
      rw [String.toList_append, String.toList_append]
      simp [h.2, ih]

/-- A name with a namespace ends in a plain name. -/
theorem IsQualified.exists_last (h : IsQualified name) (hcolon : ':' ∈ name.toList) :
    ∃ ns last, name = ns ++ "::" ++ last ∧ ':' ∉ last.toList := by
  induction h with
  | plain h => exact absurd hcolon h.1
  | @under first rest h _ ih =>
      by_cases hrest : ':' ∈ rest.toList
      · obtain ⟨ns, last, rfl, hlast⟩ := ih hrest
        refine ⟨first ++ "::" ++ ns, last, ?_, hlast⟩
        simp only [String.append_assoc]
      · exact ⟨first, rest, rfl, hrest⟩

/-! ## Taking names apart -/

/-- A name is put together from its first part and the rest. -/
theorem cut?_separator (h : Text.cut? "::" name = some (first, rest)) :
    name = first ++ "::" ++ rest := by
  obtain ⟨⟨before, after⟩, hcut, heq⟩ := Option.map_eq_some_iff.mp h
  cases heq
  rw [← String.toList_inj]
  simpa using Chars.cut?_eq_some hcut

/-- A name with a separator is cut at the first one. -/
theorem exists_cut?_separator (first rest : String) :
    ∃ before after, Text.cut? "::" (first ++ "::" ++ rest) = some (before, after) ∧
      before.length ≤ first.length := by
  obtain ⟨before, after, hcut, hlength⟩ :=
    Chars.exists_cut? "::".toList first.toList rest.toList
  refine ⟨String.ofList before, String.ofList after, ?_, ?_⟩
  · rw [Text.cut?, String.toList_append, String.toList_append, hcut]
    rfl
  · rw [← String.length_toList, ← String.length_toList, String.toList_ofList]
    exact hlength

/-- A name can be cut if it is separated. -/
theorem isSome_cut?_iff : (Text.cut? "::" name).isSome = true ↔ Separated name := by
  constructor
  · intro h
    obtain ⟨⟨first, rest⟩, hcut⟩ := Option.isSome_iff_exists.mp h
    exact ⟨first, rest, cut?_separator hcut⟩
  · rintro ⟨first, rest, rfl⟩
    obtain ⟨before, after, hcut, -⟩ := exists_cut?_separator first rest
    rw [hcut]
    rfl

/-- The first part of a name is the namespace that it is under. -/
theorem map_fst_cut?_iff : (Text.cut? "::" name).map Prod.fst = some ns ↔ Under ns name := by
  constructor
  · intro h
    obtain ⟨⟨first, rest⟩, hcut, rfl⟩ := Option.map_eq_some_iff.mp h
    refine ⟨⟨rest, cut?_separator hcut⟩, ?_⟩
    rintro u v rfl
    obtain ⟨before, after, hcut', hlength⟩ := exists_cut?_separator u v
    cases hcut.symm.trans hcut'
    exact hlength
  · rintro ⟨⟨rest, rfl⟩, hleast⟩
    obtain ⟨before, after, hcut, hlength⟩ := exists_cut?_separator ns rest
    have heq := cut?_separator hcut
    have hns : ns = before := by
      have hlist := congrArg String.toList heq
      simp only [String.toList_append, List.append_assoc] at hlist
      have hsame : ns.toList.length = before.toList.length := by
        rw [String.length_toList, String.length_toList]
        exact Nat.le_antisymm (hleast before after heq) hlength
      exact String.toList_inj.mp (List.append_inj hlist hsame).1
    rw [hcut, hns]
    rfl

instance : DecidablePred Separated := fun _ => decidable_of_iff _ isSome_cut?_iff

instance : Decidable (Under ns name) := decidable_of_iff _ map_fst_cut?_iff

theorem Separated.colon_mem (h : Separated name) : ':' ∈ name.toList := by
  obtain ⟨first, rest, rfl⟩ := h
  rw [String.toList_append, String.toList_append]
  simp

/-- A bare name has no namespace. -/
theorem parts_of_not_mem (h : ':' ∉ name.toList) : parts name = (none, name) := by
  have hcut : Text.cutLast? "::" name = none := by
    rw [Text.cutLast?, Option.map_eq_none_iff]
    exact Chars.cutLast?_eq_none [':'] h
  rw [parts, hcut]

/-- The last part of a name is what comes after all separators. -/
theorem parts_append (h : ':' ∉ last.toList) : parts (ns ++ "::" ++ last) = (some ns, last) := by
  have hsep : "::".toList = [':'] ++ [':'] := rfl
  have hcut : Text.cutLast? "::" (ns ++ "::" ++ last) = some (ns, last) := by
    have hlast := Chars.cutLast?_append [':'] ns.toList h
    rw [Text.cutLast?, String.toList_append, String.toList_append, hsep, hlast]
    simp only [Option.map_some, String.ofList_toList]
  rw [parts, hcut]

/-- The parts of a name make up the name. -/
theorem parts_eq_some (h : parts name = (some ns, last)) : name = ns ++ "::" ++ last := by
  unfold parts at h
  cases hcut : Text.cutLast? "::" name with
  | none =>
      rw [hcut] at h
      cases h
  | some pieces =>
      rw [hcut] at h
      cases h
      obtain ⟨⟨before, after⟩, hlast, heq⟩ := Option.map_eq_some_iff.mp hcut
      obtain ⟨⟨after', before'⟩, hreverse, heq'⟩ := Option.map_eq_some_iff.mp hlast
      cases heq
      cases heq'
      have hname := congrArg List.reverse (Chars.cut?_eq_some hreverse)
      rw [← String.toList_inj]
      simpa using hname

/-- A separated name has a namespace. -/
theorem Separated.exists_parts (h : Separated name) : ∃ ns last, parts name = (some ns, last) := by
  obtain ⟨first, rest, rfl⟩ := h
  obtain ⟨after, before, hcut, -⟩ :=
    Chars.exists_cut? "::".toList.reverse rest.toList.reverse first.toList.reverse
  have hlast : Text.cutLast? "::" (first ++ "::" ++ rest)
      = some (String.ofList before.reverse, String.ofList after.reverse) := by
    have hreverse : (first ++ "::" ++ rest).toList.reverse
        = rest.toList.reverse ++ "::".toList.reverse ++ first.toList.reverse := by simp
    rw [Text.cutLast?, Chars.cutLast?, hreverse, hcut]
    rfl
  exact ⟨_, _, by rw [parts, hlast]⟩

/-- The last part of a qualified name is a bare name. -/
theorem IsQualified.not_mem_last (h : IsQualified name) : ':' ∉ (parts name).2.toList := by
  by_cases hcolon : ':' ∈ name.toList
  · obtain ⟨ns, last, rfl, hlast⟩ := h.exists_last hcolon
    rw [parts_append hlast]
    exact hlast
  · rw [parts_of_not_mem hcolon]
    exact hcolon

/-- The project is taken off, or it does not stand in front. -/
theorem localTo_cases (ns name : String) : name = ns ++ "::" ++ localTo ns name ∨
    Text.startsWith (ns ++ "::") name = false ∧ localTo ns name = name := by
  unfold localTo
  cases hstrip : Text.stripStart? (ns ++ "::") name with
  | some l => exact .inl (Text.stripStart?_eq_some.mp hstrip)
  | none =>
      refine .inr ⟨?_, rfl⟩
      rw [Text.stripStart?, Option.map_eq_none_iff] at hstrip
      rw [Text.startsWith, hstrip]
      rfl

/-- Within its own namespace a class is called without it. -/
theorem localTo_append : localTo ns (ns ++ "::" ++ rest) = rest := by
  rw [localTo, Text.stripStart?_eq_some.mpr rfl]
  rfl

/-- A bare name is the same everywhere. -/
theorem localTo_of_not_mem (h : ':' ∉ name.toList) : localTo ns name = name := by
  rcases localTo_cases ns name with heq | ⟨-, heq⟩
  · exact absurd (Separated.colon_mem ⟨ns, _, heq⟩) h
  · exact heq

/-- A local name has no dots either. -/
theorem IsQualified.dot_not_mem_localTo (h : IsQualified name) (ns : String) :
    '.' ∉ (localTo ns name).toList := by
  intro hdot
  apply h.dot_not_mem
  rcases localTo_cases ns name with heq | ⟨-, heq⟩
  · rw [heq, String.toList_append]
    exact List.mem_append_right _ hdot
  · exact heq ▸ hdot

/-! ## Qualifying names -/

/-- A name with a namespace is left as it is. -/
theorem qualify_append : qualify (first ++ "::" ++ rest) ns = first ++ "::" ++ rest := by
  rw [qualify, if_pos (isSome_cut?_iff.mpr ⟨first, rest, rfl⟩)]

/-- A bare name other than the root is put under the namespace. -/
theorem qualify_bare (h : ¬ Separated name) (hroot : name ≠ root) :
    qualify name ns = ns ++ "::" ++ name := by
  rw [qualify, if_neg (mt isSome_cut?_iff.mp h), if_neg hroot]

/-- So is a name without any colon. -/
theorem qualify_of_not_mem (h : ':' ∉ name.toList) (hroot : name ≠ root) :
    qualify name ns = ns ++ "::" ++ name :=
  qualify_bare (mt Separated.colon_mem h) hroot

/-- A qualified name has a namespace, whatever it was before. -/
theorem separated_qualify (name ns : String) : Separated (qualify name ns) := by
  unfold qualify
  split
  · rename_i hcut
    exact isSome_cut?_iff.mp hcut
  · split
    · exact ⟨rootNamespace, root, rfl⟩
    · exact ⟨ns, name, rfl⟩

/-- The root goes by two names. -/
theorem isRoot_iff : isRoot name = true ↔ name = root ∨ name = qualifiedRoot := by
  rw [isRoot, Bool.or_eq_true, beq_iff_eq, beq_iff_eq]

/-- A qualified name is the root only if it is its qualified name. -/
theorem isRoot_qualify : isRoot (qualify name ns) = true ↔ qualify name ns = qualifiedRoot := by
  rw [isRoot_iff, or_iff_right]
  intro heq
  have hseparated := separated_qualify name ns
  rw [heq] at hseparated
  exact absurd hseparated (by decide)

/-- The root is qualified in one way, whatever the namespace is. -/
theorem qualify_of_isRoot (h : isRoot name = true) : qualify name ns = qualifiedRoot := by
  rcases isRoot_iff.mp h with rfl | rfl
  · have hcut : ¬ (Text.cut? "::" root).isSome = true := by decide
    rw [qualify, if_neg hcut, if_pos rfl]
  · exact @qualify_append ns rootNamespace root

/-- No other class gets the name of the root. -/
theorem qualify_ne_root (h : IsQualified name) (hroot : isRoot name = false) :
    qualify name ns ≠ qualifiedRoot := by
  obtain ⟨hplain, hqualified⟩ := not_or.mp (mt isRoot_iff.mpr (Bool.eq_false_iff.mp hroot))
  by_cases hcolon : ':' ∈ name.toList
  · obtain ⟨first, last, rfl, -⟩ := h.exists_last hcolon
    rw [qualify_append]
    exact hqualified
  · rw [qualify_of_not_mem hcolon hplain]
    intro heq
    have hparts : parts (ns ++ "::" ++ name) = (some ns, name) := parts_append hcolon
    rw [heq] at hparts
    exact hplain (congrArg Prod.snd hparts).symm

end ClassName

/-! ## Writing names in types -/

namespace TypeExpr

open ClassName

variable {ns name first rest : String} {isConst : Bool} {pointer : Pointer}

/-- The root is called by its bare name in Python. -/
theorem renderReference_root (h : isRoot name = true) :
    renderReference ns name isConst pointer .python = root := by
  rw [renderReference, qualify_of_isRoot h, if_pos rfl]

/-- The classes of the project are called by their local names. -/
theorem renderReference_local (h : IsQualified name) (hroot : isRoot name = false)
    (hlocal : ':' ∉ name.toList ∨ name = ns ++ "::" ++ localTo ns name) :
    renderReference ns name isConst pointer .python = localTo ns name := by
  have hqualified : qualify name ns = ns ++ "::" ++ localTo ns name := by
    rcases hlocal with hcolon | heq
    · rw [localTo_of_not_mem hcolon]
      apply qualify_of_not_mem hcolon
      exact fun heq => Bool.eq_false_iff.mp hroot (isRoot_iff.mpr (.inl heq))
    · rw [heq, qualify_append, localTo_append]
  have hstrip : Text.stripStart? (ns ++ "::") (qualify name ns) = some (localTo ns name) :=
    Text.stripStart?_eq_some.mpr hqualified
  rw [renderReference, if_neg (qualify_ne_root h hroot), hstrip]

/-- A class of another project is called by its full name. -/
theorem upTo_renderReference (h : IsQualified name) (hroot : isRoot name = false)
    (hcolon : ':' ∈ name.toList) (hforeign : Text.startsWith (ns ++ "::") name = false) :
    Text.upTo '.' (renderReference ns name isConst pointer .python) = Text.upTo ':' name := by
  have hne : qualify name ns ≠ qualifiedRoot := qualify_ne_root h hroot
  cases h with
  | plain h => exact absurd hcolon h.1
  | @under first rest hfirst _ =>
      have hstrip : Text.stripStart? (ns ++ "::") (first ++ "::" ++ rest) = none := by
        rw [Text.stripStart?, Option.map_eq_none_iff]
        exact Option.not_isSome_iff_eq_none.mp (Bool.eq_false_iff.mp hforeign)
      have hreplace : Text.replace "::" "." (first ++ "::" ++ rest)
          = first ++ ("." ++ Text.replace "::" "." rest) := by
        rw [← String.toList_inj]
        simp only [Text.replace, String.toList_append, String.toList_ofList]
        exact (Chars.replace_append [':'] rest.toList hfirst.1).trans (List.append_assoc _ _ _)
      rw [renderReference, if_neg hne, qualify_append, hstrip, hreplace,
        Text.upTo_append hfirst.2 String.toList_append, String.append_assoc,
        Text.upTo_append hfirst.1 String.toList_append]

end TypeExpr

end ClassSchema
