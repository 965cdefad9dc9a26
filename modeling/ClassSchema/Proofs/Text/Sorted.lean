import Mathlib.Data.List.Forall2
import Mathlib.Data.List.Induction
import Mathlib.Data.List.Sort
import Mathlib.Data.String.Basic
import ClassSchema.Text.Sorted

/-! # Lists of names without repetition

`nameSet` lists each of the given names once, in increasing order, and a list is determined by its
members and an order in which it increases. `firstOccurrences` lists each where it is met first. -/

namespace ClassSchema

/-- A name is added. -/
@[simp] theorem mem_insertName {m n : String} {ms : List String} :
    m ∈ insertName n ms ↔ m = n ∨ m ∈ ms := by
  induction ms with
  | nil => simp [insertName]
  | cons k ks ih =>
      unfold insertName
      split
      · simp
      · split
        · subst n
          simp
        · simp only [List.mem_cons, ih, or_left_comm]

/-- Names stay sorted. -/
theorem insertName_increasing {n : String} {ms : List String} (h : ms.Pairwise (· < ·)) :
    (insertName n ms).Pairwise (· < ·) := by
  induction ms with
  | nil => simp [insertName]
  | cons k ks ih =>
      obtain ⟨hk, hks⟩ := List.pairwise_cons.mp h
      unfold insertName
      split
      · rename_i hlt
        refine List.pairwise_cons.mpr ⟨?_, h⟩
        intro m hm
        rcases List.mem_cons.mp hm with rfl | hm
        · exact hlt
        · exact lt_trans hlt (hk m hm)
      · rename_i hnlt
        split
        · exact h
        · rename_i hne
          refine List.pairwise_cons.mpr ⟨?_, ih hks⟩
          intro m hm
          rcases mem_insertName.mp hm with rfl | hm
          · exact lt_of_le_of_ne (not_lt.mp hnlt) (Ne.symm hne)
          · exact hk m hm

private theorem mem_foldl_insertName {m : String} (names set : List String) :
    m ∈ names.foldl (fun set n => insertName n set) set ↔ m ∈ names ∨ m ∈ set := by
  induction names generalizing set with
  | nil => simp
  | cons n ns ih =>
      simp only [List.foldl_cons, ih, mem_insertName, List.mem_cons, or_assoc, or_left_comm]

private theorem foldl_insertName_increasing (names : List String) {set : List String}
    (h : set.Pairwise (· < ·)) :
    (names.foldl (fun set n => insertName n set) set).Pairwise (· < ·) := by
  induction names generalizing set with
  | nil => exact h
  | cons n ns ih => exact ih (insertName_increasing h)

/-- A set has the names that it is made from. -/
@[simp] theorem mem_nameSet {m : String} {names : List String} :
    m ∈ nameSet names ↔ m ∈ names := by
  simp [nameSet, mem_foldl_insertName]

/-- Its names are sorted. -/
theorem nameSet_increasing (names : List String) : (nameSet names).Pairwise (· < ·) :=
  foldl_insertName_increasing names .nil

/-- So no name is there twice. -/
theorem nameSet_nodup (names : List String) : (nameSet names).Nodup :=
  (nameSet_increasing names).imp ne_of_lt

/-- Increasing lists with the same members are the same. -/
theorem eq_of_increasing {ms ns : List String} (hm : ms.Pairwise (· < ·))
    (hn : ns.Pairwise (· < ·)) (h : ∀ n, n ∈ ms ↔ n ∈ ns) : ms = ns :=
  ((List.perm_ext_iff_of_nodup (hm.imp ne_of_lt) (hn.imp ne_of_lt)).mpr h).eq_of_pairwise
    (fun _ _ _ _ hlt hgt => absurd hlt (lt_asymm hgt)) hm hn

/-- The increasing list of some names is known from its members. -/
theorem nameSet_congr {ms ns : List String} (h : ∀ n, n ∈ ms ↔ n ∈ ns) :
    nameSet ms = nameSet ns := by
  apply eq_of_increasing (nameSet_increasing ms) (nameSet_increasing ns)
  intro n
  rw [mem_nameSet, mem_nameSet, h n]

/-- The keys of an association list are inserted like names. -/
theorem keys_setEntry {α : Type} (key : String) (a : α) (entries : List (String × α)) :
    (setEntry key a entries).map Prod.fst = insertName key (entries.map Prod.fst) := by
  induction entries with
  | nil => rfl
  | cons e es ih =>
      simp only [setEntry, List.map_cons, insertName]
      split
      · rfl
      · split
        · rename_i h
          rw [List.map_cons, h]
        · rw [List.map_cons, ih]

section Entries

variable {α : Type} {key k : String} {a : α} {entries : List (String × α)}

theorem lookup_cons_eq :
    ((key, a) :: entries).lookup k = if k = key then some a else entries.lookup k := by
  rw [List.lookup_cons]
  by_cases h : k = key
  · rw [if_pos h, beq_iff_eq.mpr h]
  · rw [if_neg h, beq_eq_false_iff_ne.mpr h]

/-- The entry that is set is found under its key, and all others are as before. -/
theorem lookup_setEntry :
    (setEntry key a entries).lookup k = if k = key then some a else entries.lookup k := by
  induction entries with
  | nil => exact lookup_cons_eq
  | cons e es ih =>
      obtain ⟨e, b⟩ := e
      simp only [setEntry]
      split
      · exact lookup_cons_eq
      · split
        · rename_i heq
          rw [lookup_cons_eq, lookup_cons_eq, ← heq]
          split <;> rfl
        · rename_i hne
          rw [lookup_cons_eq, lookup_cons_eq, ih]
          split
          · rename_i hk
            rw [if_neg fun hkey => hne (hkey.symm.trans hk)]
          · rfl

/-- No other entry appears. -/
theorem mem_of_mem_setEntry {e : String × α} (h : e ∈ setEntry key a entries) :
    e = (key, a) ∨ e ∈ entries := by
  induction entries with
  | nil => exact .inl (List.mem_singleton.mp h)
  | cons e' es ih =>
      obtain ⟨k, b⟩ := e'
      simp only [setEntry] at h
      split at h
      · exact List.mem_cons.mp h
      · split at h
        · exact (List.mem_cons.mp h).imp_right (List.mem_cons_of_mem _)
        · rcases List.mem_cons.mp h with rfl | h
          · exact .inr List.mem_cons_self
          · exact (ih h).imp_right (List.mem_cons_of_mem _)

end Entries

/-! ## First occurrences -/

/-- One more name is kept if it is new. -/
theorem firstOccurrences_concat (names : List String) (n : String) :
    firstOccurrences (names ++ [n]) = if n ∈ firstOccurrences names then firstOccurrences names
      else firstOccurrences names ++ [n] := by
  rw [firstOccurrences, List.foldl_append]
  rfl

/-- No name is lost. -/
theorem mem_firstOccurrences {m : String} {names : List String} :
    m ∈ firstOccurrences names ↔ m ∈ names := by
  induction names using List.reverseRecOn with
  | nil => rfl
  | append_singleton names n ih =>
      rw [firstOccurrences_concat, List.mem_append, List.mem_singleton]
      split
      · rename_i hn
        rw [ih]
        refine ⟨.inl, fun h => h.elim id ?_⟩
        rintro rfl
        exact ih.mp hn
      · rw [List.mem_append, List.mem_singleton, ih]

/-- No name is kept twice. -/
theorem firstOccurrences_nodup (names : List String) : (firstOccurrences names).Nodup := by
  induction names using List.reverseRecOn with
  | nil => exact .nil
  | append_singleton names n ih =>
      rw [firstOccurrences_concat]
      split
      · exact ih
      · rename_i hn
        rw [← List.concat_eq_append]
        exact ih.concat hn

/-- Without repetition each occurrence is the first one. -/
theorem firstOccurrences_eq_self {names : List String} (h : names.Nodup) :
    firstOccurrences names = names := by
  induction names using List.reverseRecOn with
  | nil => rfl
  | append_singleton names n ih =>
      obtain ⟨hnames, -, hn⟩ := List.nodup_append.mp h
      have hnew : n ∉ names := fun hmem => hn n hmem n List.mem_cons_self rfl
      rw [firstOccurrences_concat, ih hnames, if_neg hnew]

/-- Names are kept as they are if they are different. -/
theorem firstOccurrences_eq_self_iff {names : List String} :
    firstOccurrences names = names ↔ names.Nodup :=
  ⟨fun h => h ▸ firstOccurrences_nodup names, firstOccurrences_eq_self⟩

/-- A search meets the same element first, with or without repetitions. -/
theorem findSome?_firstOccurrences {α : Type} (f : String → Option α) (names : List String) :
    (firstOccurrences names).findSome? f = names.findSome? f := by
  induction names using List.reverseRecOn with
  | nil => rfl
  | append_singleton names n ih =>
      rw [firstOccurrences_concat, List.findSome?_append]
      split
      · rename_i hn
        rw [ih]
        cases hfound : names.findSome? f with
        | some a => rfl
        | none =>
            have hnone := List.findSome?_eq_none_iff.mp hfound n (mem_firstOccurrences.mp hn)
            rw [List.findSome?_singleton, hnone]
            rfl
      · rw [List.findSome?_append, ih]

/-- The first name is kept. -/
theorem head?_firstOccurrences (names : List String) :
    (firstOccurrences names).head? = names.head? := by
  have hhead (names : List String) : names.head? = names.findSome? some := by
    cases names <;> rfl
  rw [hhead, hhead, findSome?_firstOccurrences]

/-- `met` lists what stands in `names`, each name once and in the order of its first occurrence. -/
structure FirstMet (names met : List String) : Prop where
  nodup : met.Nodup
  mem_iff : ∀ n, n ∈ met ↔ n ∈ names
  ordered : met.Pairwise fun m n => names.idxOf m < names.idxOf n

/-- Names are kept in the order in which they are met. -/
theorem firstOccurrences_ordered (names : List String) :
    (firstOccurrences names).Pairwise fun m n => names.idxOf m < names.idxOf n := by
  induction names using List.reverseRecOn with
  | nil => exact .nil
  | append_singleton names n ih =>
      -- What has been met keeps its place, and a new name comes behind all of it.
      have hkept : (firstOccurrences names).Pairwise fun k m =>
          (names ++ [n]).idxOf k < (names ++ [n]).idxOf m := by
        refine ih.imp_of_mem fun {k m} hk hm hlt => ?_
        rw [List.idxOf_append_of_mem (mem_firstOccurrences.mp hk),
          List.idxOf_append_of_mem (mem_firstOccurrences.mp hm)]
        exact hlt
      rw [firstOccurrences_concat]
      split
      · exact hkept
      · rename_i hn
        refine List.pairwise_append.mpr ⟨hkept, List.pairwise_singleton _ _, ?_⟩
        intro m hm k hk
        rw [List.mem_singleton.mp hk, List.idxOf_append_of_mem (mem_firstOccurrences.mp hm),
          List.idxOf_append_of_notMem (mt mem_firstOccurrences.mpr hn)]
        exact Nat.lt_add_right _ (List.idxOf_lt_length_of_mem (mem_firstOccurrences.mp hm))

/-- These are the names as they are met first. -/
theorem firstMet_iff {names met : List String} :
    FirstMet names met ↔ met = firstOccurrences names := by
  have hfirst : FirstMet names (firstOccurrences names) :=
    ⟨firstOccurrences_nodup names, fun _ => mem_firstOccurrences, firstOccurrences_ordered names⟩
  constructor
  · intro h
    have hperm : met.Perm (firstOccurrences names) := by
      refine (List.perm_ext_iff_of_nodup h.nodup hfirst.nodup).mpr fun n => ?_
      rw [h.mem_iff, hfirst.mem_iff]
    exact hperm.eq_of_pairwise (fun _ _ _ _ hlt hgt => absurd hlt (lt_asymm hgt)) h.ordered
      hfirst.ordered
  · rintro rfl
    exact hfirst

/-! ## Sorting -/

/-- A member is added. -/
theorem insertBy_perm {α : Type} (name : α → String) (a : α) (as : List α) :
    (insertBy name a as).Perm (a :: as) := by
  induction as with
  | nil => exact .refl _
  | cons b bs ih =>
      unfold insertBy
      split
      · exact .refl _
      · exact (ih.cons b).trans (.swap a b bs)

/-- Sorting neither loses nor adds anything. -/
theorem sortBy_perm {α : Type} (name : α → String) (as : List α) : (sortBy name as).Perm as := by
  have key (as sorted : List α) :
      (as.foldl (fun sorted a => insertBy name a sorted) sorted).Perm (as ++ sorted) := by
    induction as generalizing sorted with
    | nil => exact .refl _
    | cons a as ih =>
        refine (ih (insertBy name a sorted)).trans ?_
        exact ((insertBy_perm name a sorted).append_left as).trans List.perm_middle
  have hsorted := key as []
  rw [List.append_nil] at hsorted
  exact hsorted

/-- Related elements with the same name are placed alike. -/
theorem forall₂_insertBy {α : Type} {name : α → String} {R : α → α → Prop}
    (hR : ∀ a b, R a b → name a = name b) {a b : α} (hab : R a b) {as bs : List α}
    (h : List.Forall₂ R as bs) : List.Forall₂ R (insertBy name a as) (insertBy name b bs) := by
  induction h with
  | nil => exact .cons hab .nil
  | cons hcd hrest ih =>
      unfold insertBy
      rw [hR _ _ hab, hR _ _ hcd]
      split
      · exact .cons hab (.cons hcd hrest)
      · exact .cons hcd ih

/-- Related lists are sorted alike, as related members have the same name. -/
theorem forall₂_sortBy {α : Type} {name : α → String} {R : α → α → Prop}
    (hR : ∀ a b, R a b → name a = name b) {as bs : List α} (h : List.Forall₂ R as bs) :
    List.Forall₂ R (sortBy name as) (sortBy name bs) := by
  have key (as bs : List α) (h : List.Forall₂ R as bs) (sorted sorted' : List α)
      (hs : List.Forall₂ R sorted sorted') :
      List.Forall₂ R (as.foldl (fun sorted a => insertBy name a sorted) sorted)
        (bs.foldl (fun sorted a => insertBy name a sorted) sorted') := by
    induction h generalizing sorted sorted' with
    | nil => exact hs
    | cons hab _ ih => exact ih _ _ (forall₂_insertBy hR hab hs)
  exact key as bs h [] [] .nil

/-- A list without repetition that increases in a total order is the sorted list of its members. -/
theorem eq_mergeSort_of_mem_iff {le : String → String → Bool}
    (trans : ∀ a b c, le a b → le b c → le a c) (total : ∀ a b, le a b || le b a)
    (antisymm : ∀ a b, le a b → le b a → a = b) {sorted names : List String}
    (h : sorted.Pairwise fun a b => le a b) (hs : sorted.Nodup) (hn : names.Nodup)
    (hm : ∀ n, n ∈ sorted ↔ n ∈ names) : sorted = names.mergeSort le := by
  have hperm : sorted.Perm (names.mergeSort le) :=
    ((List.perm_ext_iff_of_nodup hs hn).mpr hm).trans (List.mergeSort_perm names le).symm
  exact hperm.eq_of_pairwise (fun a b _ _ => antisymm a b) h
    (List.pairwise_mergeSort trans total names)

end ClassSchema
