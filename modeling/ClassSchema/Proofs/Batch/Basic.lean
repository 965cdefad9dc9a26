import Mathlib.Data.List.Nodup
import ClassSchema.Proofs.Batch.Passes
import ClassSchema.Proofs.Computation
import ClassSchema.Proofs.Text.Sorted

/-! # Batches of classes with different names

In such a batch a name stands for one class, so that what `order` does to names can be said of
classes: which of them are placed before the first pass, and for which parent the others wait. -/

namespace ClassSchema.Batch

variable {classes : List ClassModel}

/-! ## Names -/

/-- The names of a batch are those of its classes. -/
theorem mem_names {n : String} : n ∈ names classes ↔ n ∈ classes.map ClassModel.name := mem_nameSet

/-- They are sorted. -/
theorem names_increasing : (names classes).Pairwise (· < ·) := nameSet_increasing _

/-- So no name is there twice. -/
theorem names_nodup : (names classes).Nodup := nameSet_nodup _

/-- The seeds are the names that can be placed at once. -/
theorem mem_seeds {n : String} : n ∈ seeds classes ↔ n ∈ names classes ∧ isSeed classes n := by
  simp only [seeds, List.mem_append, List.mem_filter, beq_iff_eq, Bool.and_eq_true, bne_iff_ne]
  constructor
  · rintro (⟨hn, rfl⟩ | ⟨hn, hseed, _⟩)
    · exact ⟨hn, by simp [isSeed]⟩
    · exact ⟨hn, hseed⟩
  · rintro ⟨hn, hseed⟩
    by_cases hroot : n = ClassName.root
    · exact .inl ⟨hn, hroot⟩
    · exact .inr ⟨hn, hseed, hroot⟩

/-- All others have to wait for a parent. -/
theorem mem_later {n : String} : n ∈ later classes ↔ n ∈ names classes ∧ ¬ isSeed classes n := by
  simp [later]

/-- What waits is sorted as well. -/
theorem later_increasing : (later classes).Pairwise (· < ·) :=
  names_increasing.sublist List.filter_sublist

/-- The pass of a batch that places a name. -/
abbrev PassOf (classes : List ClassModel) : Nat → String → Prop :=
  PlacedIn (parentName classes) (seeds classes) (later classes)

/-- The passes of a batch are those over the names that wait, from the seeds on. -/
theorem placement_completes :
    Completes (parentName classes) (seeds classes) (later classes) 0 (placement classes) :=
  (After.zero later_increasing).passes (Nat.le_succ _)

/-! ## Classes -/

/-- A class that is placed before the first pass: the root, or a class without parent. -/
def Seeded (c : ClassModel) : Prop := c.name = ClassName.root ∨ c.parent = none

instance : DecidablePred Seeded := fun c =>
  inferInstanceAs (Decidable (c.name = ClassName.root ∨ c.parent = none))

/-- A class that is not seeded names a parent. -/
theorem exists_localParent {c : ClassModel} (h : ¬ Seeded c) : ∃ p, c.localParent = some p := by
  cases hp : c.parent with
  | none => exact absurd (.inr hp) h
  | some p => exact ⟨_, by rw [ClassModel.localParent, hp, Option.map_some]⟩

section Distinct

variable (distinct : (classes.map ClassModel.name).Nodup)
include distinct

/-- A class is known by its name. -/
theorem eq_of_name_eq {c d : ClassModel} (hc : c ∈ classes) (hd : d ∈ classes)
    (h : c.name = d.name) : c = d :=
  List.inj_on_of_nodup_map distinct hc hd h

/-- The parent that is looked up for a name is that of its class. -/
theorem parentOf?_name {c : ClassModel} (hc : c ∈ classes) :
    parentOf? classes c.name = c.localParent := by
  unfold parentOf?
  cases hfind : classes.reverse.find? fun d => d.name == c.name && d.parent.isSome with
  | none =>
      have hnone := List.find?_eq_none.mp hfind c (List.mem_reverse.mpr hc)
      cases hp : c.parent with
      | none => rw [ClassModel.localParent, hp]; rfl
      | some p => simp [hp] at hnone
  | some d =>
      have hname := List.find?_some hfind
      simp only [Bool.and_eq_true, beq_iff_eq] at hname
      have hd := List.mem_reverse.mp (List.mem_of_find?_eq_some hfind)
      rw [eq_of_name_eq distinct hd hc hname.1]
      rfl

/-- A class is a seed by its name if it is seeded. -/
theorem isSeed_name {c : ClassModel} (hc : c ∈ classes) : isSeed classes c.name ↔ Seeded c := by
  simp [isSeed, Seeded, parentOf?_name distinct hc, ClassModel.localParent]

theorem parentName_name {c : ClassModel} (hc : c ∈ classes) {p : String}
    (hp : c.localParent = some p) : parentName classes c.name = p := by
  rw [parentName, parentOf?_name distinct hc, hp, Option.getD_some]

/-- The seeds are the names of the seeded classes. -/
theorem name_mem_seeds {c : ClassModel} (hc : c ∈ classes) :
    c.name ∈ seeds classes ↔ Seeded c := by
  rw [mem_seeds, isSeed_name distinct hc, mem_names]
  exact and_iff_right (List.mem_map_of_mem hc)

/-- The names that wait are those of the other classes. -/
theorem name_mem_later {c : ClassModel} (hc : c ∈ classes) :
    c.name ∈ later classes ↔ ¬ Seeded c := by
  rw [mem_later, isSeed_name distinct hc, mem_names]
  exact and_iff_right (List.mem_map_of_mem hc)

/-- Each seed is the name of a seeded class. -/
theorem mem_seeds_iff {n : String} :
    n ∈ seeds classes ↔ ∃ c ∈ classes, c.name = n ∧ Seeded c := by
  constructor
  · intro h
    obtain ⟨c, hc, rfl⟩ := List.mem_map.mp (mem_names.mp (mem_seeds.mp h).1)
    exact ⟨c, hc, rfl, (name_mem_seeds distinct hc).mp h⟩
  · rintro ⟨c, hc, rfl, h⟩
    exact (name_mem_seeds distinct hc).mpr h

/-- Each name that waits is that of a class which is not seeded. -/
theorem mem_later_iff {n : String} :
    n ∈ later classes ↔ ∃ c ∈ classes, c.name = n ∧ ¬ Seeded c := by
  constructor
  · intro h
    obtain ⟨c, hc, rfl⟩ := List.mem_map.mp (mem_names.mp (mem_later.mp h).1)
    exact ⟨c, hc, rfl, (name_mem_later distinct hc).mp h⟩
  · rintro ⟨c, hc, rfl, h⟩
    exact (name_mem_later distinct hc).mpr h

end Distinct

/-- If the passes leave no name, each has a number. -/
theorem exists_passOf (hstuck : (placement classes).2 = []) {n : String}
    (hn : n ∈ later classes) : ∃ k, PassOf classes k n := by
  by_contra hnone
  have := (placement_completes.mem_snd n).mpr ⟨hn, hnone⟩
  rw [hstuck] at this
  exact List.not_mem_nil this

/-- If no class is stuck, all that wait are placed. -/
theorem mem_placement_fst (hstuck : (placement classes).2 = []) {n : String} :
    n ∈ (placement classes).1 ↔ n ∈ later classes := by
  rw [placement_completes.mem_fst]
  constructor
  · rintro ⟨k, _, hk⟩
    exact hk.mem
  · intro hn
    obtain ⟨k, hk⟩ := exists_passOf hstuck hn
    exact ⟨k, hk.pos, hk⟩

/-- No name is placed twice. -/
theorem placement_fst_nodup : (placement classes).1.Nodup := by
  refine placement_completes.before.imp fun h heq => ?_
  subst heq
  exact h.asymm h

/-- All that `order` can do: name a class whose parent is missing, or else the first class that is
left, or succeed because none is. -/
theorem order_cases :
    (∃ n, (placement classes).2.find? (lacksParent classes) = some n ∧
      order classes = .error (.unresolvedParent n (parentName classes n))) ∨
    (∃ n ns, (placement classes).2.find? (lacksParent classes) = none ∧
      (placement classes).2 = n :: ns ∧
      order classes = .error (.inheritanceCycle n (parentName classes n))) ∨
    ((placement classes).2 = [] ∧
      order classes = .ok ⟨seeds classes ++ (placement classes).1, namespaces classes⟩) := by
  cases hfind : (placement classes).2.find? (lacksParent classes) with
  | some n => exact .inl ⟨n, rfl, by simp only [order, hfind]⟩
  | none =>
      cases hstuck : (placement classes).2 with
      | nil => exact .inr (.inr ⟨rfl, by simp only [order, hstuck, List.find?_nil]⟩)
      | cons n ns =>
          rw [hstuck] at hfind
          exact .inr (.inl ⟨n, ns, rfl, rfl, by simp only [order, hstuck, hfind]⟩)

/-- An order exists if no class is stuck. It has the seeds first, then what was placed after them.
-/
theorem order_eq_ok {o : Order} (h : order classes = .ok o) : (placement classes).2 = [] ∧
    o = ⟨seeds classes ++ (placement classes).1, namespaces classes⟩ := by
  obtain ⟨n, _, herror⟩ | ⟨n, ns, _, _, herror⟩ | ⟨hstuck, hok⟩ := @order_cases classes
  · cases herror.symm.trans h
  · cases herror.symm.trans h
  · exact ⟨hstuck, Except.ok.inj (h.symm.trans hok)⟩

/-! ## Valid batches -/

/-- Classes pass if their names are new and different, and none is its own parent. -/
theorem validateFrom_eq_ok {seen : List String} (h : validateFrom seen classes = .ok ()) :
    (classes.map ClassModel.name).Nodup ∧ (∀ n ∈ classes.map ClassModel.name, n ∉ seen) ∧
      ∀ c ∈ classes, c.localParent ≠ some c.name := by
  induction classes generalizing seen with
  | nil => exact ⟨.nil, nofun, nofun⟩
  | cons c cs ih =>
      unfold validateFrom at h
      obtain ⟨hnew, h⟩ := guard_eq_ok h
      obtain ⟨hself, h⟩ := guard_eq_ok h
      obtain ⟨hnodup, hfree, hselves⟩ := ih h
      refine ⟨List.nodup_cons.mpr ⟨?_, hnodup⟩, ?_, List.forall_mem_cons.mpr ⟨hself, hselves⟩⟩
      · intro hmem
        exact hfree _ hmem List.mem_cons_self
      · rw [List.map_cons, List.forall_mem_cons]
        exact ⟨hnew, fun n hn hseen => hfree n hn (List.mem_cons_of_mem _ hseen)⟩

/-- The classes of a valid batch have different names. -/
theorem names_nodup_of_validate (h : validate classes = .ok ()) :
    (classes.map ClassModel.name).Nodup :=
  (validateFrom_eq_ok h).1

end ClassSchema.Batch
