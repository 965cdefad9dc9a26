import Mathlib.Logic.Relation
import ClassSchema.Proofs.Batch.Basic

/-! # Batches that cannot be ordered

The passes leave exactly the classes whose chain of parents does not end. Among them are all classes
whose parent is missing, so `order` fails for one of two reasons, and names the least class in
question. -/

namespace ClassSchema.Batch

/-! ## Chains of parents -/

/-- `d` is the parent of `c` in the batch. -/
def ParentIn (classes : List ClassModel) (c d : ClassModel) : Prop :=
  d ∈ classes ∧ c.localParent = some d.name

/-- Where a chain of parents may end: at a class without parent, at the root, and at a class that
derives from the root. -/
def Grounded (c : ClassModel) : Prop :=
  c.parent = none ∨ c.name = ClassName.root ∨
    ∃ p, c.localParent = some p ∧ ClassName.isRoot p = true

/-- The chain of parents of a class ends. -/
def Rooted (classes : List ClassModel) (c : ClassModel) : Prop :=
  ∃ d, Relation.ReflTransGen (ParentIn classes) c d ∧ Grounded d

/-- The parent of a class is neither in the batch nor the root. -/
def Orphan (classes : List ClassModel) (c : ClassModel) : Prop :=
  c.name ≠ ClassName.root ∧ ∃ p, c.localParent = some p ∧
    p ∉ classes.map ClassModel.name ∧ ClassName.isRoot p = false

/-- A class whose chain of parents does not end. -/
def Adrift (classes : List ClassModel) (c : ClassModel) : Prop :=
  c.name ≠ ClassName.root ∧ ¬ Rooted classes c

/-- The class `n` with the parent `p` has the least name of those in the batch that satisfy `P`. -/
def LeastWith (classes : List ClassModel) (P : ClassModel → Prop) (n p : String) : Prop :=
  ∃ c ∈ classes, P c ∧ c.name = n ∧ c.localParent = some p ∧ ∀ d ∈ classes, P d → n ≤ d.name

variable {classes : List ClassModel}

/-- A class that is placed at once is grounded. -/
theorem Seeded.grounded {c : ClassModel} (h : Seeded c) : Grounded c := by
  rcases h with h | h
  · exact .inr (.inl h)
  · exact .inl h

theorem Grounded.rooted {c : ClassModel} (h : Grounded c) : Rooted classes c := ⟨c, .refl, h⟩

/-- A class is rooted if its parent is. -/
theorem Rooted.head {c d : ClassModel} (h : ParentIn classes c d) (hd : Rooted classes d) :
    Rooted classes c := by
  obtain ⟨e, hpath, hground⟩ := hd
  exact ⟨e, .head h hpath, hground⟩

/-- An orphan has a parent, so it is not placed at once. -/
theorem Orphan.not_seeded {c : ClassModel} (h : Orphan classes c) : ¬ Seeded c := by
  obtain ⟨hroot, p, hp, _, _⟩ := h
  rintro (hc | hc)
  · exact hroot hc
  · simp [ClassModel.localParent, hc] at hp

/-- An orphan has no chain of parents to the ground. -/
theorem Orphan.not_rooted {c : ClassModel} (h : Orphan classes c) : ¬ Rooted classes c := by
  rintro ⟨d, hpath, hground⟩
  obtain ⟨p, hp, hmem, hnot⟩ := h.2
  rcases hpath.cases_head with rfl | ⟨e, ⟨he, hparent⟩, _⟩
  · rcases hground with hc | hc | ⟨q, hq, hroot⟩
    · exact h.not_seeded (.inr hc)
    · exact h.not_seeded (.inl hc)
    · obtain rfl : p = q := Option.some.inj (hp.symm.trans hq)
      simp [hnot] at hroot
  · obtain rfl : p = e.name := Option.some.inj (hp.symm.trans hparent)
    exact hmem (List.mem_map_of_mem he)

section Distinct

variable (distinct : (classes.map ClassModel.name).Nodup)
include distinct

/-- A class that is placed in some pass is rooted. -/
theorem Rooted.of_passOf {k : Nat} {n : String} (hn : PassOf classes k n) {c : ClassModel}
    (hc : c ∈ classes) (hname : c.name = n) : Rooted classes c := by
  induction hn generalizing c with
  | first mem direct =>
      subst hname
      obtain ⟨p, hp⟩ := exists_localParent ((name_mem_later distinct hc).mp mem)
      rw [Direct, parentName_name distinct hc hp, mem_seeds_iff distinct] at direct
      rcases direct with hroot | ⟨d, hd, rfl, hseed⟩
      · exact Grounded.rooted (.inr (.inr ⟨p, hp, hroot⟩))
      · exact .head ⟨hd, hp⟩ hseed.grounded.rooted
  | same mem _ above _ ih =>
      subst hname
      obtain ⟨p, hp⟩ := exists_localParent ((name_mem_later distinct hc).mp mem)
      rw [parentName_name distinct hc hp] at above ih
      obtain ⟨d, hd, rfl, _⟩ := (mem_later_iff distinct).mp above.mem
      exact .head ⟨hd, hp⟩ (ih hd rfl)
  | next mem _ above _ ih =>
      subst hname
      obtain ⟨p, hp⟩ := exists_localParent ((name_mem_later distinct hc).mp mem)
      rw [parentName_name distinct hc hp] at above ih
      obtain ⟨d, hd, rfl, _⟩ := (mem_later_iff distinct).mp above.mem
      exact .head ⟨hd, hp⟩ (ih hd rfl)

/-- A rooted class is placed at once or in some pass. -/
theorem Rooted.exists_passOf {c : ClassModel} (h : Rooted classes c) (hc : c ∈ classes)
    (hseed : ¬ Seeded c) : ∃ k, PassOf classes k c.name := by
  obtain ⟨e, hpath, hground⟩ := h
  induction hpath using Relation.ReflTransGen.head_induction_on with
  | refl =>
      rcases hground with hnone | hroot | ⟨p, hp, hroot⟩
      · exact absurd (.inr hnone) hseed
      · exact absurd (.inl hroot) hseed
      · refine ⟨1, .first ((name_mem_later distinct hc).mpr hseed) (.inl ?_)⟩
        rw [parentName_name distinct hc hp]
        exact hroot
  | @head c d hparent hpath ih =>
      have hlater := (name_mem_later distinct hc).mpr hseed
      have hname := parentName_name distinct hc hparent.2
      by_cases direct : Direct (parentName classes) (seeds classes) c.name
      · exact ⟨1, .first hlater direct⟩
      · have hd : ¬ Seeded d := fun hd => direct (.inr (hname ▸
          (name_mem_seeds distinct hparent.1).mpr hd))
        obtain ⟨k, hk⟩ := ih hparent.1 hd
        rw [← hname] at hk
        rcases lt_trichotomy (parentName classes c.name) c.name with hlt | heq | hgt
        · exact ⟨k, .same hlater direct hk hlt⟩
        · exact ⟨k, heq ▸ hk⟩
        · exact ⟨k + 1, .next hlater direct hk hgt⟩

/-- The passes leave the classes whose chain of parents does not end. -/
theorem name_mem_placement_snd {c : ClassModel} (hc : c ∈ classes) :
    c.name ∈ (placement classes).2 ↔ ¬ Rooted classes c := by
  rw [placement_completes.mem_snd, name_mem_later distinct hc]
  constructor
  · rintro ⟨hseed, hnone⟩ h
    exact hnone (h.exists_passOf distinct hc hseed)
  · intro h
    refine ⟨fun hseed => h hseed.grounded.rooted, ?_⟩
    rintro ⟨k, hk⟩
    exact h (.of_passOf distinct hk hc rfl)

/-- The orphans are the classes that are stuck because there is no such parent. -/
theorem orphan_iff {c : ClassModel} (hc : c ∈ classes) :
    Orphan classes c ↔ c.name ∈ (placement classes).2 ∧ lacksParent classes c.name := by
  have hlacks {p : String} (hp : c.localParent = some p) : lacksParent classes c.name = true ↔
      p ∉ classes.map ClassModel.name ∧ ClassName.isRoot p = false := by
    simp only [lacksParent, parentName_name distinct hc hp, Bool.not_eq_true', Bool.or_eq_false_iff,
      List.contains_eq_mem, decide_eq_false_iff_not, mem_names]
  constructor
  · intro h
    obtain ⟨p, hp, hmissing⟩ := h.2
    exact ⟨(name_mem_placement_snd distinct hc).mpr h.not_rooted, (hlacks hp).mpr hmissing⟩
  · rintro ⟨hstuck, h⟩
    have hseed : ¬ Seeded c := fun hseed =>
      (name_mem_placement_snd distinct hc).mp hstuck hseed.grounded.rooted
    obtain ⟨p, hp⟩ := exists_localParent hseed
    exact ⟨fun hroot => hseed (.inl hroot), p, hp, (hlacks hp).mp h⟩

/-- A class that the passes leave, with its parent. -/
theorem exists_of_mem_placement_snd {n : String} (hn : n ∈ (placement classes).2) :
    ∃ c ∈ classes, c.name = n ∧ Adrift classes c ∧ c.localParent = some (parentName classes n) := by
  obtain ⟨c, hc, rfl, hseed⟩ :=
    (mem_later_iff distinct).mp ((placement_completes.mem_snd n).mp hn).1
  obtain ⟨p, hp⟩ := exists_localParent hseed
  refine ⟨c, hc, rfl, ⟨fun hroot => hseed (.inl hroot), ?_⟩, ?_⟩
  · exact (name_mem_placement_snd distinct hc).mp hn
  · rw [hp, parentName_name distinct hc hp]

omit distinct in
/-- What is found in an increasing list is the least that could be. -/
theorem le_of_find?_eq_some {l : List String} (increasing : l.Pairwise (· < ·)) {q : String → Bool}
    {m n : String} (hfind : l.find? q = some n) (hm : m ∈ l) (hq : q m) : n ≤ m := by
  obtain ⟨_, as, bs, rfl, hbefore⟩ := List.find?_eq_some_iff_append.mp hfind
  rcases List.mem_append.mp hm with hm | hm
  · exact absurd hq (by simpa using hbefore m hm)
  · rcases List.mem_cons.mp hm with rfl | hm
    · exact le_rfl
    · exact le_of_lt ((List.pairwise_cons.mp (List.pairwise_append.mp increasing).2.1).1 m hm)

/-- The first name that is found is the least orphan. -/
theorem leastWith_orphan {n : String}
    (hfind : (placement classes).2.find? (lacksParent classes) = some n) :
    LeastWith classes (Orphan classes) n (parentName classes n) := by
  have hn := List.mem_of_find?_eq_some hfind
  obtain ⟨c, hc, rfl, _, hp⟩ := exists_of_mem_placement_snd distinct hn
  refine ⟨c, hc, (orphan_iff distinct hc).mpr ⟨hn, List.find?_some hfind⟩, rfl, hp, ?_⟩
  intro d hd horphan
  obtain ⟨hd', hlacks⟩ := (orphan_iff distinct hd).mp horphan
  exact le_of_find?_eq_some placement_completes.increasing hfind hd' hlacks

/-- The first name that is stuck is the least one adrift. -/
theorem leastWith_adrift {n : String} {ns : List String}
    (hstuck : (placement classes).2 = n :: ns) :
    LeastWith classes (Adrift classes) n (parentName classes n) := by
  have hn : n ∈ (placement classes).2 := hstuck ▸ List.mem_cons_self
  obtain ⟨c, hc, rfl, hadrift, hp⟩ := exists_of_mem_placement_snd distinct hn
  refine ⟨c, hc, hadrift, rfl, hp, ?_⟩
  intro d hd hadrift'
  have hd' := (name_mem_placement_snd distinct hd).mpr hadrift'.2
  have hincreasing := (@placement_completes classes).increasing
  rw [hstuck] at hd' hincreasing
  rcases List.mem_cons.mp hd' with heq | hlt
  · exact heq.ge
  · exact le_of_lt ((List.pairwise_cons.mp hincreasing).1 _ hlt)

/-- If none is found, there are no orphans. -/
theorem not_orphan_of_find? (hfind : (placement classes).2.find? (lacksParent classes) = none) :
    ∀ c ∈ classes, ¬ Orphan classes c := by
  intro c hc horphan
  obtain ⟨hmem, hlacks⟩ := (orphan_iff distinct hc).mp horphan
  exact List.find?_eq_none.mp hfind c.name hmem hlacks

/-- If none is stuck, no class is adrift. -/
theorem not_adrift_of_placement (hstuck : (placement classes).2 = []) :
    ∀ c ∈ classes, ¬ Adrift classes c := by
  intro c hc hadrift
  have hmem := (name_mem_placement_snd distinct hc).mpr hadrift.2
  rw [hstuck] at hmem
  exact List.not_mem_nil hmem

end Distinct

/-- An orphan is adrift. -/
theorem Orphan.adrift {c : ClassModel} (h : Orphan classes c) : Adrift classes c :=
  ⟨h.1, h.not_rooted⟩

/-- When and how the order of a batch of classes with different names fails. A missing parent is
reported if there is one, a cycle if there is none and some chain of parents does not end, each at
the least class in question; otherwise there is an order. The limit on the number of passes has no
part in this: every greater one gives the same placement. -/
theorem order_failure (distinct : (classes.map ClassModel.name).Nodup) :
    ((∃ n p, order classes = .error (.unresolvedParent n p)) ↔ ∃ c ∈ classes, Orphan classes c) ∧
    (∀ n p, order classes = .error (.unresolvedParent n p) →
      LeastWith classes (Orphan classes) n p) ∧
    ((∀ c ∈ classes, ¬ Orphan classes c) →
      ((∃ n p, order classes = .error (.inheritanceCycle n p)) ↔ ∃ c ∈ classes, Adrift classes c) ∧
      (∀ n p, order classes = .error (.inheritanceCycle n p) →
        LeastWith classes (Adrift classes) n p) ∧
      ((∀ c ∈ classes, ¬ Adrift classes c) → ∃ o, order classes = .ok o)) ∧
    ∀ limit, (later classes).length ≤ limit →
      passes (parentName classes) limit (seeds classes) (later classes) = placement classes := by
  have hlimit (limit : Nat) (h : (later classes).length ≤ limit) :
      passes (parentName classes) limit (seeds classes) (later classes) = placement classes :=
    passes_eq_of_length_le h (Nat.le_succ _)
  obtain ⟨n, hfind, herr⟩ | ⟨n, ns, hfind, hstuck, herr⟩ | ⟨hstuck, hok⟩ := @order_cases classes
  · have hleast := leastWith_orphan distinct hfind
    obtain ⟨c, hc, horphan, _⟩ := id hleast
    rw [herr]
    refine ⟨⟨fun _ => ⟨c, hc, horphan⟩, fun _ => ⟨_, _, rfl⟩⟩, ?_, ?_, hlimit⟩
    · rintro n p ⟨⟩
      exact hleast
    · intro hnone
      exact absurd horphan (hnone c hc)
  · have hleast := leastWith_adrift distinct hstuck
    have hnone := not_orphan_of_find? distinct hfind
    obtain ⟨c, hc, hadrift, _⟩ := id hleast
    rw [herr]
    refine ⟨⟨?_, ?_⟩, ?_, fun _ => ⟨?_, ?_, ?_⟩, hlimit⟩
    · rintro ⟨n, p, ⟨⟩⟩
    · rintro ⟨d, hd, horphan⟩
      exact absurd horphan (hnone d hd)
    · rintro n p ⟨⟩
    · exact ⟨fun _ => ⟨c, hc, hadrift⟩, fun _ => ⟨_, _, rfl⟩⟩
    · rintro n p ⟨⟩
      exact hleast
    · intro h
      exact absurd hadrift (h c hc)
  · have hnone := not_adrift_of_placement distinct hstuck
    rw [hok]
    refine ⟨⟨?_, ?_⟩, ?_, fun _ => ⟨⟨?_, ?_⟩, ?_, fun _ => ⟨_, rfl⟩⟩, hlimit⟩
    · rintro ⟨n, p, ⟨⟩⟩
    · rintro ⟨c, hc, horphan⟩
      exact absurd horphan.adrift (hnone c hc)
    · rintro n p ⟨⟩
    · rintro ⟨n, p, ⟨⟩⟩
    · rintro ⟨c, hc, hadrift⟩
      exact absurd hadrift (hnone c hc)
    · rintro n p ⟨⟩

/-- A cycle of `Ant` and `Bee`, and a missing parent of `Yak`, for which `Cat` waits too. -/
def blocked : List ClassModel :=
  [{ (default : ClassModel) with name := "Ant", parent := some "Bee" },
    { (default : ClassModel) with name := "Bee", parent := some "Ant" },
    { (default : ClassModel) with name := "Cat", parent := some "Yak" },
    { (default : ClassModel) with name := "Yak", parent := some "Zebu" }]

/-- The orphan is reported, although the classes of the cycle come before it. -/
theorem order_blocked : (blocked.map ClassModel.name).Nodup ∧
    order blocked = .error (.unresolvedParent "Yak" "Zebu") ∧
    LeastWith blocked (Orphan blocked) "Yak" "Zebu" := by
  have distinct : (blocked.map ClassModel.name).Nodup := by decide
  have h : order blocked = .error (.unresolvedParent "Yak" "Zebu") := by decide +kernel
  exact ⟨distinct, h, (order_failure distinct).2.1 _ _ h⟩

end ClassSchema.Batch
