import ClassSchema.Proofs.Batch.Failure
import ClassSchema.Proofs.Batch.Order

/-! # Chains of parents in an order

A class that comes after its parent has the greater position, so no chain of parents returns to
where it starts if all classes do. Two of them may not: the root, which comes first whatever its
parent is, and a class under the qualified name of the root, for which no child waits. -/

namespace ClassSchema.Batch

/-- Every class comes after its parent in the batch. -/
def ParentsFirst (classes : List ClassModel) (listed : List String) : Prop :=
  ∀ c ∈ classes, ∀ d, ParentIn classes c d → [d.name, c.name].Sublist listed

/-- No chain of parents in the batch returns to where it starts. -/
def Acyclic (classes : List ClassModel) : Prop :=
  ∀ c ∈ classes, ¬ Relation.TransGen (ParentIn classes) c c

variable {classes : List ClassModel} {c d : ClassModel}

/-! ## Positions -/

/-- What is listed before is at a smaller place. -/
theorem idxOf_lt_of_sublist {l : List String} (nodup : l.Nodup) {m n : String}
    (h : [m, n].Sublist l) : l.idxOf m < l.idxOf n := by
  induction l with
  | nil => cases h
  | cons a l ih =>
      obtain ⟨hnew, nodup⟩ := List.nodup_cons.mp nodup
      cases h with
      | cons _ h =>
          have hm : a ≠ m := by
            rintro rfl
            exact hnew (h.subset List.mem_cons_self)
          have hn : a ≠ n := by
            rintro rfl
            exact hnew (h.subset (List.mem_cons_of_mem _ List.mem_cons_self))
          rw [List.idxOf_cons_ne _ hm, List.idxOf_cons_ne _ hn]
          exact Nat.succ_lt_succ (ih nodup h)
      | cons_cons _ h =>
          have hn : m ≠ n := by
            rintro rfl
            exact hnew (List.singleton_sublist.mp h)
          rw [List.idxOf_cons_self, List.idxOf_cons_ne _ hn]
          exact Nat.succ_pos _

/-- Along a chain of classes that come after their parents, the positions decrease. -/
theorem idxOf_lt_of_chain {listed : List String} (nodup : listed.Nodup)
    (chain : Relation.TransGen (ParentIn classes) c d)
    (step : ∀ a b, Relation.ReflTransGen (ParentIn classes) c a → ParentIn classes a b →
      [b.name, a.name].Sublist listed) :
    listed.idxOf d.name < listed.idxOf c.name := by
  induction chain with
  | single hparent => exact idxOf_lt_of_sublist nodup (step _ _ .refl hparent)
  | tail hchain hparent ih =>
      exact lt_trans (idxOf_lt_of_sublist nodup (step _ _ hchain.to_reflTransGen hparent)) ih

/-- The ancestors of a class in the batch are in the batch. -/
theorem mem_of_chain (hc : c ∈ classes) (chain : Relation.ReflTransGen (ParentIn classes) c d) :
    d ∈ classes := by
  cases chain with
  | refl => exact hc
  | tail _ hparent => exact hparent.1

/-- If all parents come first, no class is its own ancestor. -/
theorem ParentsFirst.acyclic {listed : List String} (nodup : listed.Nodup)
    (h : ParentsFirst classes listed) : Acyclic classes := by
  intro c hc hcycle
  have hlt := idxOf_lt_of_chain nodup hcycle fun a b chain => h a (mem_of_chain hc chain) b
  exact lt_irrefl _ hlt

section Ordered

variable {o : Order} (h : order classes = .ok o)

include h

/-- No class is listed twice. -/
theorem listed_nodup : o.classes.Nodup := by
  obtain ⟨hstuck, rfl⟩ := order_eq_ok h
  exact (ordered_perm_names hstuck).nodup_iff.mpr names_nodup

/-- The root comes first, if it is listed at all. -/
theorem not_listed_after_root (hroot : ClassName.root ∈ classes.map ClassModel.name) (n : String) :
    ¬ [n, ClassName.root].Sublist o.classes := by
  intro hlisted
  have hlt := idxOf_lt_of_sublist (listed_nodup h) hlisted
  obtain ⟨-, rfl⟩ := order_eq_ok h
  rw [seeds, names_filter_root, if_pos hroot] at hlt
  simp at hlt

variable (distinct : (classes.map ClassModel.name).Nodup)

include distinct

/-- A class other than the root comes after its parent, if that has not the qualified name of the
root. -/
theorem listed_after_parent (hc : c ∈ classes) (hparent : ParentIn classes c d)
    (hroot : c.name ≠ ClassName.root) (hqualified : d.name ≠ ClassName.qualifiedRoot) :
    [d.name, c.name].Sublist o.classes := by
  obtain ⟨hstuck, rfl⟩ := order_eq_ok h
  exact parent_before distinct hstuck hc hroot hparent.2 (List.mem_map_of_mem hparent.1) hqualified

/-- A chain of parents that returns leads through the root, under one of its names. -/
theorem exists_root_of_cycle (hc : c ∈ classes)
    (hcycle : Relation.TransGen (ParentIn classes) c c) :
    ∃ d, Relation.ReflTransGen (ParentIn classes) c d ∧ ClassName.isRoot d.name = true := by
  by_contra hnone
  have hfree (a : ClassModel) (chain : Relation.ReflTransGen (ParentIn classes) c a) :
      a.name ≠ ClassName.root ∧ a.name ≠ ClassName.qualifiedRoot := by
    rw [← not_or]
    intro hroot
    exact hnone ⟨a, chain, by simpa [ClassName.isRoot] using hroot⟩
  have hlt := idxOf_lt_of_chain (listed_nodup h) hcycle fun a b chain hparent =>
    listed_after_parent h distinct (mem_of_chain hc chain) hparent (hfree a chain).1
      (hfree b (chain.tail hparent)).2
  exact lt_irrefl _ hlt

/-! ## The qualified name of the root -/

/-- A class that derives from the root by its qualified name does not wait for a class of that
name, and comes after it only if that class does not wait either or the alphabet happens to
agree. -/
theorem listed_after_qualified_iff (hc : c ∈ classes) (hparent : ParentIn classes c d)
    (hself : c.name ≠ d.name) (hroot : c.name ≠ ClassName.root)
    (hqualified : d.name = ClassName.qualifiedRoot) :
    [d.name, c.name].Sublist o.classes ↔
      d.parent = none ∨ PassOf classes 1 d.name ∧ d.name < c.name := by
  have nodup := listed_nodup h
  obtain ⟨hstuck, rfl⟩ := order_eq_ok h
  have hseed : ¬ Seeded c := by
    rintro (hname | hnone)
    · exact hroot hname
    · simp [ParentIn, ClassModel.localParent, hnone] at hparent
  have hlater := (name_mem_later distinct hc).mpr hseed
  have hfirst : PassOf classes 1 c.name := by
    refine .first hlater (.inl ?_)
    rw [parentName_name distinct hc hparent.2, hqualified]
    rfl
  by_cases hnone : d.parent = none
  · have hd := (name_mem_seeds distinct hparent.1).mpr (.inr hnone)
    have hplaced := (mem_placement_fst hstuck).mpr hlater
    have hlisted := (List.singleton_sublist.mpr hd).append (List.singleton_sublist.mpr hplaced)
    exact iff_of_true hlisted (.inl hnone)
  · have hseed' : ¬ Seeded d := by
      rintro (hname | hnone')
      · exact absurd (hqualified.symm.trans hname) (by decide)
      · exact hnone hnone'
    obtain ⟨k, hk⟩ := exists_passOf hstuck ((name_mem_later distinct hparent.1).mpr hseed')
    constructor
    · intro hlisted
      have hnot : ¬ Before (parentName classes) (seeds classes) (later classes) c.name d.name := by
        intro hbefore
        have hlt := idxOf_lt_of_sublist nodup hlisted
        exact lt_asymm hlt (idxOf_lt_of_sublist nodup (sublist_of_before hstuck hbefore))
      have hle : ¬ 1 < k := fun hlt => hnot ⟨1, k, hfirst, hk, .inl hlt⟩
      obtain rfl : k = 1 := by
        have := hk.pos
        omega
      refine .inr ⟨hk, lt_of_le_of_ne (not_lt.mp fun hlt => ?_) hself.symm⟩
      exact hnot ⟨1, 1, hfirst, hk, .inr ⟨rfl, hlt⟩⟩
    · rintro (hnone' | ⟨hd, hlt⟩)
      · exact absurd hnone' hnone
      · exact sublist_of_before hstuck ⟨1, 1, hd, hfirst, .inr ⟨rfl, hlt⟩⟩

end Ordered

/-! ## Valid batches -/

/-- A valid batch that can be ordered has no cycle of parents and lists all classes after their
parents if and only if the root has no parent in the batch, and a class under the qualified name of
the root has no parent either or is placed by the first pass, its children having greater names.
All other classes come after their parents, and all cycles lead through one of these two. -/
theorem parentsFirst_iff {o : Order} (valid : validate classes = .ok ())
    (h : order classes = .ok o) :
    (Acyclic classes ∧ ParentsFirst classes o.classes ↔
      (∀ c ∈ classes, c.name = ClassName.root → ∀ d ∈ classes, c.localParent ≠ some d.name) ∧
      ∀ d ∈ classes, d.name = ClassName.qualifiedRoot → d.parent ≠ none →
        ∀ c ∈ classes, c.localParent = some d.name →
          PassOf classes 1 d.name ∧ d.name < c.name) ∧
    (∀ c ∈ classes, ∀ d, ParentIn classes c d → c.name ≠ ClassName.root →
      d.name ≠ ClassName.qualifiedRoot → [d.name, c.name].Sublist o.classes) ∧
    ∀ c ∈ classes, Relation.TransGen (ParentIn classes) c c →
      ∃ d, Relation.ReflTransGen (ParentIn classes) c d ∧ ClassName.isRoot d.name = true := by
  obtain ⟨distinct, -, hselves⟩ := validateFrom_eq_ok valid
  have hself {c d : ClassModel} (hc : c ∈ classes) (hparent : ParentIn classes c d) :
      c.name ≠ d.name := by
    intro heq
    exact hselves c hc (heq ▸ hparent.2)
  refine ⟨⟨?_, ?_⟩, ?_, ?_⟩
  · rintro ⟨-, hfirst⟩
    have hroot : ∀ c ∈ classes, c.name = ClassName.root → ∀ d, ¬ ParentIn classes c d := by
      intro c hc hname d hparent
      have hmem : ClassName.root ∈ classes.map ClassModel.name := hname ▸ List.mem_map_of_mem hc
      exact not_listed_after_root h hmem d.name (hname ▸ hfirst c hc d hparent)
    refine ⟨fun c hc hname d hd hp => hroot c hc hname d ⟨hd, hp⟩, ?_⟩
    intro d hd hqualified hsome c hc hp
    have hparent : ParentIn classes c d := ⟨hd, hp⟩
    have hname : c.name ≠ ClassName.root := fun hname => hroot c hc hname d hparent
    exact ((listed_after_qualified_iff h distinct hc hparent (hself hc hparent) hname
      hqualified).mp (hfirst c hc d hparent)).resolve_left hsome
  · rintro ⟨hroot, hqualified⟩
    have hfirst : ParentsFirst classes o.classes := by
      intro c hc d hparent
      have hname : c.name ≠ ClassName.root := fun hname =>
        hroot c hc hname d hparent.1 hparent.2
      by_cases hd : d.name = ClassName.qualifiedRoot
      · rw [listed_after_qualified_iff h distinct hc hparent (hself hc hparent) hname hd]
        exact or_iff_not_imp_left.mpr fun hsome => hqualified d hparent.1 hd hsome c hc hparent.2
      · exact listed_after_parent h distinct hc hparent hname hd
    exact ⟨hfirst.acyclic (listed_nodup h), hfirst⟩
  · intro c hc d hparent hname hd
    exact listed_after_parent h distinct hc hparent hname hd
  · intro c hc hcycle
    exact exists_root_of_cycle h distinct hc hcycle

/-- The qualified name of the root is that of a class between `Base` and `yak`. -/
def nested : List ClassModel :=
  [{ (default : ClassModel) with name := "yak", parent := some "xtypes::XType" },
    { (default : ClassModel) with name := "xtypes::XType", parent := some "Base" },
    { (default : ClassModel) with name := "XType" },
    { (default : ClassModel) with name := "Base" }]

/-- Here a class with the qualified name of the root has a parent, and all parents come first. -/
theorem parentsFirst_nested : validate nested = .ok () ∧
    order nested = .ok ⟨["XType", "Base", "xtypes::XType", "yak"], []⟩ ∧ Acyclic nested ∧
    ParentsFirst nested ["XType", "Base", "xtypes::XType", "yak"] := by
  have valid : validate nested = .ok () := by decide +kernel
  have h : order nested = .ok ⟨["XType", "Base", "xtypes::XType", "yak"], []⟩ := by
    decide +kernel
  have hroot : ∀ c ∈ nested, c.name = ClassName.root → ∀ d ∈ nested,
      c.localParent ≠ some d.name := by
    decide +kernel
  have hpass : PassOf nested 1 "xtypes::XType" :=
    .first (by decide +kernel) (.inr (by decide +kernel))
  have hless : ∀ c ∈ nested, c.localParent = some "xtypes::XType" → "xtypes::XType" < c.name := by
    decide +kernel
  refine ⟨valid, h, (parentsFirst_iff valid h).1.mpr ⟨hroot, ?_⟩⟩
  intro d hd hqualified _ c hc hp
  rw [hqualified] at hp ⊢
  exact ⟨hpass, hless c hc hp⟩

/-- The root derives from `Base`, and `Base` from the root. -/
def entangled : List ClassModel :=
  [{ (default : ClassModel) with name := "XType", parent := some "Base" },
    { (default : ClassModel) with name := "Base", parent := some "XType" }]

/-- The order exists although there is a cycle, as it leads through the root. -/
theorem not_acyclic_entangled : validate entangled = .ok () ∧
    order entangled = .ok ⟨["XType", "Base"], []⟩ ∧ ¬ Acyclic entangled ∧
    ¬ ParentsFirst entangled ["XType", "Base"] := by
  obtain ⟨root, base, hclasses⟩ : ∃ root base, entangled = [root, base] := ⟨_, _, rfl⟩
  have hroot : root ∈ entangled := by simp [hclasses]
  have hup : ParentIn entangled root base := by
    refine ⟨by simp [hclasses], ?_⟩
    cases hclasses
    decide +kernel
  have hdown : ParentIn entangled base root := by
    refine ⟨hroot, ?_⟩
    cases hclasses
    decide +kernel
  refine ⟨by decide +kernel, by decide +kernel, ?_, ?_⟩
  · intro hacyclic
    exact hacyclic root hroot (.tail (.single hup) hdown)
  · intro hfirst
    have hlisted := hfirst root hroot base hup
    cases hclasses
    exact absurd hlisted (by decide)

end ClassSchema.Batch
