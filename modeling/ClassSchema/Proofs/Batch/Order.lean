import ClassSchema.Proofs.Batch.Basic

/-! # The order of a batch

The numbers of the passes follow from the parents alone: `PassNumbering` says how. A batch that can
be ordered has such a numbering, and its order is `schedule`: the root, the classes without parent
by name, and the others by number and name. So every class occurs once and after its parent. -/

namespace ClassSchema.Batch

/-! ## Numbers of passes -/

/-- The parents for which no class has to wait: the root, and the classes that are placed before the
first pass. -/
def Anchor (classes : List ClassModel) (p : String) : Prop :=
  ClassName.isRoot p = true ∨ ∃ d ∈ classes, d.name = p ∧ Seeded d

/-- Numbers the passes that place the classes of a batch: the first one for a class that does not
wait, else the pass of the parent, or the one after it if the parent has the greater name. -/
structure PassNumbering (classes : List ClassModel) (number : String → Nat) : Prop where
  first : ∀ c ∈ classes, ∀ p, ¬ Seeded c → c.localParent = some p → Anchor classes p →
    number c.name = 1
  same : ∀ c ∈ classes, ∀ p, ¬ Seeded c → c.localParent = some p → ¬ Anchor classes p →
    p < c.name → number c.name = number p
  next : ∀ c ∈ classes, ∀ p, ¬ Seeded c → c.localParent = some p → ¬ Anchor classes p →
    c.name < p → number c.name = number p + 1

/-- By increasing number, and by increasing name among equal numbers. -/
def byNumber (number : String → Nat) (m n : String) : Bool :=
  number m < number n || number m == number n && m ≤ n

/-- The names of a batch with the given numbers, as they are placed. Names are compared by code
points, which is how their bytes in UTF-8 compare. -/
def schedule (classes : List ClassModel) (number : String → Nat) : List String :=
  (if ClassName.root ∈ classes.map ClassModel.name then [ClassName.root] else [])
    ++ ((classes.filter fun c => c.name ≠ ClassName.root ∧ c.parent = none).map
      ClassModel.name).mergeSort
    ++ ((classes.filter fun c => ¬ Seeded c).map ClassModel.name).mergeSort (byNumber number)

/-- Names are ordered by the numbers of their passes, and then by themselves. -/
theorem byNumber_trans {number : String → Nat} (a b c : String) (hab : byNumber number a b)
    (hbc : byNumber number b c) : byNumber number a c := by
  simp only [byNumber, Bool.or_eq_true, Bool.and_eq_true, decide_eq_true_eq, beq_iff_eq] at *
  rcases hab with hab | ⟨hab, hab'⟩ <;> rcases hbc with hbc | ⟨hbc, hbc'⟩
  · exact .inl (by omega)
  · exact .inl (by omega)
  · exact .inl (by omega)
  · exact .inr ⟨hab.trans hbc, hab'.trans hbc'⟩

theorem byNumber_total {number : String → Nat} (a b : String) :
    byNumber number a b || byNumber number b a := by
  simp only [byNumber, Bool.or_eq_true, Bool.and_eq_true, decide_eq_true_eq, beq_iff_eq]
  rcases Nat.lt_trichotomy (number a) (number b) with h | h | h
  · exact .inl (.inl h)
  · rcases le_total a b with hle | hle
    · exact .inl (.inr ⟨h, hle⟩)
    · exact .inr (.inr ⟨h.symm, hle⟩)
  · exact .inr (.inl h)

theorem byNumber_antisymm {number : String → Nat} (a b : String) (hab : byNumber number a b)
    (hba : byNumber number b a) : a = b := by
  simp only [byNumber, Bool.or_eq_true, Bool.and_eq_true, decide_eq_true_eq, beq_iff_eq] at *
  rcases hab with hab | ⟨hab, hab'⟩ <;> rcases hba with hba | ⟨hba, hba'⟩
  · omega
  · omega
  · omega
  · exact le_antisymm hab' hba'

/-- Of two members of a list, the one that must not follow comes first. -/
theorem pair_sublist_of_pairwise {R : String → String → Prop} {l : List String}
    (h : l.Pairwise R) {m n : String} (hm : m ∈ l) (hn : n ∈ l) (hne : m ≠ n) (hnm : ¬ R n m) :
    [m, n].Sublist l := by
  induction h with
  | nil => exact absurd hm List.not_mem_nil
  | cons hall _ ih =>
      rcases List.mem_cons.mp hm with rfl | hm'
      · have hn' := (List.mem_cons.mp hn).resolve_left hne.symm
        exact (List.singleton_sublist.mpr hn').cons_cons _
      · rcases List.mem_cons.mp hn with rfl | hn'
        · exact absurd (hall m hm') hnm
        · exact (ih hm' hn').cons _

section Distinct

variable {classes : List ClassModel} (distinct : (classes.map ClassModel.name).Nodup)
include distinct

/-- A class does not wait for a parent that is an anchor. -/
theorem direct_name_iff {c : ClassModel} (hc : c ∈ classes) {p : String}
    (hp : c.localParent = some p) :
    Direct (parentName classes) (seeds classes) c.name ↔ Anchor classes p := by
  rw [Direct, Anchor, parentName_name distinct hc hp, mem_seeds_iff distinct]

/-- A numbering gives each class the pass in which it is placed. -/
theorem PassNumbering.eq_of_placedIn {number : String → Nat} (h : PassNumbering classes number)
    {k : Nat} {n : String} (hn : PassOf classes k n) : number n = k := by
  induction hn with
  | first mem direct =>
      obtain ⟨c, hc, rfl, hseed⟩ := (mem_later_iff distinct).mp mem
      obtain ⟨p, hp⟩ := exists_localParent hseed
      exact h.first c hc p hseed hp ((direct_name_iff distinct hc hp).mp direct)
  | same mem waits _ lt ih =>
      obtain ⟨c, hc, rfl, hseed⟩ := (mem_later_iff distinct).mp mem
      obtain ⟨p, hp⟩ := exists_localParent hseed
      rw [parentName_name distinct hc hp] at lt ih
      rw [direct_name_iff distinct hc hp] at waits
      rw [h.same c hc p hseed hp waits lt, ih]
  | next mem waits _ lt ih =>
      obtain ⟨c, hc, rfl, hseed⟩ := (mem_later_iff distinct).mp mem
      obtain ⟨p, hp⟩ := exists_localParent hseed
      rw [parentName_name distinct hc hp] at lt ih
      rw [direct_name_iff distinct hc hp] at waits
      rw [h.next c hc p hseed hp waits lt, ih]

/-- If no class is left, the passes that place them number them. -/
theorem exists_passNumbering (hstuck : (placement classes).2 = []) :
    ∃ number, PassNumbering classes number := by
  obtain ⟨number, hnumber⟩ :=
    PlacedIn.exists_number (parentName classes) (seeds classes) (later classes)
  refine ⟨number, ⟨?_, ?_, ?_⟩⟩ <;> intro c hc p hseed hp
  · intro hanchor
    have hlater := (name_mem_later distinct hc).mpr hseed
    exact hnumber _ _ (.first hlater ((direct_name_iff distinct hc hp).mpr hanchor))
  · intro hwait hlt
    obtain ⟨k, hk⟩ := exists_passOf hstuck ((name_mem_later distinct hc).mpr hseed)
    rw [← direct_name_iff distinct hc hp] at hwait
    rw [hnumber _ _ hk]
    cases hk with
    | first _ direct => exact absurd direct hwait
    | same _ _ above => exact (hnumber _ _ (parentName_name distinct hc hp ▸ above)).symm
    | next _ _ _ gt => exact absurd (parentName_name distinct hc hp ▸ gt) (lt_asymm hlt)
  · intro hwait hlt
    obtain ⟨k, hk⟩ := exists_passOf hstuck ((name_mem_later distinct hc).mpr hseed)
    rw [← direct_name_iff distinct hc hp] at hwait
    rw [hnumber _ _ hk]
    cases hk with
    | first _ direct => exact absurd direct hwait
    | same _ _ _ gt => exact absurd (parentName_name distinct hc hp ▸ gt) (lt_asymm hlt)
    | next _ _ above =>
        exact congrArg (· + 1) (hnumber _ _ (parentName_name distinct hc hp ▸ above)).symm

/-! ## The three parts of the order -/

omit distinct in
/-- The root comes first if it is in the batch. -/
theorem names_filter_root : (names classes).filter (· == ClassName.root) =
    if ClassName.root ∈ classes.map ClassModel.name then [ClassName.root] else [] := by
  rw [List.filter_beq, names_nodup.count]
  simp only [mem_names]
  split <;> rfl

/-- After it come the classes without parent, sorted by name. -/
theorem names_filter_parentless :
    (names classes).filter (fun n => isSeed classes n && n != ClassName.root) =
      ((classes.filter fun c => c.name ≠ ClassName.root ∧ c.parent = none).map
        ClassModel.name).mergeSort := by
  refine eq_mergeSort_of_mem_iff ?_ ?_ ?_ ?_ (names_nodup.filter _)
    (distinct.sublist (List.filter_sublist.map _)) ?_
  · intro a b c hab hbc
    exact decide_eq_true (le_trans (of_decide_eq_true hab) (of_decide_eq_true hbc))
  · intro a b
    simpa using le_total a b
  · intro a b hab hba
    exact le_antisymm (of_decide_eq_true hab) (of_decide_eq_true hba)
  · exact (names_increasing.sublist List.filter_sublist).imp fun h => decide_eq_true (le_of_lt h)
  · intro n
    simp only [List.mem_filter, mem_names, List.mem_map, Bool.and_eq_true, bne_iff_ne,
      decide_eq_true_eq]
    constructor
    · rintro ⟨⟨c, hc, rfl⟩, hseed, hroot⟩
      have hparent := ((isSeed_name distinct hc).mp hseed).resolve_left hroot
      exact ⟨c, ⟨hc, hroot, hparent⟩, rfl⟩
    · rintro ⟨c, ⟨hc, hroot, hparent⟩, rfl⟩
      exact ⟨⟨c, hc, rfl⟩, (isSeed_name distinct hc).mpr (.inr hparent), hroot⟩

/-- The other classes follow pass by pass, and sorted by name in each. -/
theorem placement_fst_eq (hstuck : (placement classes).2 = []) {number : String → Nat}
    (h : PassNumbering classes number) :
    (placement classes).1 =
      ((classes.filter fun c => ¬ Seeded c).map ClassModel.name).mergeSort (byNumber number) := by
  refine eq_mergeSort_of_mem_iff byNumber_trans byNumber_total byNumber_antisymm ?_
    placement_fst_nodup (distinct.sublist (List.filter_sublist.map _)) ?_
  · refine placement_completes.before.imp fun hbefore => ?_
    obtain ⟨i, j, hm, hn, hij⟩ := hbefore
    rw [← h.eq_of_placedIn distinct hm, ← h.eq_of_placedIn distinct hn] at hij
    simp only [byNumber, Bool.or_eq_true, Bool.and_eq_true, decide_eq_true_eq, beq_iff_eq]
    exact hij.imp_right (And.imp_right le_of_lt)
  · intro n
    rw [mem_placement_fst hstuck, mem_later_iff distinct]
    simp only [List.mem_map, List.mem_filter, decide_eq_true_eq]
    constructor
    · rintro ⟨c, hc, hname, hseed⟩
      exact ⟨c, ⟨hc, hseed⟩, hname⟩
    · rintro ⟨c, ⟨hc, hseed⟩, hname⟩
      exact ⟨c, hc, hname, hseed⟩

/-! ## Parents before children -/

omit distinct in
/-- All classes are listed once. -/
theorem ordered_perm_names (hstuck : (placement classes).2 = []) :
    (seeds classes ++ (placement classes).1).Perm (names classes) := by
  have hseeds : (seeds classes).Nodup := by
    refine (names_nodup.filter _).append (names_nodup.filter _) fun n hn hn' => ?_
    simp only [List.mem_filter, beq_iff_eq, Bool.and_eq_true, bne_iff_ne] at hn hn'
    exact hn'.2.2 hn.2
  have hnodup : (seeds classes ++ (placement classes).1).Nodup := by
    refine hseeds.append placement_fst_nodup fun n hn hn' => ?_
    exact (mem_later.mp ((mem_placement_fst hstuck).mp hn')).2 (mem_seeds.mp hn).2
  refine (List.perm_ext_iff_of_nodup hnodup names_nodup).mpr fun n => ?_
  rw [List.mem_append, mem_placement_fst hstuck, mem_seeds, mem_later, ← and_or_left]
  exact and_iff_left (em _)

omit distinct in
/-- An order lists the classes of its batch. -/
theorem mem_classes_of_order {o : Order} (h : order classes = .ok o) {name : String} :
    name ∈ o.classes ↔ name ∈ classes.map ClassModel.name := by
  obtain ⟨hstuck, rfl⟩ := order_eq_ok h
  rw [(ordered_perm_names hstuck).mem_iff, mem_names]

omit distinct in
/-- What is placed before is listed before. -/
theorem sublist_of_before (hstuck : (placement classes).2 = []) {m n : String}
    (h : Before (parentName classes) (seeds classes) (later classes) m n) :
    [m, n].Sublist (seeds classes ++ (placement classes).1) := by
  have hm : m ∈ (placement classes).1 := by
    obtain ⟨i, j, hm, _, _⟩ := h
    exact (mem_placement_fst hstuck).mpr hm.mem
  have hn : n ∈ (placement classes).1 := by
    obtain ⟨i, j, _, hn, _⟩ := h
    exact (mem_placement_fst hstuck).mpr hn.mem
  have hne : m ≠ n := fun heq => (heq ▸ h).asymm (heq ▸ h)
  exact (pair_sublist_of_pairwise placement_completes.before hm hn hne h.asymm).trans
    (List.sublist_append_right _ _)

/-- A parent in the batch is listed before its class. -/
theorem parent_before (hstuck : (placement classes).2 = []) {c : ClassModel} (hc : c ∈ classes)
    (hroot : c.name ≠ ClassName.root) {p : String} (hp : c.localParent = some p)
    (hmem : p ∈ classes.map ClassModel.name) (hqualified : p ≠ ClassName.qualifiedRoot) :
    [p, c.name].Sublist (seeds classes ++ (placement classes).1) := by
  have hseed : ¬ Seeded c := by
    rintro (h | h)
    · exact hroot h
    · simp [ClassModel.localParent, h] at hp
  have hlater := (name_mem_later distinct hc).mpr hseed
  by_cases hps : p ∈ seeds classes
  · have hplaced := (mem_placement_fst hstuck).mpr hlater
    exact (List.singleton_sublist.mpr hps).append (List.singleton_sublist.mpr hplaced)
  · have hwait : ¬ Direct (parentName classes) (seeds classes) c.name := by
      rw [Direct, parentName_name distinct hc hp]
      rintro (h | h)
      · simp only [ClassName.isRoot, Bool.or_eq_true, beq_iff_eq] at h
        rcases h with rfl | h
        · exact hps (mem_seeds.mpr ⟨mem_names.mpr hmem, by simp [isSeed]⟩)
        · exact hqualified h
      · exact hps h
    apply sublist_of_before hstuck
    obtain ⟨k, hk⟩ := exists_passOf hstuck hlater
    rw [← parentName_name distinct hc hp]
    cases id hk with
    | first _ direct => exact absurd direct hwait
    | same _ _ above lt => exact ⟨k, k, above, hk, .inr ⟨rfl, lt⟩⟩
    | next _ _ above => exact ⟨_, _, above, hk, .inl (Nat.lt_succ_self _)⟩

end Distinct

/-- A batch of classes with different names that can be ordered is ordered in one way: the root
first, then the classes without parent by name, then the others by the number of their pass and by
name. So every class is listed once, and after its parent if that is a class of the batch. -/
theorem order_eq_schedule {classes : List ClassModel} {o : Order}
    (distinct : (classes.map ClassModel.name).Nodup) (h : order classes = .ok o) :
    (∃ number, PassNumbering classes number) ∧
      (∀ number, PassNumbering classes number → o.classes = schedule classes number) ∧
      o.classes.Perm (classes.map ClassModel.name) ∧
      ∀ c ∈ classes, c.name ≠ ClassName.root → ∀ p ∈ classes.map ClassModel.name,
        c.localParent = some p → p ≠ ClassName.qualifiedRoot → [p, c.name].Sublist o.classes := by
  obtain ⟨n, _, herr⟩ | ⟨n, ns, _, _, herr⟩ | ⟨hstuck, hok⟩ := @order_cases classes
  · simp [herr] at h
  · simp [herr] at h
  obtain rfl : _ = o := Except.ok.inj (hok.symm.trans h)
  refine ⟨exists_passNumbering distinct hstuck, ?_, ?_, ?_⟩
  · intro number hnumber
    rw [schedule, ← names_filter_root, ← names_filter_parentless distinct,
      ← placement_fst_eq distinct hstuck hnumber]
    rfl
  · exact (ordered_perm_names hstuck).trans
      ((List.perm_ext_iff_of_nodup names_nodup distinct).mpr fun n => mem_names)
  · intro c hc hroot p hmem hp hqualified
    exact parent_before distinct hstuck hc hroot hp hmem hqualified

/-- Chains that run against the alphabet: `Ant` waits a pass for `Bee`, and `Cat` none for `Ant`. -/
def crossing : List ClassModel :=
  [{ (default : ClassModel) with name := "Cat", parent := some "Ant" },
    { (default : ClassModel) with name := "Bee", parent := some "Zed" },
    { (default : ClassModel) with name := "XType" },
    { (default : ClassModel) with name := "Ant", parent := some "Bee" },
    { (default : ClassModel) with name := "Zed" }]

/-- The classes are listed pass by pass, and not in the order of their names. -/
theorem order_crossing : (crossing.map ClassModel.name).Nodup ∧
    order crossing = .ok ⟨["XType", "Zed", "Bee", "Ant", "Cat"], []⟩ ∧
    ∀ number, PassNumbering crossing number →
      ["XType", "Zed", "Bee", "Ant", "Cat"] = schedule crossing number := by
  have distinct : (crossing.map ClassModel.name).Nodup := by decide
  have h : order crossing = .ok ⟨["XType", "Zed", "Bee", "Ant", "Cat"], []⟩ := by decide +kernel
  exact ⟨distinct, h, (order_eq_schedule distinct h).2.1⟩

end ClassSchema.Batch
