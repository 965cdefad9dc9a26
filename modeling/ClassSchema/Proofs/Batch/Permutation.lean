import ClassSchema.Proofs.Batch.Order

/-! # The order does not depend on how a batch is listed

`order` reads three things of a batch: its names, the parent under each name, and the namespaces of
the classes that are mentioned. The first and the last are kept as increasing lists, and if the
names are different there is one class under each. -/

namespace ClassSchema.Batch

variable {as bs : List ClassModel}

/-- There is no parent to look up for a name that is not in the batch. -/
theorem parentOf?_eq_none {n : String} (h : n ∉ as.map ClassModel.name) :
    parentOf? as n = none := by
  have hfind : (as.reverse.find? fun c => c.name == n && c.parent.isSome) = none := by
    rw [List.find?_eq_none]
    intro c hc hname
    rw [Bool.and_eq_true, beq_iff_eq] at hname
    exact h (hname.1 ▸ List.mem_map_of_mem (List.mem_reverse.mp hc))
  rw [parentOf?, hfind, Option.bind_none]

/-- Batches in which the same is read are ordered alike. -/
theorem order_congr (hnames : names as = names bs) (hparents : parentOf? as = parentOf? bs)
    (hnamespaces : namespaces as = namespaces bs) : order as = order bs := by
  have hparent : parentName as = parentName bs := by
    funext n
    rw [parentName, parentName, hparents]
  have hseed : isSeed as = isSeed bs := by
    funext n
    rw [isSeed, isSeed, hparents]
  have hseeds : seeds as = seeds bs := by
    rw [seeds, seeds, hnames, hseed]
  have hlater : later as = later bs := by
    rw [later, later, hnames, hseed]
  have hplacement : placement as = placement bs := by
    rw [placement, placement, hparent, hseeds, hlater]
  have hlacks : lacksParent as = lacksParent bs := by
    funext n
    rw [lacksParent, lacksParent, hnames, hparent]
  rw [order, order, hplacement, hlacks, hparent, hseeds, hnamespaces]

section Perm

variable (h : as.Perm bs)

include h

/-- The names of a batch are sorted, so they do not depend on its order. -/
theorem names_perm : names as = names bs :=
  nameSet_congr fun _ => (h.map ClassModel.name).mem_iff

/-- Nor do its namespaces. -/
theorem namespaces_perm : namespaces as = namespaces bs := by
  apply nameSet_congr
  intro ns
  exact ((h.flatMap_right ClassModel.referenced).filterMap _).mem_iff

/-- Nor does the parent of a class, if names are different. -/
theorem parentOf?_perm (distinct : (as.map ClassModel.name).Nodup) :
    parentOf? as = parentOf? bs := by
  have hmap := h.map ClassModel.name
  have distinct' : (bs.map ClassModel.name).Nodup := hmap.nodup_iff.mp distinct
  funext n
  by_cases hn : n ∈ as.map ClassModel.name
  · obtain ⟨c, hc, rfl⟩ := List.mem_map.mp hn
    rw [parentOf?_name distinct hc, parentOf?_name distinct' (h.mem_iff.mp hc)]
  · rw [parentOf?_eq_none hn, parentOf?_eq_none (mt hmap.mem_iff.mpr hn)]

end Perm

/-- However a batch of classes with different names is listed, it is ordered alike: with the same
classes in the same places, the same namespaces and the same line of them, or with the same error
about the same class and parent. -/
theorem order_perm (h : as.Perm bs) (distinct : (as.map ClassModel.name).Nodup) :
    order as = order bs ∧ (order as).map Order.line = (order bs).map Order.line := by
  have horder : order as = order bs :=
    order_congr (names_perm h) (parentOf?_perm h distinct) (namespaces_perm h)
  exact ⟨horder, by rw [horder]⟩

/-- Two classes that mention others: `Wheel` waits for `Part`, and `Axle` for `Wheel`. -/
def geared : List ClassModel :=
  [{ (default : ClassModel) with
      name := "Axle", parent := some "Wheel", referenced := ["maths::Vector", "Part"] },
    { (default : ClassModel) with name := "Part" },
    { (default : ClassModel) with
      name := "Wheel", parent := some "Part", referenced := ["geometry::Frame"] }]

/-- The classes in the opposite order are ordered as before. -/
theorem order_geared_reverse : (geared.map ClassModel.name).Nodup ∧
    order geared.reverse = .ok ⟨["Part", "Wheel", "Axle"], ["geometry", "maths"]⟩ ∧
    (order geared.reverse).map Order.line = .ok "geometry;maths" := by
  have distinct : (geared.map ClassModel.name).Nodup := by decide
  have h : order geared = .ok ⟨["Part", "Wheel", "Axle"], ["geometry", "maths"]⟩ := by
    decide +kernel
  obtain ⟨horder, hline⟩ := order_perm geared.reverse_perm.symm distinct
  refine ⟨distinct, horder.symm.trans h, hline.symm.trans ?_⟩
  rw [h]
  decide

end ClassSchema.Batch
