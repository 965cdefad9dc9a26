import ClassSchema.Proofs.Computation
import ClassSchema.Resolve

/-! # The walk through the tree of properties

The tree is walked with a queue: a node is taken off at its front, and the nodes that it groups are
put at its end. Taken level by level, with at most as many levels as the tree is deep, the walk
gives the same. -/

namespace ClassSchema.Resolve

open Yaml

/-! ## Nodes of entries -/

/-- The keys that have a text. -/
inductive IsScalar : Value → Prop
  | string (s : String) : IsScalar (.string s)
  | number (n : Number) : IsScalar (.number n)
  | bool (b : Bool) : IsScalar (.bool b)

/-- A key has a text if it is a scalar. -/
theorem exists_keyText_iff {k : Value} : (∃ key, keyText k = .ok key) ↔ IsScalar k := by
  constructor
  · rintro ⟨key, h⟩
    cases k with
    | string s => exact .string s
    | number n => exact .number n
    | bool b => exact .bool b
    | _ => cases h
  · rintro ⟨⟩ <;> exact ⟨_, rfl⟩

/-- The node of an entry, with its path made from the text of its key. -/
def nodeOf (path : String → String) (e : Value × Value) : Except Cause PathNode :=
  (keyText e.1).map fun key => (path key, e.2)

/-- A node has the path of its key, and the value of its entry. -/
theorem nodeOf_eq_ok {path : String → String} {e : Value × Value} {node : PathNode}
    (h : nodeOf path e = .ok node) : ∃ key, keyText e.1 = .ok key ∧ node = (path key, e.2) := by
  obtain ⟨key, hkey, rfl⟩ := map_eq_ok h
  exact ⟨key, hkey, rfl⟩

/-- An entry gives a node if its key is a scalar. -/
theorem exists_nodeOf (path : String → String) {e : Value × Value} (h : IsScalar e.1) :
    ∃ node, nodeOf path e = .ok node := by
  obtain ⟨key, hkey⟩ := exists_keyText_iff.mpr h
  exact ⟨(path key, e.2), by rw [nodeOf, hkey]; rfl⟩

/-- The first level has a node for each entry of the tree. -/
theorem topLevel_eq_mapM (tree : Entries) : topLevel tree = tree.mapM (nodeOf id) := by
  induction tree with
  | nil => rfl
  | cons e es ih =>
      obtain ⟨k, v⟩ := e
      rw [topLevel, List.mapM_cons, ← ih, nodeOf]
      cases keyText k with
      | error e => rfl
      | ok key => cases topLevel es <;> rfl

/-- Below a node there is one for each entry of its mapping. -/
theorem childrenOf_eq_mapM (path : String) (es : Entries) :
    childrenOf path es = es.mapM (nodeOf (path ++ "/" ++ ·)) := by
  induction es with
  | nil => rfl
  | cons e es ih =>
      obtain ⟨k, v⟩ := e
      rw [childrenOf, List.mapM_cons, ← ih, nodeOf]
      cases keyText k with
      | error e => rfl
      | ok key => cases childrenOf path es <;> rfl

/-! ## Levels -/

/-- The value is a mapping. -/
def IsMapping (v : Value) : Prop := ∃ es, v = .mapping es

section Split

variable {path : String} {v : Value} {es : Entries} {nodes ls next : List PathNode}

/-- A mapping with `type` is a property. -/
theorem splitLevel_leaf (h : isLeaf es = true) : splitLevel ((path, .mapping es) :: nodes) =
    (splitLevel nodes).map (Prod.map ((path, .mapping es) :: ·) id) := by
  rw [splitLevel, if_pos h]
  cases splitLevel nodes <;> rfl

/-- Any other mapping is a group, and its entries go to the next level. -/
theorem splitLevel_group (h : isLeaf es = false) : splitLevel ((path, .mapping es) :: nodes) =
    childrenOf path es >>= fun children =>
      (splitLevel nodes).map (Prod.map id (children ++ ·)) := by
  rw [splitLevel, if_neg (by simp [h])]
  cases childrenOf path es with
  | error e => rfl
  | ok children => cases splitLevel nodes <;> rfl

/-- What is no mapping is an error. -/
theorem splitLevel_other (h : ¬ IsMapping v) :
    splitLevel ((path, v) :: nodes) = .error (.notMapping path) := by
  cases v with
  | mapping es => exact absurd ⟨es, rfl⟩ h
  | _ => rfl

/-- A level can be split if its first node is a property or a group. -/
theorem splitLevel_cons_eq_ok (h : splitLevel ((path, v) :: nodes) = .ok (ls, next)) :
    ∃ es ls' next', v = .mapping es ∧ splitLevel nodes = .ok (ls', next') ∧
      (isLeaf es = true ∧ ls = (path, v) :: ls' ∧ next = next' ∨
        ∃ children, isLeaf es = false ∧ childrenOf path es = .ok children ∧ ls = ls' ∧
          next = children ++ next') := by
  by_cases hv : IsMapping v
  · obtain ⟨es, rfl⟩ := hv
    cases hleaf : isLeaf es with
    | true =>
        rw [splitLevel_leaf hleaf] at h
        obtain ⟨⟨ls', next'⟩, hrest, hsplit⟩ := map_eq_ok h
        cases hsplit
        exact ⟨es, ls', next', rfl, hrest, .inl ⟨hleaf, rfl, rfl⟩⟩
    | false =>
        rw [splitLevel_group hleaf] at h
        obtain ⟨children, hchildren, h⟩ := bind_eq_ok h
        obtain ⟨⟨ls', next'⟩, hrest, hsplit⟩ := map_eq_ok h
        cases hsplit
        exact ⟨es, ls', next', rfl, hrest, .inr ⟨children, hleaf, hchildren, rfl, rfl⟩⟩
  · rw [splitLevel_other hv] at h
    cases h

end Split

section Levels

variable {depth : Nat} {level ls next nodes deeper : List PathNode}

/-- The properties of a level come before those of the levels below. -/
theorem leavesFrom_succ (hlevel : splitLevel level = .ok (ls, next))
    (hdeeper : leavesFrom depth next = .ok deeper) :
    leavesFrom (depth + 1) level = .ok (ls ++ deeper) := by
  simp only [leavesFrom, hlevel, hdeeper]

/-- Nothing is found in an empty level. -/
theorem leavesFrom_nil (depth : Nat) : leavesFrom depth [] = .ok [] := by
  induction depth with
  | zero => rfl
  | succ depth ih => exact leavesFrom_succ (show splitLevel [] = .ok ([], []) from rfl) ih

/-- What is found is found in the level, or below it. -/
theorem leavesFrom_eq_ok (h : leavesFrom (depth + 1) level = .ok nodes) :
    ∃ ls next deeper, splitLevel level = .ok (ls, next) ∧ leavesFrom depth next = .ok deeper ∧
      nodes = ls ++ deeper := by
  rw [leavesFrom] at h
  cases hsplit : splitLevel level with
  | error e =>
      rw [hsplit] at h
      cases h
  | ok split =>
      obtain ⟨ls, next⟩ := split
      rw [hsplit] at h
      dsimp only at h
      cases hdeeper : leavesFrom depth next with
      | error e =>
          rw [hdeeper] at h
          cases h
      | ok deeper =>
          rw [hdeeper] at h
          cases h
          exact ⟨ls, next, deeper, rfl, hdeeper, rfl⟩

/-- The walk starts at the top, and is as deep as the tree. -/
theorem leaves_eq_ok {tree : Entries} (h : leaves tree = .ok nodes) :
    ∃ level, topLevel tree = .ok level ∧
      leavesFrom (Value.depthEntries tree + 1) level = .ok nodes := by
  rw [leaves] at h
  cases htop : topLevel tree with
  | error e =>
      rw [htop] at h
      cases h
  | ok level =>
      rw [htop] at h
      exact ⟨level, rfl, h⟩

/-- A mapping that describes a property. -/
def IsProperty (v : Value) : Prop := ∃ es, v = .mapping es ∧ isLeaf es = true

/-- What is found in a level are properties. -/
theorem isProperty_of_splitLevel (h : splitLevel level = .ok (ls, next)) :
    ∀ node ∈ ls, IsProperty node.2 := by
  induction level generalizing ls next with
  | nil =>
      cases h
      exact nofun
  | cons node nodes ih =>
      obtain ⟨path, v⟩ := node
      obtain ⟨es, ls', next', rfl, hrest, hfirst⟩ := splitLevel_cons_eq_ok h
      rcases hfirst with ⟨hleaf, rfl, -⟩ | ⟨children, -, -, rfl, -⟩
      · exact List.forall_mem_cons.mpr ⟨⟨es, rfl, hleaf⟩, ih hrest⟩
      · exact ih hrest

theorem isProperty_of_leavesFrom (h : leavesFrom depth level = .ok nodes) :
    ∀ node ∈ nodes, IsProperty node.2 := by
  induction depth generalizing level nodes with
  | zero =>
      cases h
      exact nofun
  | succ depth ih =>
      obtain ⟨ls, next, deeper, hlevel, hdeeper, rfl⟩ := leavesFrom_eq_ok h
      exact List.forall_mem_append.mpr ⟨isProperty_of_splitLevel hlevel, ih hdeeper⟩

/-- All leaves are properties. -/
theorem isProperty_of_leaves {tree : Entries} (h : leaves tree = .ok nodes) :
    ∀ node ∈ nodes, IsProperty node.2 := by
  obtain ⟨level, -, hlevel⟩ := leaves_eq_ok h
  exact isProperty_of_leavesFrom hlevel

/-- A property by itself is found under its path. -/
theorem leaves_single {node : PathNode} (h : IsProperty node.2) :
    leaves [(.string node.1, node.2)] = .ok [node] := by
  obtain ⟨path, value⟩ := node
  obtain ⟨es, rfl, hleaf⟩ := h
  have htop : topLevel [(.string path, .mapping es)] = .ok [(path, .mapping es)] := rfl
  have hsplit : splitLevel [(path, .mapping es)] = .ok ([(path, .mapping es)], []) := by
    rw [splitLevel_leaf hleaf]
    rfl
  rw [leaves, htop]
  exact leavesFrom_succ hsplit (leavesFrom_nil _)

end Levels

/-! ## The queue -/

/-- The size of all that waits. -/
noncomputable def weight : List PathNode → Nat
  | [] => 0
  | node :: nodes => sizeOf node.2 + weight nodes

/-- Weights add up. -/
theorem weight_append (a b : List PathNode) : weight (a ++ b) = weight a + weight b := by
  induction a with
  | nil => exact (Nat.zero_add _).symm
  | cons node a ih => rw [List.cons_append, weight, weight, ih, Nat.add_assoc]

/-- The children of a node weigh less than the node. -/
theorem weight_childrenOf {path : String} {es : Entries} {children : List PathNode}
    (h : childrenOf path es = .ok children) : weight children < sizeOf (Value.mapping es) := by
  rw [childrenOf_eq_mapM] at h
  have hall := forall₂_of_mapM h
  have hle : weight children ≤ sizeOf es := by
    clear h
    induction hall with
    | nil => exact Nat.zero_le _
    | @cons e node es nodes hnode _ ih =>
        obtain ⟨k, v⟩ := e
        obtain ⟨key, -, rfl⟩ := nodeOf_eq_ok hnode
        rw [weight, List.cons.sizeOf_spec, Prod.mk.sizeOf_spec]
        dsimp only
        omega
  rw [Value.mapping.sizeOf_spec]
  omega

/-- The walk with a queue: the first node is taken off, and if it groups others, these are put at
the end. -/
def drain (queue : List PathNode) : Except Cause (List PathNode) :=
  match queue with
  | [] => .ok []
  | (path, .mapping es) :: queue =>
      if isLeaf es then (drain queue).map ((path, .mapping es) :: ·)
      else match _ : childrenOf path es with
        | .error e => .error e
        | .ok children => drain (queue ++ children)
  | (path, _) :: _ => .error (.notMapping path)
termination_by weight queue
decreasing_by
  · rw [weight, Value.mapping.sizeOf_spec]
    omega
  · rename_i hchildren
    have hlt := weight_childrenOf hchildren
    rw [weight_append, weight]
    dsimp only
    omega

section Drain

variable {path : String} {v : Value} {es : Entries} (queue : List PathNode)

/-- A property at the front of the queue is a result. -/
theorem drain_leaf (h : isLeaf es = true) : drain ((path, .mapping es) :: queue) =
    (drain queue).map ((path, .mapping es) :: ·) := by
  rw [drain, if_pos h]

/-- The entries of a group go to the end of the queue. -/
theorem drain_group (h : isLeaf es = false) : drain ((path, .mapping es) :: queue) =
    childrenOf path es >>= fun children => drain (queue ++ children) := by
  rw [drain, if_neg (by simp [h])]
  split
  · rename_i e he
    rw [he]
    rfl
  · rename_i children hchildren
    rw [hchildren]
    rfl

/-- What is no mapping ends the walk with an error. -/
theorem drain_other (h : ¬ IsMapping v) :
    drain ((path, v) :: queue) = .error (.notMapping path) := by
  rw [drain]
  rintro es rfl
  exact h ⟨es, rfl⟩

/-- While a level is taken off the queue, the next one is put behind it. -/
theorem drain_append (level queue : List PathNode) : drain (level ++ queue) =
    splitLevel level >>= fun split => (drain (queue ++ split.2)).map (split.1 ++ ·) := by
  induction level generalizing queue with
  | nil =>
      change drain queue = (drain (queue ++ [])).map ([] ++ ·)
      rw [List.append_nil]
      cases drain queue <;> rfl
  | cons node nodes ih =>
      obtain ⟨path, v⟩ := node
      rw [List.cons_append]
      by_cases hv : IsMapping v
      · obtain ⟨es, rfl⟩ := hv
        cases hleaf : isLeaf es with
        | true =>
            rw [drain_leaf _ hleaf, splitLevel_leaf hleaf, ih]
            cases splitLevel nodes with
            | error e => rfl
            | ok split =>
                change ((drain (queue ++ split.2)).map _).map _ = (drain (queue ++ split.2)).map _
                cases drain (queue ++ split.2) <;> rfl
        | false =>
            rw [drain_group _ hleaf, splitLevel_group hleaf]
            cases childrenOf path es with
            | error e => rfl
            | ok children =>
                change drain (nodes ++ queue ++ children) = _
                rw [List.append_assoc, ih]
                cases splitLevel nodes with
                | error e => rfl
                | ok split =>
                    change (drain (queue ++ children ++ split.2)).map _
                      = (drain (queue ++ (children ++ split.2))).map _
                    rw [List.append_assoc]
                    rfl
      · rw [drain_other _ hv, splitLevel_other hv]
        rfl

end Drain

/-- An entry is at most as deep as all entries together. -/
theorem depth_le_depthEntries {es : Entries} {e : Value × Value} (h : e ∈ es) :
    e.2.depth ≤ Value.depthEntries es := by
  induction es with
  | nil => cases h
  | cons e' es ih =>
      obtain ⟨k, v⟩ := e'
      rw [Value.depthEntries]
      rcases List.mem_cons.mp h with rfl | h
      · exact Nat.le_trans (Nat.le_max_right _ _) (Nat.le_max_left _ _)
      · exact Nat.le_trans (ih h) (Nat.le_max_right _ _)

/-- The next level is less deep. -/
theorem depth_of_splitLevel {depth : Nat} {level ls next : List PathNode}
    (h : splitLevel level = .ok (ls, next)) (hdepth : ∀ node ∈ level, node.2.depth < depth + 1) :
    ∀ node ∈ next, node.2.depth < depth := by
  induction level generalizing ls next with
  | nil =>
      cases h
      exact nofun
  | cons node nodes ih =>
      obtain ⟨path, v⟩ := node
      rw [List.forall_mem_cons] at hdepth
      obtain ⟨es, ls', next', rfl, hrest, hfirst⟩ := splitLevel_cons_eq_ok h
      rcases hfirst with ⟨-, -, rfl⟩ | ⟨children, -, hchildren, -, rfl⟩
      · exact ih hrest hdepth.2
      · refine List.forall_mem_append.mpr ⟨fun node hnode => ?_, ih hrest hdepth.2⟩
        rw [childrenOf_eq_mapM] at hchildren
        obtain ⟨e, he, hnode⟩ := exists_of_mem_mapM hchildren hnode
        obtain ⟨key, -, rfl⟩ := nodeOf_eq_ok hnode
        have hle := depth_le_depthEntries he
        have hlt := hdepth.1
        rw [Value.depth] at hlt
        dsimp only at hlt ⊢
        omega

/-- With more levels than a tree is deep, the bound on their number does not matter. -/
theorem leavesFrom_eq_drain {depth : Nat} {level : List PathNode}
    (h : ∀ node ∈ level, node.2.depth < depth) : leavesFrom depth level = drain level := by
  induction depth generalizing level with
  | zero =>
      obtain rfl : level = [] := List.eq_nil_iff_forall_not_mem.mpr fun node hnode =>
        Nat.not_lt_zero _ (h node hnode)
      rw [drain]
      rfl
  | succ depth ih =>
      rw [← List.append_nil level, drain_append, List.append_nil, leavesFrom]
      cases hsplit : splitLevel level with
      | error e => rfl
      | ok split =>
          obtain ⟨ls, next⟩ := split
          dsimp only
          rw [ih (depth_of_splitLevel hsplit h)]
          change _ = (drain next).map (ls ++ ·)
          cases drain next <;> rfl

end ClassSchema.Resolve
