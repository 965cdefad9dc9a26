import Mathlib.Logic.Function.Iterate
import ClassSchema.Proofs.Resolve.Walk
import ClassSchema.Proofs.Text.Join

/-! # The order of properties

The walk through the tree of properties ends, and fails only where it meets a node that is no
mapping or a key without a text. What it finds are the properties of the tree, those of a lower
depth first and at one depth in the order of the document. -/

namespace ClassSchema.Resolve

open Yaml

/-! ## Sites -/

/-- A site of a tree: the positions and the keys of the entries that lead there, and what stands
there. -/
structure Site where
  place : List Nat
  keys : List Value
  value : Value

/-- The sites that are reached from the top through mappings without `type`. -/
inductive Reached (tree : Entries) : Site → Prop
  | top {i : Nat} {k v : Value} (entry : tree[i]? = some (k, v)) : Reached tree ⟨[i], [k], v⟩
  | inside {place : List Nat} {keys : List Value} {es : Entries} {i : Nat} {k v : Value}
      (group : Reached tree ⟨place, keys, .mapping es⟩) (no_type : isLeaf es = false)
      (entry : es[i]? = some (k, v)) : Reached tree ⟨place ++ [i], keys ++ [k], v⟩

/-- A lower depth comes first, and at one depth what comes first in the document. -/
def Precedes (a b : List Nat) : Prop := a.length < b.length ∨ a.length = b.length ∧ a < b

/-- The node stands at the site, and its path has the texts of the keys that lead there. -/
structure Shows (site : Site) (node : PathNode) : Prop where
  path_eq : ∃ text texts, List.Forall₂ (fun k t => keyText k = .ok t) site.keys (text :: texts) ∧
    node.1 = Text.join "/" (text :: texts)
  value_eq : node.2 = site.value

/-- The keys on the way to a node have texts. -/
theorem Shows.isScalar {site : Site} {node : PathNode} (h : Shows site node) :
    ∀ k ∈ site.keys, IsScalar k := by
  intro k hk
  obtain ⟨text, texts, hall, -⟩ := h.path_eq
  obtain ⟨t, -, ht⟩ := exists_of_mem_left hall hk
  exact exists_keyText_iff.mp ⟨t, ht⟩

section SitesIn

variable {place : List Nat} {keys : List Value} {es : Entries}

/-- The sites of the entries of a mapping. -/
def sitesIn (place : List Nat) (keys : List Value) (es : Entries) : List Site :=
  es.mapIdx fun i e => ⟨place ++ [i], keys ++ [e.1], e.2⟩

/-- There is one site for each entry. -/
theorem mem_sitesIn {site : Site} : site ∈ sitesIn place keys es ↔
    ∃ i k v, es[i]? = some (k, v) ∧ site = ⟨place ++ [i], keys ++ [k], v⟩ := by
  rw [sitesIn, List.mem_mapIdx]
  constructor
  · rintro ⟨i, hi, rfl⟩
    exact ⟨i, _, _, List.getElem?_eq_getElem hi, rfl⟩
  · rintro ⟨i, k, v, hi, rfl⟩
    obtain ⟨hlt, heq⟩ := List.getElem?_eq_some_iff.mp hi
    exact ⟨i, hlt, by rw [heq]⟩

/-- The last key on the way to a site is that of its entry. -/
theorem isScalar_of_sitesIn (h : ∀ site ∈ sitesIn place keys es, ∀ k ∈ site.keys, IsScalar k) :
    ∀ e ∈ es, IsScalar e.1 := by
  intro e he
  obtain ⟨i, hi⟩ := List.mem_iff_getElem?.mp he
  exact h _ (mem_sitesIn.mpr ⟨i, _, _, hi, rfl⟩) e.1 (by simp)

/-- The first level is that of the entries of the tree. -/
theorem shows_topLevel {level : List PathNode} (h : topLevel es = .ok level) :
    List.Forall₂ Shows (sitesIn [] [] es) level := by
  rw [topLevel_eq_mapM] at h
  refine forall₂_mapIdx (fun i e node hnode => ?_) (forall₂_of_mapM h)
  obtain ⟨key, hkey, rfl⟩ := nodeOf_eq_ok hnode
  exact ⟨⟨key, [], .cons hkey .nil, rfl⟩, rfl⟩

/-- The nodes below a node stand at the sites below its site. -/
theorem shows_childrenOf {v : Value} {path : String} {children : List PathNode}
    (hshows : Shows ⟨place, keys, v⟩ (path, v)) (h : childrenOf path es = .ok children) :
    List.Forall₂ Shows (sitesIn place keys es) children := by
  obtain ⟨⟨text, texts, hall, hpath⟩, -⟩ := hshows
  rw [childrenOf_eq_mapM] at h
  refine forall₂_mapIdx (fun i e node hnode => ?_) (forall₂_of_mapM h)
  obtain ⟨key, hkey, rfl⟩ := nodeOf_eq_ok hnode
  refine ⟨⟨text, texts ++ [key], List.rel_append hall (.cons hkey .nil), ?_⟩, rfl⟩
  rw [Text.join_cons_append, ← hpath, List.map_singleton, String.append_assoc]
  rfl

end SitesIn

/-! ## Levels -/

namespace Site

/-- A mapping with `type` stands at the site. -/
def isProperty (site : Site) : Bool :=
  match site.value with
  | .mapping es => isLeaf es
  | _ => false

/-- The sites right below a mapping without `type`. -/
def children (site : Site) : List Site :=
  match site.value with
  | .mapping es => if isLeaf es then [] else sitesIn site.place site.keys es
  | _ => []

theorem isProperty_iff {site : Site} : site.isProperty = true ↔ IsProperty site.value := by
  obtain ⟨place, keys, value⟩ := site
  constructor
  · intro h
    cases value with
    | mapping es => exact ⟨es, rfl, h⟩
    | _ => cases h
  · rintro ⟨es, rfl, hleaf⟩
    exact hleaf

/-- Only a group has sites below it. -/
theorem mem_children {site child : Site} : child ∈ site.children ↔
    ∃ es, site.value = .mapping es ∧ isLeaf es = false ∧
      child ∈ sitesIn site.place site.keys es := by
  obtain ⟨place, keys, value⟩ := site
  cases value with
  | mapping es => cases hleaf : isLeaf es <;> simp [children, hleaf]
  | _ => simp [children]

end Site

/-- The sites right below those of a level. -/
def nextLevel (sites : List Site) : List Site := sites.flatMap Site.children

/-- The properties of so many levels, of which the first is given. -/
def found : (depth : Nat) → List Site → List Site
  | 0, _ => []
  | depth + 1, sites => sites.filter Site.isProperty ++ found depth (nextLevel sites)

section Levels

variable {place : List Nat} {keys : List Value} {es : Entries} {sites : List Site}

/-- Nothing is below a property. -/
theorem nextLevel_leaf (h : isLeaf es = true) :
    nextLevel (⟨place, keys, .mapping es⟩ :: sites) = nextLevel sites := by
  simp [nextLevel, Site.children, h]

/-- The entries of a group are in the next level. -/
theorem nextLevel_group (h : isLeaf es = false) :
    nextLevel (⟨place, keys, .mapping es⟩ :: sites) = sitesIn place keys es ++ nextLevel sites := by
  simp [nextLevel, Site.children, h]

variable {depth : Nat} {level ls next nodes : List PathNode}

/-- A level is split into its properties and the next level. -/
theorem shows_splitLevel (hshows : List.Forall₂ Shows sites level)
    (h : splitLevel level = .ok (ls, next)) :
    (∀ site ∈ sites, IsMapping site.value) ∧
      List.Forall₂ Shows (sites.filter Site.isProperty) ls ∧
      List.Forall₂ Shows (nextLevel sites) next := by
  induction hshows generalizing ls next with
  | nil =>
      cases h
      exact ⟨nofun, .nil, .nil⟩
  | @cons site node sites nodes hsite _ ih =>
      obtain ⟨place, keys, value⟩ := site
      obtain ⟨path, v⟩ := node
      obtain rfl : v = value := hsite.value_eq
      obtain ⟨es, ls', next', rfl, hrest, hfirst⟩ := splitLevel_cons_eq_ok h
      obtain ⟨hmapping, hls, hnext⟩ := ih hrest
      refine ⟨List.forall_mem_cons.mpr ⟨⟨es, rfl⟩, hmapping⟩, ?_⟩
      rw [List.filter_cons]
      rcases hfirst with ⟨hleaf, rfl, rfl⟩ | ⟨children, hgroup, hchildren, rfl, rfl⟩
      · rw [if_pos (by exact hleaf), nextLevel_leaf hleaf]
        exact ⟨.cons hsite hls, hnext⟩
      · rw [if_neg (by simp [Site.isProperty, hgroup]), nextLevel_group hgroup]
        exact ⟨hls, List.rel_append (shows_childrenOf hsite hchildren) hnext⟩

/-- It can be split if only mappings are there, under keys with texts. -/
theorem exists_splitLevel (hshows : List.Forall₂ Shows sites level)
    (hmapping : ∀ site ∈ sites, IsMapping site.value)
    (hkeys : ∀ site ∈ nextLevel sites, ∀ k ∈ site.keys, IsScalar k) :
    ∃ ls next, splitLevel level = .ok (ls, next) := by
  induction hshows with
  | nil => exact ⟨[], [], rfl⟩
  | @cons site node sites nodes hsite _ ih =>
      obtain ⟨place, keys, value⟩ := site
      obtain ⟨path, v⟩ := node
      obtain rfl : v = value := hsite.value_eq
      rw [List.forall_mem_cons] at hmapping
      obtain ⟨⟨es, hes⟩, hmapping⟩ := hmapping
      dsimp only at hes
      subst hes
      cases hleaf : isLeaf es with
      | true =>
          rw [nextLevel_leaf hleaf] at hkeys
          obtain ⟨ls, next, hrest⟩ := ih hmapping hkeys
          exact ⟨_, _, by rw [splitLevel_leaf hleaf, hrest]; rfl⟩
      | false =>
          rw [nextLevel_group hleaf, List.forall_mem_append] at hkeys
          obtain ⟨ls, next, hrest⟩ := ih hmapping hkeys.2
          obtain ⟨children, hchildren⟩ := exists_mapM (f := nodeOf (path ++ "/" ++ ·)) fun e he =>
            exists_nodeOf _ (isScalar_of_sitesIn hkeys.1 e he)
          rw [← childrenOf_eq_mapM] at hchildren
          exact ⟨_, _, by rw [splitLevel_group hleaf, hchildren, hrest]; rfl⟩

/-- What the walk has met, and what it has found. -/
theorem shows_leavesFrom (hshows : List.Forall₂ Shows sites level)
    (h : leavesFrom depth level = .ok nodes) :
    (∀ n < depth, ∀ site ∈ nextLevel^[n] sites,
        IsMapping site.value ∧ ∀ k ∈ site.keys, IsScalar k) ∧
      List.Forall₂ Shows (found depth sites) nodes := by
  induction depth generalizing sites level nodes with
  | zero =>
      cases h
      exact ⟨nofun, .nil⟩
  | succ depth ih =>
      obtain ⟨ls, next, deeper, hsplit, hdeeper, rfl⟩ := leavesFrom_eq_ok h
      obtain ⟨hmapping, hls, hnext⟩ := shows_splitLevel hshows hsplit
      obtain ⟨hmet, hfound⟩ := ih hnext hdeeper
      refine ⟨fun n hn site hsite => ?_, List.rel_append hls hfound⟩
      cases n with
      | zero =>
          obtain ⟨node, -, hnode⟩ := exists_of_mem_left hshows hsite
          exact ⟨hmapping site hsite, hnode.isScalar⟩
      | succ n => exact hmet n (Nat.lt_of_succ_lt_succ hn) site hsite

/-- All levels can be walked if this is so in each of them. -/
theorem exists_leavesFrom (hshows : List.Forall₂ Shows sites level)
    (h : ∀ n, ∀ site ∈ nextLevel^[n] sites, IsMapping site.value ∧ ∀ k ∈ site.keys, IsScalar k) :
    ∃ nodes, leavesFrom depth level = .ok nodes := by
  induction depth generalizing sites level with
  | zero => exact ⟨[], rfl⟩
  | succ depth ih =>
      obtain ⟨ls, next, hsplit⟩ := exists_splitLevel hshows (fun site hsite => (h 0 site hsite).1)
        fun site hsite => (h 1 site hsite).2
      obtain ⟨deeper, hdeeper⟩ := ih (shows_splitLevel hshows hsplit).2.2 fun n => h (n + 1)
      exact ⟨ls ++ deeper, leavesFrom_succ hsplit hdeeper⟩

/-- The properties that are found are those of the levels that are walked. -/
theorem mem_found {site : Site} : site ∈ found depth sites ↔
    ∃ n < depth, site ∈ nextLevel^[n] sites ∧ IsProperty site.value := by
  induction depth generalizing sites with
  | zero => simp [found]
  | succ depth ih =>
      rw [found, List.mem_append, List.mem_filter, Site.isProperty_iff, ih]
      constructor
      · rintro (⟨hsite, hproperty⟩ | ⟨n, hn, hsite, hproperty⟩)
        · exact ⟨0, Nat.succ_pos depth, hsite, hproperty⟩
        · exact ⟨n + 1, Nat.succ_lt_succ hn, hsite, hproperty⟩
      · rintro ⟨n, hn, hsite, hproperty⟩
        cases n with
        | zero => exact .inl ⟨hsite, hproperty⟩
        | succ n => exact .inr ⟨n, Nat.lt_of_succ_lt_succ hn, hsite, hproperty⟩

/-- A site of the next level is an entry of a group. -/
theorem mem_nextLevel_succ {n : Nat} {site : Site} : site ∈ nextLevel^[n + 1] sites ↔
    ∃ place keys es, ⟨place, keys, .mapping es⟩ ∈ nextLevel^[n] sites ∧ isLeaf es = false ∧
      ∃ i k v, es[i]? = some (k, v) ∧ site = ⟨place ++ [i], keys ++ [k], v⟩ := by
  rw [Function.iterate_succ_apply', nextLevel, List.mem_flatMap]
  constructor
  · rintro ⟨⟨place, keys, value⟩, hparent, hchild⟩
    obtain ⟨es, rfl, hgroup, hsite⟩ := Site.mem_children.mp hchild
    exact ⟨place, keys, es, hparent, hgroup, mem_sitesIn.mp hsite⟩
  · rintro ⟨place, keys, es, hparent, hgroup, hsite⟩
    exact ⟨_, hparent, Site.mem_children.mpr ⟨es, rfl, hgroup, mem_sitesIn.mpr hsite⟩⟩

end Levels

/-- The levels of a tree together are what is reached. -/
theorem reached_iff {tree : Entries} {site : Site} :
    Reached tree site ↔ ∃ n, site ∈ nextLevel^[n] (sitesIn [] [] tree) := by
  constructor
  · intro h
    induction h with
    | @top i k v hentry => exact ⟨0, mem_sitesIn.mpr ⟨i, k, v, hentry, rfl⟩⟩
    | @inside place keys es i k v _ hgroup hentry ih =>
        obtain ⟨n, hn⟩ := ih
        exact ⟨n + 1, mem_nextLevel_succ.mpr
          ⟨place, keys, es, hn, hgroup, i, k, v, hentry, rfl⟩⟩
  · rintro ⟨n, hn⟩
    induction n generalizing site with
    | zero =>
        obtain ⟨i, k, v, hentry, rfl⟩ := mem_sitesIn.mp hn
        exact .top hentry
    | succ n ih =>
        obtain ⟨place, keys, es, hparent, hgroup, i, k, v, hentry, rfl⟩ := mem_nextLevel_succ.mp hn
        exact .inside (ih hparent) hgroup hentry

/-- No level lies deeper than the tree. -/
theorem depth_le_of_mem {tree : Entries} {n : Nat} {site : Site}
    (h : site ∈ nextLevel^[n] (sitesIn [] [] tree)) :
    n + site.value.depth ≤ Value.depthEntries tree := by
  induction n generalizing site with
  | zero =>
      obtain ⟨i, k, v, hentry, rfl⟩ := mem_sitesIn.mp h
      rw [Nat.zero_add]
      exact depth_le_depthEntries (List.mem_of_getElem? hentry)
  | succ n ih =>
      obtain ⟨place, keys, es, hparent, -, i, k, v, hentry, rfl⟩ := mem_nextLevel_succ.mp h
      have hle := ih hparent
      have hchild := depth_le_depthEntries (List.mem_of_getElem? hentry)
      rw [Value.depth] at hle
      dsimp only at hchild ⊢
      omega

/-! ## Order -/

/-- Places at one depth are ordered like all that is below them. -/
theorem append_lt_append {a b : List Nat} (hlength : a.length = b.length) (h : a < b)
    (c d : List Nat) : a ++ c < b ++ d := by
  induction a generalizing b with
  | nil =>
      rw [List.eq_nil_of_length_eq_zero hlength.symm] at h
      exact absurd h (List.lt_irrefl _)
  | cons m a ih =>
      cases b with
      | nil => cases hlength
      | cons n b =>
          rw [List.cons_append, List.cons_append]
          rcases List.cons_lt_cons_iff.mp h with hlt | ⟨rfl, hlt⟩
          · exact List.cons_lt_cons_iff.mpr (.inl hlt)
          · exact List.cons_lt_cons_iff.mpr (.inr ⟨rfl, ih (Nat.succ.inj hlength) hlt⟩)

/-- The sites lie at one depth, in the order of the document. -/
structure IsLevel (n : Nat) (sites : List Site) : Prop where
  length_eq : ∀ site ∈ sites, site.place.length = n
  ordered : sites.Pairwise fun a b => a.place < b.place

/-- The entries of a mapping lie at one depth. -/
theorem isLevel_sitesIn (place : List Nat) (keys : List Value) (es : Entries) :
    IsLevel (place.length + 1) (sitesIn place keys es) := by
  constructor
  · intro site hsite
    obtain ⟨i, k, v, -, rfl⟩ := mem_sitesIn.mp hsite
    exact List.length_append
  · rw [List.pairwise_iff_getElem]
    intro i j hi hj hij
    simp only [sitesIn, List.getElem_mapIdx]
    exact List.append_left_lt (List.cons_lt_cons_iff.mpr (.inl hij))

/-- So do the sites below a site. -/
theorem isLevel_children (site : Site) : IsLevel (site.place.length + 1) site.children := by
  unfold Site.children
  split
  · split
    · exact ⟨nofun, .nil⟩
    · exact isLevel_sitesIn _ _ _
  · exact ⟨nofun, .nil⟩

/-- A site below another has one position more. -/
theorem exists_place_of_mem_children {site child : Site} (h : child ∈ site.children) :
    ∃ i, child.place = site.place ++ [i] := by
  obtain ⟨es, -, -, hsite⟩ := Site.mem_children.mp h
  obtain ⟨i, k, v, -, rfl⟩ := mem_sitesIn.mp hsite
  exact ⟨i, rfl⟩

namespace IsLevel

variable {n : Nat} {sites : List Site}

/-- What lies below earlier sites comes before what lies below later ones. -/
theorem next (h : IsLevel n sites) : IsLevel (n + 1) (nextLevel sites) := by
  constructor
  · intro child hchild
    obtain ⟨site, hsite, hchild⟩ := List.mem_flatMap.mp hchild
    rw [(isLevel_children site).length_eq child hchild, h.length_eq site hsite]
  · refine List.pairwise_flatMap.mpr ⟨fun site _ => (isLevel_children site).ordered, ?_⟩
    refine h.ordered.imp_of_mem fun {a b} ha hb hlt c hc d hd => ?_
    obtain ⟨i, hi⟩ := exists_place_of_mem_children hc
    obtain ⟨j, hj⟩ := exists_place_of_mem_children hd
    rw [hi, hj]
    refine append_lt_append ?_ hlt [i] [j]
    rw [h.length_eq a ha, h.length_eq b hb]

/-- Nothing is found above the level where the walk begins. -/
theorem le_of_mem_found (h : IsLevel n sites) {depth : Nat} :
    ∀ site ∈ found depth sites, n ≤ site.place.length := by
  induction depth generalizing n sites with
  | zero => exact nofun
  | succ depth ih =>
      refine List.forall_mem_append.mpr ⟨fun site hsite => ?_, fun site hsite => ?_⟩
      · exact Nat.le_of_eq (h.length_eq site (List.mem_of_mem_filter hsite)).symm
      · exact Nat.le_of_succ_le (ih h.next site hsite)

/-- The properties are found level by level. -/
theorem ordered_found (h : IsLevel n sites) (depth : Nat) :
    (found depth sites).Pairwise fun a b => Precedes a.place b.place := by
  induction depth generalizing n sites with
  | zero => exact .nil
  | succ depth ih =>
      refine List.pairwise_append.mpr ⟨?_, ih h.next, fun a ha b hb => .inl ?_⟩
      · refine (h.ordered.filter _).imp_of_mem fun {a b} ha hb hlt => .inr ⟨?_, hlt⟩
        rw [h.length_eq a (List.mem_of_mem_filter ha), h.length_eq b (List.mem_of_mem_filter hb)]
      · rw [h.length_eq a (List.mem_of_mem_filter ha)]
        exact h.next.le_of_mem_found b hb

end IsLevel

/-! ## The walk -/

/-- The leaves of a tree are found by walking its levels. -/
theorem leaves_eq_drain (tree : Entries) : leaves tree = topLevel tree >>= drain := by
  unfold leaves
  cases htop : topLevel tree with
  | error e => rfl
  | ok level =>
      refine leavesFrom_eq_drain fun node hnode => ?_
      obtain ⟨site, hsite, hshows⟩ := exists_of_mem_right (shows_topLevel htop) hnode
      have hle := @depth_le_of_mem tree 0 site hsite
      rw [hshows.value_eq]
      omega

/-- What is found in a tree, and in which order. -/
structure LevelOrder (tree : Entries) (sites : List Site) : Prop where
  mem_iff : ∀ site, site ∈ sites ↔ Reached tree site ∧ IsProperty site.value
  ordered : sites.Pairwise fun a b => Precedes a.place b.place

/-- The sites that are found are the properties, in level order. -/
theorem levelOrder_found (tree : Entries) :
    LevelOrder tree (found (Value.depthEntries tree + 1) (sitesIn [] [] tree)) := by
  refine ⟨fun site => ?_, (isLevel_sitesIn [] [] tree).ordered_found _⟩
  rw [mem_found, reached_iff]
  constructor
  · rintro ⟨n, -, hsite, hproperty⟩
    exact ⟨⟨n, hsite⟩, hproperty⟩
  · rintro ⟨⟨n, hsite⟩, hproperty⟩
    have hle := depth_le_of_mem hsite
    exact ⟨n, by omega, hsite, hproperty⟩

/-- If a tree can be walked, it has mappings and keys with texts only. -/
theorem shows_leaves {tree : Entries} {nodes : List PathNode} (h : leaves tree = .ok nodes) :
    (∀ site, Reached tree site → IsMapping site.value ∧ ∀ k ∈ site.keys, IsScalar k) ∧
      List.Forall₂ Shows (found (Value.depthEntries tree + 1) (sitesIn [] [] tree)) nodes := by
  obtain ⟨level, htop, hnodes⟩ := leaves_eq_ok h
  obtain ⟨hmet, hfound⟩ := shows_leavesFrom (shows_topLevel htop) hnodes
  refine ⟨fun site hsite => ?_, hfound⟩
  obtain ⟨n, hn⟩ := reached_iff.mp hsite
  have hle := depth_le_of_mem hn
  exact hmet n (by omega) site hn

/-- Such a tree can be walked. -/
theorem exists_leaves {tree : Entries}
    (h : ∀ site, Reached tree site → IsMapping site.value ∧ ∀ k ∈ site.keys, IsScalar k) :
    ∃ nodes, leaves tree = .ok nodes := by
  have hlevels (n : Nat) : ∀ site ∈ nextLevel^[n] (sitesIn [] [] tree),
      IsMapping site.value ∧ ∀ k ∈ site.keys, IsScalar k :=
    fun site hsite => h site (reached_iff.mpr ⟨n, hsite⟩)
  have hscalar := isScalar_of_sitesIn fun site hsite => (hlevels 0 site hsite).2
  obtain ⟨level, htop⟩ := exists_mapM fun e he => exists_nodeOf id (hscalar e he)
  rw [← topLevel_eq_mapM] at htop
  rw [leaves, htop]
  exact exists_leavesFrom (shows_topLevel htop) hlevels

/-- The walk with a queue ends. It succeeds if and only if all that it meets are mappings under keys
that have a text, and then it gives exactly the properties, each under its path: those of a lower
depth first, and at one depth in the order of the document. -/
theorem leaves_levelOrder (tree : Entries) :
    leaves tree = (topLevel tree >>= drain) ∧
    ((∃ nodes, leaves tree = .ok nodes) ↔
      ∀ site, Reached tree site → IsMapping site.value ∧ ∀ k ∈ site.keys, IsScalar k) ∧
    ∀ nodes, leaves tree = .ok nodes →
      ∃ sites, LevelOrder tree sites ∧ List.Forall₂ Shows sites nodes := by
  refine ⟨leaves_eq_drain tree, ⟨?_, exists_leaves⟩, fun nodes h => ?_⟩
  · rintro ⟨nodes, h⟩
    exact (shows_leaves h).1
  · exact ⟨_, levelOrder_found tree, (shows_leaves h).2⟩

/-- A tree with properties at three depths. -/
def armTree : Entries :=
  [(.string "arm", .mapping
      [(.string "joint", .mapping
          [(.number (.integer 1), .mapping [(.string "type", .string "FLOAT64")])]),
        (.string "mass", .mapping [(.string "type", .string "FLOAT64")])]),
    (.bool true, .mapping [(.string "type", .string "BOOLEAN")])]

/-- A property at the top comes before one that is written first, but in a group. -/
theorem leaves_levelOrder_armTree : ∃ nodes, leaves armTree = .ok nodes ∧
    nodes.map Prod.fst = ["true", "arm/mass", "arm/joint/1"] ∧
    ∃ sites, LevelOrder armTree sites ∧ List.Forall₂ Shows sites nodes := by
  have hpaths : ∃ nodes, leaves armTree = .ok nodes ∧
      nodes.map Prod.fst = ["true", "arm/mass", "arm/joint/1"] := by
    decide +kernel
  obtain ⟨nodes, hnodes, hpaths⟩ := hpaths
  exact ⟨nodes, hnodes, hpaths, (leaves_levelOrder armTree).2.2 nodes hnodes⟩

end ClassSchema.Resolve
