import ClassSchema.Proofs.Document.Sections
import ClassSchema.Proofs.Resolve.Steps
import ClassSchema.Proofs.Resolve.Walk

/-! # The members of a class

Properties and relations share one space of names. A class has one member for each leaf of the tree
of properties and one for each relation of its document; where a name is given twice, resolution
stops there. -/

namespace ClassSchema

namespace Resolve

/-- The names of the members, in the order in which they are resolved. -/
def members (nodes : List PathNode) (entries : Entries) : List (Member × String) :=
  nodes.map (fun node => (.property, node.1))
    ++ entries.filterMap fun entry => (keyText entry.1).toOption.map (.relation, ·)

/-- The first member whose name was given before, and what it was given to. -/
def FirstClash (ms : List (Member × String)) (member existing : Member) (name : String) : Prop :=
  ∃ before after, ms = before ++ (member, name) :: after ∧ (before.map Prod.snd).Nodup ∧
    (existing, name) ∈ before

variable {target : Target} {className : String}

/-! ## Names that are given one after the other -/

section Taken

variable {α β : Type} {f : α → String} {as : List α} {taken : List String}

theorem forall_not_mem_cons {a : α} (hnew : f a ∉ as.map f) (hfree : ∀ b ∈ as, f b ∉ taken) :
    ∀ b ∈ as, f b ∉ f a :: taken := by
  intro b hb hmem
  rcases List.mem_cons.mp hmem with heq | htaken
  · exact hnew (heq ▸ List.mem_map_of_mem hb)
  · exact hfree b hb htaken

/-- Of names that are not all new, one is the first that is not. -/
theorem exists_first_taken (h : ¬ ((as.map f).Nodup ∧ ∀ a ∈ as, f a ∉ taken)) :
    ∃ before a after, as = before ++ a :: after ∧ (before.map f).Nodup ∧
      (∀ b ∈ before, f b ∉ taken) ∧ (f a ∈ taken ∨ f a ∈ before.map f) := by
  induction as generalizing taken with
  | nil => exact absurd ⟨.nil, nofun⟩ h
  | cons a as ih =>
      by_cases ha : f a ∈ taken
      · exact ⟨[], a, as, rfl, .nil, nofun, .inl ha⟩
      have hrest : ¬ ((as.map f).Nodup ∧ ∀ b ∈ as, f b ∉ f a :: taken) := by
        rintro ⟨hnodup, hfree⟩
        apply h
        rw [List.map_cons, List.nodup_cons, List.forall_mem_cons]
        refine ⟨⟨?_, hnodup⟩, ha, fun b hb htaken => hfree b hb (List.mem_cons_of_mem _ htaken)⟩
        intro hmem
        obtain ⟨b, hb, heq⟩ := List.mem_map.mp hmem
        exact hfree b hb (heq ▸ List.mem_cons_self)
      obtain ⟨before, x, after, rfl, hnodup, hfree, hx⟩ := ih hrest
      refine ⟨a :: before, x, after, rfl, ?_, ?_, ?_⟩
      · rw [List.map_cons, List.nodup_cons]
        refine ⟨fun hmem => ?_, hnodup⟩
        obtain ⟨b, hb, heq⟩ := List.mem_map.mp hmem
        exact hfree b hb (heq ▸ List.mem_cons_self)
      · rw [List.forall_mem_cons]
        exact ⟨ha, fun b hb htaken => hfree b hb (List.mem_cons_of_mem _ htaken)⟩
      · rw [List.map_cons, List.mem_cons]
        rcases hx with hx | hx
        · rcases List.mem_cons.mp hx with heq | htaken
          · exact .inr (.inl heq)
          · exact .inl htaken
        · exact .inr (.inr hx)

/-- If each of some elements with new names can be resolved, it depends on those after them whether
all can be, the names being taken. -/
theorem run_append {run : List String → List α → Except Error (List β)} {rest : List α}
    (step : ∀ a ∈ as, ∃ b, ∀ taken rest, f a ∉ taken →
      run taken (a :: rest) = (run (f a :: taken) rest).map (b :: ·))
    (hnodup : (as.map f).Nodup) (hfree : ∀ a ∈ as, f a ∉ taken) :
    ∃ bs, run taken (as ++ rest) = (run ((as.map f).reverse ++ taken) rest).map (bs ++ ·) := by
  induction as generalizing taken with
  | nil =>
      refine ⟨[], ?_⟩
      change run taken rest = (run taken rest).map id
      rw [Except.map_id]
      rfl
  | cons a as ih =>
      obtain ⟨⟨b, hb⟩, step⟩ := List.forall_mem_cons.mp step
      obtain ⟨hnew, hfree⟩ := List.forall_mem_cons.mp hfree
      rw [List.map_cons, List.nodup_cons] at hnodup
      obtain ⟨bs, hbs⟩ := ih step hnodup.2 (forall_not_mem_cons hnodup.1 hfree)
      refine ⟨b :: bs, ?_⟩
      have htaken : ((a :: as).map f).reverse ++ taken = (as.map f).reverse ++ f a :: taken := by
        simp
      rw [List.cons_append, hb _ _ hnew, hbs, htaken]
      cases run ((as.map f).reverse ++ f a :: taken) rest <;> rfl

end Taken

/-! ## Properties -/

section Properties

variable {taken : List String} {nodes rest : List PathNode} {node : PathNode}

/-- A path that is taken is an error. -/
theorem propertiesFrom_cons_taken (h : node.1 ∈ taken) :
    propertiesFrom target className taken (node :: rest) =
      .error ⟨className, node.1, .duplicateName .property node.1 .property⟩ := by
  rw [propertiesFrom, if_pos h]
  rfl

/-- A new path is taken, and the rest follows. -/
theorem propertiesFrom_cons_new {p : Property} (hp : property target node.1 node.2 = .ok p)
    (h : node.1 ∉ taken) :
    propertiesFrom target className taken (node :: rest) =
      (propertiesFrom target className (node.1 :: taken) rest).map (p :: ·) := by
  rw [propertiesFrom, if_neg h, hp]
  rfl

variable (h : ∀ node ∈ nodes, ∃ p, property target node.1 node.2 = .ok p)
  (hnodup : (nodes.map Prod.fst).Nodup)

include h hnodup

/-- After nodes with different paths, the rest is resolved with these taken. -/
theorem propertiesFrom_append : ∃ ps, propertiesFrom target className [] (nodes ++ rest) =
    (propertiesFrom target className (nodes.map Prod.fst).reverse rest).map (ps ++ ·) := by
  have hrun := @run_append PathNode Property Prod.fst nodes []
    (propertiesFrom target className) rest ?_ hnodup (fun _ _ => List.not_mem_nil)
  · rwa [List.append_nil] at hrun
  · intro node hnode
    obtain ⟨p, hp⟩ := h node hnode
    exact ⟨p, fun _ _ => propertiesFrom_cons_new hp⟩

/-- Nodes with different paths can all be resolved if each can. -/
theorem exists_propertiesFrom : ∃ ps, propertiesFrom target className [] nodes = .ok ps := by
  obtain ⟨ps, hps⟩ := @propertiesFrom_append target className nodes [] h hnodup
  exact ⟨ps ++ [], List.append_nil nodes ▸ hps⟩

/-- The first node with a path that is taken is reported. -/
theorem propertiesFrom_clash (hmem : node.1 ∈ nodes.map Prod.fst) :
    propertiesFrom target className [] (nodes ++ node :: rest) =
      .error ⟨className, node.1, .duplicateName .property node.1 .property⟩ := by
  obtain ⟨ps, hps⟩ := @propertiesFrom_append target className nodes (node :: rest) h hnodup
  rw [hps, propertiesFrom_cons_taken (List.mem_reverse.mpr hmem)]
  rfl

end Properties

/-! ## Relations -/

/-- The text of the key of an entry. -/
def nameOf (entry : Yaml.Value × Yaml.Value) : String := (keyText entry.1).toOption.getD ""

section Relations

variable {paths taken : List String} {entries rest : Entries} {entry : Yaml.Value × Yaml.Value}

/-- The relation that an entry gives, by itself. -/
def Gives (target : Target) (entry : Yaml.Value × Yaml.Value) (r : Relation) : Prop :=
  keyText entry.1 = .ok (nameOf entry) ∧ relation target (nameOf entry) entry.2 = .ok r

theorem keyText_nameOf {name : String} (h : keyText entry.1 = .ok name) : nameOf entry = name := by
  rw [nameOf, h]
  rfl

/-- An entry that gives a relation has a name. -/
theorem keyText_of_gives (h : ∃ r, Gives target entry r) :
    keyText entry.1 = .ok (nameOf entry) := by
  obtain ⟨r, hkey, -⟩ := h
  exact hkey

/-- A name that is taken by a relation is an error. -/
theorem relationsFrom_cons_taken (hkey : keyText entry.1 = .ok (nameOf entry))
    (h : nameOf entry ∈ taken) :
    relationsFrom target className paths taken (entry :: rest) =
      .error ⟨className, nameOf entry, .duplicateName .relation (nameOf entry) .relation⟩ := by
  rw [relationsFrom, hkey]
  change (inField className (nameOf entry) _ >>= _) = _
  rw [if_pos h]
  rfl

/-- So is one that is taken by a property. -/
theorem relationsFrom_cons_path (hkey : keyText entry.1 = .ok (nameOf entry))
    (h : nameOf entry ∉ taken) (hpath : nameOf entry ∈ paths) :
    relationsFrom target className paths taken (entry :: rest) =
      .error ⟨className, nameOf entry, .duplicateName .relation (nameOf entry) .property⟩ := by
  rw [relationsFrom, hkey]
  change (inField className (nameOf entry) _ >>= _) = _
  rw [if_neg h, if_pos hpath]
  rfl

/-- A new name is taken, and the rest follows. -/
theorem relationsFrom_cons_new {r : Relation} (hr : Gives target entry r)
    (hpath : nameOf entry ∉ paths) (h : nameOf entry ∉ taken) :
    relationsFrom target className paths taken (entry :: rest) =
      (relationsFrom target className paths (nameOf entry :: taken) rest).map (r :: ·) := by
  rw [relationsFrom, hr.1]
  change (inField className (nameOf entry) _ >>= _) = _
  rw [if_neg h, if_neg hpath, hr.2]
  rfl

variable (h : ∀ entry ∈ entries, ∃ r, Gives target entry r) (hnodup : (entries.map nameOf).Nodup)
  (hfree : ∀ entry ∈ entries, nameOf entry ∉ paths)

include h hnodup hfree

/-- After entries with different names, the rest is resolved with these taken. -/
theorem relationsFrom_append : ∃ rs, relationsFrom target className paths [] (entries ++ rest) =
    (relationsFrom target className paths (entries.map nameOf).reverse rest).map (rs ++ ·) := by
  have hrun := @run_append _ Relation nameOf entries []
    (relationsFrom target className paths) rest ?_ hnodup (fun _ _ => List.not_mem_nil)
  · rwa [List.append_nil] at hrun
  · intro entry hentry
    obtain ⟨r, hr⟩ := h entry hentry
    exact ⟨r, fun _ _ => relationsFrom_cons_new hr (hfree entry hentry)⟩

/-- The first entry with a name that is taken is reported, with what it is taken by. -/
theorem relationsFrom_clash {existing : Member} (hkey : keyText entry.1 = .ok (nameOf entry))
    (hmem : existing = .relation ∧ nameOf entry ∈ entries.map nameOf ∨
      existing = .property ∧ nameOf entry ∉ entries.map nameOf ∧ nameOf entry ∈ paths) :
    relationsFrom target className paths [] (entries ++ entry :: rest) =
      .error ⟨className, nameOf entry, .duplicateName .relation (nameOf entry) existing⟩ := by
  obtain ⟨rs, hrs⟩ :=
    @relationsFrom_append target className paths entries (entry :: rest) h hnodup hfree
  rw [hrs]
  rcases hmem with ⟨rfl, hmem⟩ | ⟨rfl, hmem, hpath⟩
  · rw [relationsFrom_cons_taken hkey (List.mem_reverse.mpr hmem)]
    rfl
  · rw [relationsFrom_cons_path hkey (mt List.mem_reverse.mp hmem) hpath]
    rfl

end Relations

end Resolve

/-! ## Documents with a single member -/

namespace Document

/-- The document with one property and no other member. -/
def onlyProperty (doc : Document) (node : Resolve.PathNode) : Document where
  name := doc.name
  parent := doc.parent
  properties := some [(.string node.1, node.2)]

/-- The document with one relation and no other member. -/
def onlyRelation (doc : Document) (entry : Yaml.Value × Yaml.Value) : Document where
  name := doc.name
  parent := doc.parent
  relations := some [entry]

end Document

namespace Resolve

variable {target : Target} {doc : Document} {c : ClassModel}

/-- A leaf that is resolved as the only property can be resolved. -/
theorem exists_property_of_only {node : PathNode} (hleaf : IsProperty node.2)
    (h : resolve target (doc.onlyProperty node) = .ok c) :
    ∃ p, property target node.1 node.2 = .ok p := by
  obtain ⟨s, -⟩ := exists_steps h
  obtain ⟨nodes, hnodes, hproperties⟩ := s.exists_leaves
  cases hnodes.symm.trans (leaves_single hleaf)
  obtain ⟨hall, -⟩ := propertiesFrom_eq_ok hproperties
  obtain ⟨p, -, hp, -⟩ := List.forall₂_cons_left_iff.mp hall
  exact ⟨p, hp⟩

/-- An entry that is resolved as the only relation gives a relation. -/
theorem exists_gives_of_only {entry : Yaml.Value × Yaml.Value}
    (h : resolve target (doc.onlyRelation entry) = .ok c) : ∃ r, Gives target entry r := by
  obtain ⟨s, -⟩ := exists_steps h
  obtain ⟨hall, -⟩ := relationsFrom_eq_ok s.ofRelations
  obtain ⟨r, -, ⟨hkey, hr⟩, -⟩ := List.forall₂_cons_left_iff.mp hall
  have hname := keyText_nameOf hkey
  exact ⟨r, hname ▸ hkey, hname ▸ hr⟩

/-! ## Whole documents -/

/-- The members of a class are those that its document gives, each by itself and once. -/
structure Kept (target : Target) (doc : Document) (c : ClassModel) : Prop where
  properties : ∃ nodes ps, leaves (doc.properties.getD []) = .ok nodes ∧ ps.Perm c.properties ∧
    List.Forall₂ (fun node p => p.path = node.1 ∧ (property target node.1 node.2).map
      (Property.fill (defaultCandidates c.templateTypes)) = .ok p) nodes ps
  relations : ∃ rs, rs.Perm c.relations ∧ List.Forall₂ (fun entry r =>
    keyText entry.1 = .ok r.name ∧ relation target r.name entry.2 = .ok r)
    (doc.relations.getD []) rs
  paths : (c.properties.map Property.path).Nodup
  names : (c.relations.map Relation.name).Nodup
  apart : (c.properties.map Property.path).Disjoint (c.relations.map Relation.name)

/-- A class that is resolved keeps all members. -/
theorem kept_of_resolve (h : resolve target doc = .ok c) : Kept target doc c := by
  obtain ⟨s, rfl⟩ := exists_steps h
  obtain ⟨nodes, hnodes, hproperties⟩ := s.exists_leaves
  refine ⟨⟨nodes, s.filled, hnodes, (sortBy_perm _ _).symm, ?_⟩, ?_, s.paths_nodup,
    s.names_nodup, ?_⟩
  · rw [Steps.filled, List.forall₂_map_right_iff]
    refine (propertiesFrom_eq_ok hproperties).1.imp fun node p hp => ⟨(property_eq_ok hp).1, ?_⟩
    rw [hp]
    rfl
  · exact ⟨s.relations, (sortBy_perm _ _).symm, (relationsFrom_eq_ok s.ofRelations).1⟩
  · intro name hpath hname
    exact s.not_mem_paths hname hpath

section Members

variable {nodes : List PathNode} {entries : Entries}

/-- The members before and after a node. -/
theorem members_append_node (before after : List PathNode) (node : PathNode) :
    members (before ++ node :: after) entries =
      members before [] ++ (.property, node.1) :: members after entries := by
  simp [members]

/-- The members before and after an entry. -/
theorem members_append_entry (before after : Entries) {entry : Yaml.Value × Yaml.Value}
    (h : keyText entry.1 = .ok (nameOf entry)) :
    members nodes (before ++ entry :: after) =
      members nodes before ++ (.relation, nameOf entry) :: members [] after := by
  simp [members, h, Except.toOption]

theorem mem_members_of_node {name : String} (h : name ∈ nodes.map Prod.fst) :
    (.property, name) ∈ members nodes entries := by
  obtain ⟨node, hnode, rfl⟩ := List.mem_map.mp h
  exact List.mem_append_left _ (List.mem_map_of_mem hnode)

variable (h : ∀ entry ∈ entries, keyText entry.1 = .ok (nameOf entry))

include h

/-- If all keys have texts, all entries are members. -/
theorem members_eq : members nodes entries = nodes.map (fun node => (.property, node.1))
    ++ entries.map fun entry => (.relation, nameOf entry) := by
  rw [members, List.append_cancel_left_eq, ← List.filterMap_eq_map]
  refine List.filterMap_congr fun entry hentry => ?_
  rw [h entry hentry]
  rfl

/-- The names of the members are the paths and then the names of relations. -/
theorem map_snd_members :
    (members nodes entries).map Prod.snd = nodes.map Prod.fst ++ entries.map nameOf := by
  rw [members_eq h, List.map_append, List.map_map, List.map_map]
  rfl

theorem mem_members_of_entry {name : String} (hname : name ∈ entries.map nameOf) :
    (.relation, name) ∈ members nodes entries := by
  obtain ⟨entry, hentry, rfl⟩ := List.mem_map.mp hname
  rw [members_eq h]
  exact List.mem_append_right _ (List.mem_map_of_mem hentry)

end Members

/-- No name is given twice in a document that can be resolved. -/
theorem members_nodup {nodes : List PathNode} (hnodes : leaves (doc.properties.getD []) = .ok nodes)
    (h : resolve target doc = .ok c) :
    ((members nodes (doc.relations.getD [])).map Prod.snd).Nodup := by
  have kept := kept_of_resolve h
  obtain ⟨nodes', ps, hnodes', hps, hproperties⟩ := kept.properties
  cases hnodes.symm.trans hnodes'
  obtain ⟨rs, hrs, hrelations⟩ := kept.relations
  have hpaths : nodes.map Prod.fst = ps.map Property.path :=
    map_eq_of_forall₂ (fun _ _ hp => hp.1.symm) hproperties
  have hnames : (doc.relations.getD []).map nameOf = rs.map Relation.name :=
    map_eq_of_forall₂ (fun _ _ hr => keyText_nameOf hr.1) hrelations
  have hkeys : ∀ entry ∈ doc.relations.getD [], keyText entry.1 = .ok (nameOf entry) := by
    intro entry hentry
    obtain ⟨r, -, hkey, -⟩ := exists_of_mem_left hrelations hentry
    exact keyText_nameOf hkey ▸ hkey
  rw [map_snd_members hkeys, hpaths, hnames]
  have hperm := (hps.map Property.path).append (hrs.map Relation.name)
  exact hperm.nodup_iff.mpr (kept.paths.append kept.names kept.apart)

/-! ## The first clash -/

/-- The properties of a document are those of its leaves. -/
theorem properties_eq {nodes : List PathNode}
    (hnodes : leaves (doc.properties.getD []) = .ok nodes) :
    properties target doc = propertiesFrom target doc.name [] nodes := by
  rw [properties, hnodes]
  rfl

/-- An error in the properties is that of the document. -/
theorem resolve_eq_error_of_properties {e : Error} (h : properties target doc = .error e) :
    resolve target doc = .error e := by
  rw [resolve, h]
  rfl

/-- If there is none, an error in the relations is. -/
theorem resolve_eq_error_of_relations {ps : List Property} {e : Error}
    (hps : properties target doc = .ok ps)
    (h : relationsFrom target doc.name (ps.map Property.path) [] (doc.relations.getD []) =
      .error e) :
    resolve target doc = .error e := by
  rw [resolve, hps]
  change (relationsFrom _ _ _ _ _ >>= _) = _
  rw [h]
  rfl

section Clash

variable {nodes : List PathNode} (hnodes : leaves (doc.properties.getD []) = .ok nodes)
  (hproperties : ∀ node ∈ nodes, ∃ p, property target node.1 node.2 = .ok p)

include hnodes hproperties

/-- Two leaves with the same path. -/
theorem resolve_clash_of_paths (hclash : ¬ (nodes.map Prod.fst).Nodup) (entries : Entries) :
    ∃ name, FirstClash (members nodes entries) .property .property name ∧
      resolve target doc = .error ⟨doc.name, name, .duplicateName .property name .property⟩ := by
  obtain ⟨before, node, after, rfl, hnodup, -, hmem⟩ :=
    @exists_first_taken _ Prod.fst nodes [] fun h => hclash h.1
  have hmem := hmem.resolve_left List.not_mem_nil
  refine ⟨node.1, ⟨_, _, members_append_node before after node, ?_, mem_members_of_node hmem⟩, ?_⟩
  · rw [map_snd_members (List.forall_mem_nil _), List.map_nil, List.append_nil]
    exact hnodup
  · apply resolve_eq_error_of_properties
    rw [properties_eq hnodes]
    exact propertiesFrom_clash (fun n hn => hproperties n (List.mem_append_left _ hn)) hnodup hmem

/-- A relation with a name that is taken. -/
theorem resolve_clash_of_names (hnodup : (nodes.map Prod.fst).Nodup)
    (hrelations : ∀ entry ∈ doc.relations.getD [], ∃ r, Gives target entry r)
    (hclash : ¬ (((doc.relations.getD []).map nameOf).Nodup ∧
      ∀ entry ∈ doc.relations.getD [], nameOf entry ∉ nodes.map Prod.fst)) :
    ∃ existing name, FirstClash (members nodes (doc.relations.getD [])) .relation existing name ∧
      resolve target doc = .error ⟨doc.name, name, .duplicateName .relation name existing⟩ := by
  obtain ⟨before, entry, after, heq, hbefore, hfree, hmem⟩ := exists_first_taken hclash
  rw [heq] at hrelations
  have hentry := keyText_of_gives (hrelations entry (by simp))
  have hgives : ∀ e ∈ before, ∃ r, Gives target e r :=
    fun e he => hrelations e (List.mem_append_left _ he)
  have hkeys : ∀ e ∈ before, keyText e.1 = .ok (nameOf e) :=
    fun e he => keyText_of_gives (hgives e he)
  obtain ⟨ps, hps⟩ := @exists_propertiesFrom target doc.name nodes hproperties hnodup
  have hpaths : nodes.map Prod.fst = ps.map Property.path := by
    refine map_eq_of_forall₂ (fun node p hp => ?_) (propertiesFrom_eq_ok hps).1
    exact (property_eq_ok hp).1.symm
  have hnew : ((members nodes before).map Prod.snd).Nodup := by
    rw [map_snd_members hkeys]
    refine hnodup.append hbefore fun name hname hname' => ?_
    obtain ⟨e, he, rfl⟩ := List.mem_map.mp hname'
    exact hfree e he hname
  -- before this entry, its name was given to a relation or else to a property
  obtain ⟨existing, hexisting, hgiven⟩ : ∃ existing,
      (existing = .relation ∧ nameOf entry ∈ before.map nameOf ∨
        existing = .property ∧ nameOf entry ∉ before.map nameOf ∧
          nameOf entry ∈ ps.map Property.path) ∧
      (existing, nameOf entry) ∈ members nodes before := by
    by_cases hname : nameOf entry ∈ before.map nameOf
    · exact ⟨.relation, .inl ⟨rfl, hname⟩, mem_members_of_entry hkeys hname⟩
    · have hpath := hmem.resolve_right hname
      exact ⟨.property, .inr ⟨rfl, hname, hpaths ▸ hpath⟩, mem_members_of_node hpath⟩
  refine ⟨existing, nameOf entry, ⟨_, _, heq ▸ members_append_entry before after hentry, hnew,
    hgiven⟩, ?_⟩
  apply resolve_eq_error_of_relations ((properties_eq hnodes).trans hps)
  rw [heq]
  exact relationsFrom_clash hgives hbefore (fun e he => hpaths ▸ hfree e he) hentry hexisting

end Clash

end Resolve

open Resolve

/-- A class has exactly the members of its document. A document that gives a name twice cannot be
resolved; if each of its members could be by itself, the error names the first one whose name was
given before, and what it was given to. The order of the sections has no part in this. -/
theorem resolve_members (target : Target) (doc : Document) :
    (∀ c, resolve target doc = .ok c → Kept target doc c) ∧
    ((∀ nodes, leaves (doc.properties.getD []) = .ok nodes →
        ¬ ((members nodes (doc.relations.getD [])).map Prod.snd).Nodup) →
      ∃ e, resolve target doc = .error e) ∧
    (∀ nodes, leaves (doc.properties.getD []) = .ok nodes →
      (∀ node ∈ nodes, ∃ c, resolve target (doc.onlyProperty node) = .ok c) →
      (∀ entry ∈ doc.relations.getD [], ∃ c, resolve target (doc.onlyRelation entry) = .ok c) →
      ¬ ((members nodes (doc.relations.getD [])).map Prod.snd).Nodup →
      ∃ member existing name,
        FirstClash (members nodes (doc.relations.getD [])) member existing name ∧
        resolve target doc = .error ⟨doc.name, name, .duplicateName member name existing⟩) ∧
    ∀ es es' : Entries, es.Perm es' → Document.ofValue (.mapping es) = .ok doc →
      Document.ofValue (.mapping es') = .ok doc := by
  refine ⟨fun c => kept_of_resolve, ?_, ?_, fun es es' hperm => Document.ofValue_perm hperm⟩
  · intro hclash
    cases hresult : resolve target doc with
    | error e => exact ⟨e, rfl⟩
    | ok c =>
        obtain ⟨nodes, -, hnodes, -⟩ := (kept_of_resolve hresult).properties
        exact absurd (members_nodup hnodes hresult) (hclash nodes hnodes)
  · intro nodes hnodes honly honly' hclash
    have hproperties : ∀ node ∈ nodes, ∃ p, property target node.1 node.2 = .ok p := by
      intro node hnode
      obtain ⟨c, hc⟩ := honly node hnode
      exact exists_property_of_only (isProperty_of_leaves hnodes node hnode) hc
    have hrelations : ∀ entry ∈ doc.relations.getD [], ∃ r, Gives target entry r := by
      intro entry hentry
      obtain ⟨c, hc⟩ := honly' entry hentry
      exact exists_gives_of_only hc
    by_cases hpaths : (nodes.map Prod.fst).Nodup
    · have hnames : ¬ (((doc.relations.getD []).map nameOf).Nodup ∧
          ∀ entry ∈ doc.relations.getD [], nameOf entry ∉ nodes.map Prod.fst) := by
        rintro ⟨hnodup, hfree⟩
        apply hclash
        rw [map_snd_members fun entry hentry => keyText_of_gives (hrelations entry hentry)]
        refine hpaths.append hnodup fun name hpath hname => ?_
        obtain ⟨entry, hentry, rfl⟩ := List.mem_map.mp hname
        exact hfree entry hentry hpath
      obtain ⟨existing, name, hfirst, herror⟩ :=
        resolve_clash_of_names hnodes hproperties hpaths hrelations hnames
      exact ⟨.relation, existing, name, hfirst, herror⟩
    · obtain ⟨name, hfirst, herror⟩ := resolve_clash_of_paths hnodes hproperties hpaths _
      exact ⟨.property, .property, name, hfirst, herror⟩

/-- A relation has the path of a property, and two others have keys with the same text. -/
def crowdedDocument : Document where
  name := "Arm"
  properties := some [(.string "pose", .mapping [
    (.string "x", .mapping [(.string "type", .string "FLOAT64")])])]
  relations := some ([.number (.integer 1), .string "pose/x", .string "1"].map fun key =>
    (key, .mapping [(.string "type", .string "HAS"),
      (.string "other_classnames", .sequence [.string "Joint"])]))

/-- Each member alone makes a class, with nothing else in it, but together they do not. -/
theorem resolve_crowdedDocument : ∃ nodes,
    leaves (crowdedDocument.properties.getD []) = .ok nodes ∧
    members nodes (crowdedDocument.relations.getD []) = [(.property, "pose/x"), (.relation, "1"),
      (.relation, "pose/x"), (.relation, "1")] ∧
    (∀ node ∈ nodes, ∃ c, resolve ⟨"robot", .cpp⟩ (crowdedDocument.onlyProperty node) = .ok c ∧
      c.properties.map Property.path = [node.1]) ∧
    (∀ entry ∈ crowdedDocument.relations.getD [],
      ∃ c, resolve ⟨"robot", .cpp⟩ (crowdedDocument.onlyRelation entry) = .ok c ∧
        c.relations.map Relation.name = [nameOf entry]) ∧
    ∃ member existing name,
      FirstClash (members nodes (crowdedDocument.relations.getD [])) member existing name ∧
      resolve ⟨"robot", .cpp⟩ crowdedDocument =
        .error ⟨"Arm", name, .duplicateName member name existing⟩ := by
  obtain ⟨nodes, hnodes, hmembers, hproperties⟩ : ∃ nodes,
      leaves (crowdedDocument.properties.getD []) = .ok nodes ∧
      members nodes (crowdedDocument.relations.getD []) = [(.property, "pose/x"), (.relation, "1"),
        (.relation, "pose/x"), (.relation, "1")] ∧
      ∀ node ∈ nodes, ∃ c, resolve ⟨"robot", .cpp⟩ (crowdedDocument.onlyProperty node) = .ok c ∧
        c.properties.map Property.path = [node.1] := by
    decide +kernel
  have hrelations : ∀ entry ∈ crowdedDocument.relations.getD [],
      ∃ c, resolve ⟨"robot", .cpp⟩ (crowdedDocument.onlyRelation entry) = .ok c ∧
        c.relations.map Relation.name = [nameOf entry] := by
    decide +kernel
  refine ⟨nodes, hnodes, hmembers, hproperties, hrelations,
    (resolve_members ⟨"robot", .cpp⟩ crowdedDocument).2.2.1 nodes hnodes ?_ ?_ ?_⟩
  · intro node hnode
    obtain ⟨c, hc, -⟩ := hproperties node hnode
    exact ⟨c, hc⟩
  · intro entry hentry
    obtain ⟨c, hc, -⟩ := hrelations entry hentry
    exact ⟨c, hc⟩
  · rw [hmembers]
    decide

end ClassSchema
