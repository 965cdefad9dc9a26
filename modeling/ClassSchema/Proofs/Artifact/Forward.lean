import Mathlib.Data.List.Nodup
import ClassSchema.Artifact.BaseClass
import ClassSchema.Proofs.Artifact.Imports
import ClassSchema.Proofs.Artifact.Lines
import ClassSchema.Proofs.Resolve.Written

/-! # Declaring classes before their use

In front of the base class, its header declares the classes that are mentioned. They stand in
blocks, one for each namespace. A reader of the header finds there each class that a type or a
relation uses, once and in its own namespace, and finds no class that is not mentioned. -/

namespace ClassSchema

/-! ## Groups of names -/

/-- The names with the keys under which they stand. -/
def entriesOf (groups : List (String × List String)) : List (String × String) :=
  groups.flatMap fun g => g.2.map (Prod.mk g.1)

/-- Each key stands once, and each name once under its key. -/
structure Grouped (groups : List (String × List String)) : Prop where
  keys : (groups.map Prod.fst).Pairwise (· < ·)
  names : ∀ g ∈ groups, g.2.Pairwise (· < ·)

namespace Grouped

variable {groups : List (String × List String)} {ns name : String}

/-- A class is in a group if it is found under its namespace. -/
theorem mem_entriesOf (h : Grouped groups) {e : String × String} :
    e ∈ entriesOf groups ↔ e.2 ∈ (groups.lookup e.1).getD [] := by
  obtain ⟨hkeys, -⟩ := h
  induction groups with
  | nil => exact iff_of_false List.not_mem_nil List.not_mem_nil
  | cons g gs ih =>
      obtain ⟨key, names⟩ := g
      obtain ⟨hkey, hkeys⟩ := List.pairwise_cons.mp hkeys
      have hcons : e ∈ entriesOf ((key, names) :: gs) ↔
          (e.1 = key ∧ e.2 ∈ names) ∨ e ∈ entriesOf gs := by
        rw [entriesOf, List.flatMap_cons, List.mem_append, List.mem_map]
        refine or_congr_left ?_
        constructor
        · rintro ⟨n, hn, rfl⟩
          exact ⟨rfl, hn⟩
        · rintro ⟨rfl, hn⟩
          exact ⟨e.2, hn, rfl⟩
      rw [hcons, lookup_cons_eq]
      split
      · rename_i heq
        -- The key of the first group is not that of another one.
        have hother : e ∉ entriesOf gs := by
          intro hmem
          obtain ⟨g, hg, hmem⟩ := List.mem_flatMap.mp hmem
          obtain ⟨n, -, rfl⟩ := List.mem_map.mp hmem
          exact lt_irrefl _ (heq ▸ hkey _ (List.mem_map_of_mem hg))
        simp [heq, hother]
      · rename_i hne
        rw [ih hkeys, or_iff_right fun hfirst => hne hfirst.1]

/-- The namespaces stay sorted when a class is added, and the classes in each of them do too. -/
theorem addToGroup (h : Grouped groups) : Grouped (ClassModel.addToGroup ns name groups) where
  keys := by
    rw [ClassModel.addToGroup, keys_setEntry]
    exact insertName_increasing h.keys
  names g hg := by
    rcases mem_of_mem_setEntry hg with rfl | hg
    · apply insertName_increasing
      cases hlookup : groups.lookup ns with
      | none => exact .nil
      | some names =>
          obtain ⟨before, after, rfl, -⟩ := List.lookup_eq_some_iff.mp hlookup
          exact h.names (ns, names) (by simp)
    · exact h.names g hg

/-- One class is added, and none is lost. -/
theorem mem_addToGroup (h : Grouped groups) {e : String × String} :
    e ∈ entriesOf (ClassModel.addToGroup ns name groups) ↔
      e = (ns, name) ∨ e ∈ entriesOf groups := by
  rw [h.addToGroup.mem_entriesOf, h.mem_entriesOf, ClassModel.addToGroup, lookup_setEntry]
  split
  · rename_i heq
    rw [Option.getD_some, mem_insertName, heq, Prod.ext_iff, and_iff_right heq]
  · rename_i hne
    rw [or_iff_right fun heq => hne (congrArg Prod.fst heq)]

/-- What is added to the groups one by one stands in them in the end. -/
theorem foldl_addToGroup (h : Grouped groups) (es : List (String × String)) :
    Grouped (es.foldl (fun groups e => ClassModel.addToGroup e.1 e.2 groups) groups) ∧
      ∀ e, e ∈ entriesOf (es.foldl (fun groups e => ClassModel.addToGroup e.1 e.2 groups) groups) ↔
        e ∈ es ∨ e ∈ entriesOf groups := by
  induction es generalizing groups with
  | nil => exact ⟨h, fun e => (or_iff_right List.not_mem_nil).symm⟩
  | cons e' es ih =>
      obtain ⟨hgrouped, hmem⟩ := ih h.addToGroup
      refine ⟨hgrouped, fun e => ?_⟩
      rw [List.foldl_cons, hmem, h.mem_addToGroup, List.mem_cons, or_assoc, or_left_comm]

/-- No class is in the groups twice. -/
theorem nodup_entriesOf (h : Grouped groups) : (entriesOf groups).Nodup := by
  rw [entriesOf, List.nodup_flatMap]
  constructor
  · intro g hg
    exact List.Nodup.map (Prod.mk_right_injective g.1) ((h.names g hg).imp ne_of_lt)
  · refine (List.pairwise_map.mp h.keys).imp ?_
    intro g g' hlt e he he'
    obtain ⟨n, -, rfl⟩ := List.mem_map.mp he
    obtain ⟨n', -, heq⟩ := List.mem_map.mp he'
    exact ne_of_gt hlt (Prod.ext_iff.mp heq).1

end Grouped

/-! ## The classes to declare -/

namespace ClassModel

open ClassName

variable {c : ClassModel} {name ns last : String}

/-- Where a class that is mentioned is declared, unless it is the class itself or the root. -/
def forward? (c : ClassModel) (name : String) : Option (String × String) :=
  if qualify name c.ns = c.qualifiedName || isRoot (qualify name c.ns) then none
  else (parts (qualify name c.ns)).1.map fun ns => (ns, (parts (qualify name c.ns)).2)

/-- A class is declared if it is neither the class itself nor the root. -/
theorem forward?_eq_some {e : String × String} : c.forward? name = some e ↔
    qualify name c.ns ≠ c.qualifiedName ∧ qualify name c.ns ≠ qualifiedRoot ∧
      parts (qualify name c.ns) = (some e.1, e.2) := by
  unfold forward?
  split
  · rename_i hskip
    rw [Bool.or_eq_true, decide_eq_true_eq, isRoot_qualify] at hskip
    refine iff_of_false nofun ?_
    rintro ⟨hown, hroot, -⟩
    exact hskip.elim hown hroot
  · rename_i hkeep
    rw [Bool.or_eq_true, decide_eq_true_eq, isRoot_qualify, not_or] at hkeep
    rw [and_iff_right hkeep.1, and_iff_right hkeep.2, Option.map_eq_some_iff]
    constructor
    · rintro ⟨ns, hns, rfl⟩
      exact Prod.ext hns rfl
    · intro heq
      exact ⟨e.1, congrArg Prod.fst heq, Prod.ext rfl (Prod.ext_iff.mp heq).2⟩

/-- The groups are made by adding the classes that are mentioned, one after another. -/
theorem forwardGroups_eq (c : ClassModel) :
    c.forwardGroups = (c.referenced.filterMap c.forward?).foldl
      (fun groups e => addToGroup e.1 e.2 groups) [] := by
  rw [forwardGroups, List.foldl_filterMap]
  congr 1
  funext groups name
  rw [forward?]
  dsimp only
  by_cases hskip : (qualify name c.ns = c.qualifiedName || isRoot (qualify name c.ns)) = true
  · rw [if_pos hskip, if_pos hskip]
  · rw [if_neg hskip, if_neg hskip]
    rcases parts (qualify name c.ns) with ⟨_ | ns, last⟩ <;> rfl

/-- The groups are sorted, and they hold what is to be declared. -/
theorem grouped_forwardGroups (c : ClassModel) : Grouped c.forwardGroups ∧
    ∀ e, e ∈ entriesOf c.forwardGroups ↔ ∃ name ∈ c.referenced, c.forward? name = some e := by
  have hnil : Grouped [] := ⟨List.Pairwise.nil, fun _ hg => absurd hg List.not_mem_nil⟩
  obtain ⟨hgrouped, hmem⟩ := hnil.foldl_addToGroup (c.referenced.filterMap c.forward?)
  rw [forwardGroups_eq]
  refine ⟨hgrouped, fun e => ?_⟩
  rw [hmem, List.mem_filterMap]
  exact or_iff_left List.not_mem_nil

/-- The full names of the classes in the groups. -/
def declaredNames (groups : List (String × List String)) : List String :=
  (entriesOf groups).map fun e => e.1 ++ "::" ++ e.2

/-- A class in the groups is called by its namespace and its name. -/
theorem parts_of_mem {e : String × String} (h : e ∈ entriesOf c.forwardGroups) :
    parts (e.1 ++ "::" ++ e.2) = (some e.1, e.2) := by
  obtain ⟨name, -, hname⟩ := (c.grouped_forwardGroups.2 e).mp h
  have hparts := (forward?_eq_some.mp hname).2.2
  rw [← parts_eq_some hparts]
  exact hparts

/-- No class is declared twice. -/
theorem nodup_declaredNames (c : ClassModel) : (declaredNames c.forwardGroups).Nodup := by
  refine List.Nodup.map_on ?_ c.grouped_forwardGroups.1.nodup_entriesOf
  intro e he e' he' heq
  have hparts := parts_of_mem he
  rw [heq, parts_of_mem he'] at hparts
  cases e
  cases e'
  cases hparts
  rfl

/-- Only classes that are mentioned are declared. -/
theorem of_mem_declaredNames {q : String} (h : q ∈ declaredNames c.forwardGroups) :
    (∃ name ∈ c.referenced, qualify name c.ns = q) ∧ q ≠ c.qualifiedName ∧ q ≠ qualifiedRoot := by
  obtain ⟨e, he, rfl⟩ := List.mem_map.mp h
  obtain ⟨name, hname, hforward⟩ := (c.grouped_forwardGroups.2 e).mp he
  obtain ⟨hown, hroot, hparts⟩ := forward?_eq_some.mp hforward
  rw [← parts_eq_some hparts]
  exact ⟨⟨name, hname, rfl⟩, hown, hroot⟩

/-- A class that is known behind the groups: it is the class itself or the root, or it is declared
once, and under its own namespace. -/
inductive Introduces (c : ClassModel) (groups : List (String × List String)) (q : String) : Prop
  | itself (h : q = c.qualifiedName) : Introduces c groups q
  | root (h : q = qualifiedRoot) : Introduces c groups q
  | declared {ns last : String} {names : List String} (hparts : parts q = (some ns, last))
      (hgroup : (ns, names) ∈ groups) (hlast : last ∈ names)
      (once : (declaredNames groups).count q = 1) : Introduces c groups q

/-- All classes that are mentioned are introduced. -/
theorem introduces_of_mem (h : name ∈ c.referenced) :
    c.Introduces c.forwardGroups (qualify name c.ns) := by
  by_cases hown : qualify name c.ns = c.qualifiedName
  · exact .itself hown
  by_cases hroot : qualify name c.ns = qualifiedRoot
  · exact .root hroot
  obtain ⟨ns, last, hparts⟩ := (separated_qualify name c.ns).exists_parts
  have hentry : (ns, last) ∈ entriesOf c.forwardGroups :=
    (c.grouped_forwardGroups.2 _).mpr ⟨name, h, forward?_eq_some.mpr ⟨hown, hroot, hparts⟩⟩
  obtain ⟨⟨ns', names⟩, hgroup, hnames⟩ := List.mem_flatMap.mp hentry
  obtain ⟨last', hlast, heq⟩ := List.mem_map.mp hnames
  cases heq
  have hmem : qualify name c.ns ∈ declaredNames c.forwardGroups := by
    rw [parts_eq_some hparts]
    exact List.mem_map.mpr ⟨_, hentry, rfl⟩
  exact .declared hparts hgroup hlast (List.count_eq_one_of_mem c.nodup_declaredNames hmem)

end ClassModel

/-! ## Reading a header -/

namespace Lines

variable {title line : String} {lines body rest : List String}

/-- The blocks at the margin of a file: the line in front of the opening brace, after `title`, and
the lines up to the closing one. -/
def blocks (title : String) : List String → List (String × List String)
  | [] => []
  | line :: rest =>
      if line = "\x7b" then (title, rest.takeWhile (· ≠ "\x7d")) :: blocks line rest
      else blocks line rest

/-- Lines without braces only change the line in front of what follows. -/
theorem exists_blocks_append (title : String) (h : "\x7b" ∉ lines) (rest : List String) :
    ∃ title', blocks title (lines ++ rest) = blocks title' rest := by
  induction lines generalizing title with
  | nil => exact ⟨title, rfl⟩
  | cons l ls ih =>
      obtain ⟨hl, hls⟩ := not_or.mp (mt List.mem_cons.mpr h)
      rw [List.cons_append, blocks, if_neg (Ne.symm hl)]
      exact ih l hls

/-- A line that is no brace is the one in front of what follows. -/
theorem blocks_cons (h : line ≠ "\x7b") : blocks title (line :: rest) = blocks line rest :=
  if_neg h

/-- A body in braces is one block. -/
theorem blocks_braces : blocks title (braces body ++ rest)
    = (title, indent 4 body) :: blocks "\x7d" rest := by
  have hopen : "\x7b" ∉ indent 4 body := fun h => ne_of_mem_indent (.inl rfl) h rfl
  have hbody : ∀ line ∈ indent 4 body, decide (line ≠ "\x7d") = true := by
    intro line hline
    exact decide_eq_true (ne_of_mem_indent (.inr rfl) hline)
  obtain ⟨last, hlast⟩ := exists_blocks_append "\x7b" hopen ("\x7d" :: rest)
  rw [braces, List.append_assoc, List.cons_append, List.singleton_append, blocks, if_pos rfl,
    List.takeWhile_append_of_pos hbody, List.takeWhile_cons_of_neg (by simp), List.append_nil,
    hlast, blocks_cons (by decide)]

end Lines

/-- What looks like a declaration in the namespace of the class itself. It is that of the class. The
line in which the definition begins ends like one if the name of the parent does. -/
def ClassModel.ownDeclared (c : ClassModel) : List String :=
  c.name :: ((Lines.between? "" ";" c.qualifiedParent).map
    (s!"{c.baseName} : public " ++ ·)).toList

namespace Artifact

/-- The namespaces that a file opens, each with the classes that are declared in it. -/
def namespaces (lines : List String) : List (String × List String) :=
  (Lines.blocks "" lines).filterMap fun block =>
    (Lines.between? "namespace " "" block.1).map fun ns =>
      (ns, block.2.filterMap (Lines.between? "    class " ";"))

/-- Lines that do not begin like a class declare none. -/
theorem declared_eq_nil {lines : List String} (h : ∀ l ∈ lines, l.toList.head? ≠ some 'c') :
    (Lines.indent 4 lines).filterMap (Lines.between? "    class " ";") = [] := by
  rw [List.filterMap_eq_nil_iff]
  intro line hline
  obtain ⟨l, hl, rfl⟩ := List.mem_map.mp hline
  rw [Option.eq_none_iff_forall_ne_some]
  intro name hname
  have heq := congrArg String.toList (Lines.between?_eq_some.mp hname)
  split at heq
  · rename_i hempty
    rw [String.isEmpty_iff.mp hempty] at heq
    simp at heq
  · simp only [String.toList_append, List.append_assoc] at heq
    have hpad : (Lines.pad 4).toList ++ l.toList
        = (Lines.pad 4).toList ++ ("class ".toList ++ (name.toList ++ ";".toList)) := heq
    apply h l hl
    rw [List.append_cancel_left hpad]
    rfl

/-- The first of the lines for a class declares it, and the others nothing. -/
theorem declared_pointerAliases (name : String) :
    (Lines.indent 4 (pointerAliases name)).filterMap (Lines.between? "    class " ";")
      = [name] := by
  have hclass : Lines.indent 4 (pointerAliases name) = ("    class " ++ name ++ ";") ::
      Lines.indent 4 (pointerAliases name).tail := by
    have hne : ¬ (s!"class {name};").isEmpty = true := by simp [toString]
    refine congrArg₂ List.cons ((if_neg hne).trans ?_) rfl
    rw [← String.toList_inj]
    simp [Lines.pad, toString]
  rw [hclass, List.filterMap_cons_some (Lines.between?_eq_some.mpr rfl), declared_eq_nil]
  simp [pointerAliases, toString]

/-- So these lines for many classes declare just these classes. -/
theorem declared_aliases (names : List String) :
    (Lines.indent 4 (names.flatMap pointerAliases)).filterMap (Lines.between? "    class " ";")
      = names := by
  have hlines : Lines.indent 4 (names.flatMap pointerAliases)
      = names.flatMap fun name => Lines.indent 4 (pointerAliases name) := List.map_flatMap
  rw [hlines, List.filterMap_flatMap]
  exact (List.flatMap_congr fun name _ => declared_pointerAliases name).trans
    (List.flatMap_singleton' names)

theorem namespace_ne_brace (ns : String) : s!"namespace {ns}" ≠ "\x7b" := by
  intro heq
  have hhead := congrArg (fun s => s.toList.head?) heq
  simp [toString] at hhead

/-- The block of a namespace, and the empty line behind it. -/
def forwardBlock (g : String × List String) : List String :=
  s!"namespace {g.1}" :: Lines.braces (g.2.flatMap pointerAliases) ++ [""]

/-- Each group is a block of its own. -/
theorem blocks_forwardBlocks (groups : List (String × List String)) {title line : String}
    {rest : List String} (hline : line ≠ "\x7b") :
    Lines.blocks title (groups.flatMap forwardBlock ++ line :: rest)
      = groups.map (fun g => (s!"namespace {g.1}", Lines.indent 4 (g.2.flatMap pointerAliases)))
        ++ Lines.blocks line rest := by
  induction groups generalizing title with
  | nil => exact Lines.blocks_cons hline
  | cons g gs ih =>
      have hblock : (g :: gs).flatMap forwardBlock ++ line :: rest = s!"namespace {g.1}" ::
          (Lines.braces (g.2.flatMap pointerAliases)
            ++ "" :: (gs.flatMap forwardBlock ++ line :: rest)) := by
        simp [forwardBlock]
      rw [hblock, Lines.blocks_cons (namespace_ne_brace g.1), Lines.blocks_braces,
        Lines.blocks_cons (by decide), ih, List.map_cons, List.cons_append]

theorem between?_namespace (ns : String) :
    Lines.between? "namespace " "" s!"namespace {ns}" = some ns := by
  rw [Lines.between?_eq_some, String.append_empty]
  rfl

/-- The namespaces of a file that goes on with blocks after its first lines, up to one last block
for `body`. -/
theorem namespaces_forwardBlocks {opening : List String} (h : "\x7b" ∉ opening)
    (groups : List (String × List String)) (ns : String) (body : List String) :
    namespaces (opening ++ (groups.flatMap forwardBlock
      ++ s!"namespace {ns}" :: Lines.braces body)) = groups ++
        [(ns, (Lines.indent 4 body).filterMap (Lines.between? "    class " ";"))] := by
  obtain ⟨title, htitle⟩ := Lines.exists_blocks_append "" h (groups.flatMap forwardBlock
    ++ s!"namespace {ns}" :: Lines.braces body)
  have hbody : Lines.blocks s!"namespace {ns}" (Lines.braces body)
      = [(s!"namespace {ns}", Lines.indent 4 body)] := by
    have hbraces := @Lines.blocks_braces s!"namespace {ns}" body []
    rw [List.append_nil] at hbraces
    exact hbraces
  rw [namespaces, htitle, blocks_forwardBlocks groups (namespace_ne_brace ns), hbody,
    List.filterMap_append, List.filterMap_map]
  refine congrArg₂ HAppend.hAppend ?_ ?_
  · refine (List.filterMap_congr fun g _ => ?_).trans List.filterMap_some
    rw [Function.comp_apply, between?_namespace, Option.map_some, declared_aliases]
  · rw [List.filterMap_cons_some (by rw [between?_namespace]; rfl)]
    rfl

/-- The line in which the definition of a class begins. -/
theorem between?_definition (base parent : String) :
    Lines.between? "    class " ";" ("    " ++ s!"class {base} : public {parent}")
      = (Lines.between? "" ";" parent).map (s!"{base} : public " ++ ·) := by
  have hline : "    " ++ s!"class {base} : public {parent}"
      = "    class " ++ (s!"{base} : public " ++ parent) := by
    rw [← String.toList_inj]
    simp [toString]
  have hlast : (s!"{base} : public ").toList.getLast? = some ' ' := by simp [toString]
  generalize s!"{base} : public " = start at hline hlast ⊢
  refine Option.ext fun s => ?_
  rw [hline, Lines.between?_eq_some, Option.map_eq_some_iff]
  simp only [Lines.between?_eq_some, ← String.toList_inj, String.toList_append, List.append_assoc,
    List.append_cancel_left_eq]
  constructor
  · intro heq
    rcases List.eq_nil_or_concat parent.toList with hparent | ⟨cs, d, hparent⟩
    · rw [hparent, List.append_nil] at heq
      rw [heq, List.getLast?_append] at hlast
      cases hlast
    · rw [hparent, List.concat_eq_append, ← List.append_assoc] at heq
      obtain ⟨hs, hd⟩ := List.append_inj' heq rfl
      refine ⟨String.ofList cs, ?_, ?_⟩
      · rw [hparent, List.concat_eq_append, hd]
        simp
      · rw [String.toList_ofList, hs]
  · rintro ⟨cut, hparent, hs⟩
    rw [hparent, ← hs, List.append_assoc]
    rfl

/-- The lines of the class in its namespace. -/
theorem declared_baseClass (c : ClassModel) (members : List String) :
    (Lines.indent 4 (pointerAliases c.name
        ++ ["", s!"class {c.baseName} : public {c.qualifiedParent}", "\x7b", "  public:"]
        ++ Lines.indent 4 members ++ ["\x7d;"])).filterMap (Lines.between? "    class " ";")
      = c.ownDeclared := by
  have hrest : (Lines.indent 4 (["\x7b", "  public:"] ++ Lines.indent 4 members
      ++ ["\x7d;"])).filterMap (Lines.between? "    class " ";") = [] := by
    refine declared_eq_nil fun l hl hhead => ?_
    simp only [List.mem_append, List.mem_cons, List.not_mem_nil, or_false] at hl
    rcases hl with ((rfl | rfl) | hl) | rfl
    · exact absurd hhead (by decide)
    · exact absurd hhead (by decide)
    · rcases Lines.head?_of_mem_indent hl with hl | hl <;> rw [hhead] at hl <;> cases hl
    · exact absurd hhead (by decide)
  have hclass : Lines.indent 4 ["", s!"class {c.baseName} : public {c.qualifiedParent}"]
      = ["", "    " ++ s!"class {c.baseName} : public {c.qualifiedParent}"] := by
    have hne : ¬ (s!"class {c.baseName} : public {c.qualifiedParent}").isEmpty = true := by
      simp [toString]
    exact congrArg (["", ·]) (if_neg hne)
  have hlines : pointerAliases c.name
      ++ ["", s!"class {c.baseName} : public {c.qualifiedParent}", "\x7b", "  public:"]
      ++ Lines.indent 4 members ++ ["\x7d;"] = pointerAliases c.name
        ++ (["", s!"class {c.baseName} : public {c.qualifiedParent}"]
          ++ (["\x7b", "  public:"] ++ Lines.indent 4 members ++ ["\x7d;"])) := by
    simp only [List.append_assoc, List.cons_append, List.nil_append]
  rw [hlines, Lines.indent_append, Lines.indent_append, List.filterMap_append,
    List.filterMap_append, declared_pointerAliases, hclass, hrest, List.append_nil,
    List.filterMap_cons_none rfl, List.filterMap_cons, between?_definition, ClassModel.ownDeclared]
  cases Lines.between? "" ";" c.qualifiedParent <;> rfl

/-- After the groups there is only the namespace of the class itself. -/
theorem namespaces_baseHeader (context : Context) (c : ClassModel) :
    namespaces (baseHeader context c) = c.forwardGroups ++ [(c.ns, c.ownDeclared)] := by
  have hforward : c.forwardDeclarations = c.forwardGroups.flatMap forwardBlock := rfl
  unfold baseHeader
  dsimp only
  rw [hforward, List.append_assoc, namespaces_forwardBlocks, declared_baseClass]
  intro hbrace
  rcases List.mem_append.mp hbrace with hbrace | hbrace
  · exact absurd (head?_of_mem_header hbrace) (by decide)
  · have hhead : some '\x7b' ∈ List.map (fun s : String => s.toList.head?) _ :=
      List.mem_map_of_mem (f := fun s : String => s.toList.head?) hbrace
    simp [toString] at hhead

end Artifact

namespace Resolve.Steps

variable {target : Target} {doc : Document} (s : Steps target doc)

/-- The targets of a relation are the qualified names of what is declared. -/
theorem targets_eq {r : Relation} (h : r ∈ s.model.relations) :
    r.targets = nameSet (r.declared.map (ClassName.qualify · target.ns)) := by
  have hr : r ∈ s.relations := (sortBy_perm _ _).mem_iff.mp h
  obtain ⟨entry, -, -, hentry⟩ := exists_of_mem_right (relationsFrom_eq_ok s.ofRelations).1 hr
  exact (relation_written hentry).1

/-- What a relation declares is mentioned by its class. -/
theorem declared_mem_referenced {r : Relation} (h : r ∈ s.model.relations) {name : String}
    (hname : name ∈ r.declared) : name ∈ s.model.referenced := by
  have hr : r ∈ s.relations := (sortBy_perm _ _).mem_iff.mp h
  rw [model, mentioned, mem_nameSet]
  exact List.mem_append_left _ (List.mem_append_right _ (List.mem_flatMap.mpr ⟨r, hr, hname⟩))

end Resolve.Steps

/-- The namespaces of a header are the groups of classes that it declares, and after them that of
the class itself. Each has its own group. In the groups there are only classes that are mentioned,
and there are all that the types of the members and the relations use, under the names by which
they are called there. -/
theorem introduces_of_resolve {ns : String} {doc : Document} {c : ClassModel}
    (h : resolve ⟨ns, .cpp⟩ doc = .ok c) (context : Artifact.Context) :
    ∃ groups, Artifact.namespaces (Artifact.baseHeader context c)
        = groups ++ [(c.ns, c.ownDeclared)] ∧
      (groups.map Prod.fst).Nodup ∧
      (∀ q ∈ ClassModel.declaredNames groups,
        (∃ name ∈ c.referenced, ClassName.qualify name c.ns = q) ∧
          q ≠ c.qualifiedName ∧ q ≠ ClassName.qualifiedRoot) ∧
      (∀ t ∈ c.memberTypes, ∀ name isConst pointer source,
        (TypeExpr.reference name isConst pointer source).Within t →
        (TypeExpr.reference name isConst pointer source).render c.language c.ns
          = .ok ((if isConst then "const " else "") ++ ClassName.qualify name c.ns
            ++ pointer.suffix) ∧
        c.Introduces groups (ClassName.qualify name c.ns)) ∧
      ∀ r ∈ c.relations, ∀ name ∈ r.declared, ClassName.qualify name c.ns ∈ r.targets ∧
        c.Introduces groups (ClassName.qualify name c.ns) := by
  obtain ⟨s, rfl⟩ := Resolve.exists_steps h
  refine ⟨s.model.forwardGroups, Artifact.namespaces_baseHeader context s.model, ?_, ?_, ?_, ?_⟩
  · exact s.model.grouped_forwardGroups.1.keys.imp ne_of_lt
  · intro q hq
    exact ClassModel.of_mem_declaredNames hq
  · intro t ht name isConst pointer source hwithin
    exact ⟨rfl, ClassModel.introduces_of_mem (s.mem_referenced ht hwithin)⟩
  · intro r hr name hname
    refine ⟨?_, ClassModel.introduces_of_mem (s.declared_mem_referenced hr hname)⟩
    rw [s.targets_eq hr, mem_nameSet]
    exact List.mem_map_of_mem hname

/-- One class is called by two names, the bare and the qualified one, and a relation leads to the
class itself. -/
def gripDocument : Document where
  name := "Gripper"
  relations := some [(.string "beside", .mapping [(.string "type", .string "PART_OF"),
    (.string "other_classnames", .sequence [.string "Gripper", .string "geometry::Frame"])])]
  methods := some [(.string "grip", .mapping [(.string "arguments", .sequence [
    .mapping [(.string "name", .string "joints"),
      (.string "type", .string "VECTOR(XTYPE(JointPtr))")],
    .mapping [(.string "name", .string "last"),
      (.string "type", .string "XTYPE(robot::Joint)")]])])]

/-- Both classes that are mentioned are declared once, and the class itself is in the last block. -/
theorem introduces_gripDocument : ∃ c, resolve ⟨"robot", .cpp⟩ gripDocument = .ok c ∧
    Artifact.namespaces (Artifact.baseHeader ⟨"robot", ""⟩ c)
      = [("geometry", ["Frame"]), ("robot", ["Joint"])] ++ [("robot", ["Gripper"])] ∧
    c.Introduces [("geometry", ["Frame"]), ("robot", ["Joint"])] "robot::Joint" ∧
    c.Introduces [("geometry", ["Frame"]), ("robot", ["Joint"])] "geometry::Frame" := by
  obtain ⟨c, hc, hns, hown, hforward, hclasses, htargets⟩ :
      ∃ c, resolve ⟨"robot", .cpp⟩ gripDocument = .ok c ∧ c.ns = "robot" ∧
        c.ownDeclared = ["Gripper"] ∧
        c.forwardGroups = [("geometry", ["Frame"]), ("robot", ["Joint"])] ∧
        c.memberTypes.flatMap TypeExpr.classNames = ["Joint", "robot::Joint"] ∧
        c.relations.flatMap Relation.declared = ["Gripper", "geometry::Frame"] := by
    decide +kernel
  obtain ⟨groups, hread, -, -, htypes, hrelations⟩ := introduces_of_resolve hc ⟨"robot", ""⟩
  have hgroups : groups = [("geometry", ["Frame"]), ("robot", ["Joint"])] := by
    have hread' := Artifact.namespaces_baseHeader ⟨"robot", ""⟩ c
    rw [(List.append_inj' (hread.symm.trans hread') rfl).1, hforward]
  rw [hns, hown, hgroups] at hread
  rw [← hgroups]
  refine ⟨c, hc, ?_, ?_, ?_⟩
  · rw [hread, hgroups]
  · have hjoint : "Joint" ∈ c.memberTypes.flatMap TypeExpr.classNames := by
      rw [hclasses]
      decide
    obtain ⟨t, ht, hclass⟩ := List.mem_flatMap.mp hjoint
    obtain ⟨isConst, pointer, source, hwithin⟩ := (TypeExpr.mem_classNames t).mp hclass
    have hintroduced := (htypes t ht _ _ _ _ hwithin).2
    rw [hns] at hintroduced
    exact hintroduced
  · have hframe : "geometry::Frame" ∈ c.relations.flatMap Relation.declared := by
      rw [htargets]
      decide
    obtain ⟨r, hr, hname⟩ := List.mem_flatMap.mp hframe
    exact (hrelations r hr _ hname).2

end ClassSchema
