import ClassSchema.Proofs.FileTree.Writes
import ClassSchema.Proofs.Path
import ClassSchema.Proofs.Text.Sorted

/-! # The documents of a tree in which other files are written

Files whose names are not those of documents do not change what is found under a path. -/

namespace ClassSchema

namespace Location

/-- An entry is cut into its directory and its name. -/
theorem cut?_child (l : Location) {name : String} (h : '/' ∉ name.toList) :
    cut? (l.child name) = some (l, name) := by
  have hlist : (l.child name).toList = l.toList ++ ([] ++ ['/']) ++ name.toList := by simp [child]
  have hcut := Chars.cutLast?_append [] l.toList h
  have hsep : "/".toList = [] ++ ['/'] := rfl
  rw [cut?, Text.cutLast?, hlist, hsep, hcut]
  simp

/-- An entry is the child of its directory. -/
theorem eq_child_of_cut? {l dir : Location} {name : String} (h : l.cut? = some (dir, name)) :
    l = dir.child name ∧ '/' ∉ name.toList := by
  obtain ⟨⟨before, after⟩, hcut, heq⟩ := Option.map_eq_some_iff.mp h
  cases heq
  obtain ⟨htext, hslash⟩ := Chars.cutLast?_eq_some (c := '/') hcut
  refine ⟨?_, by simpa using hslash⟩
  rw [← String.toList_inj, htext]
  simp [child]

/-- Children are different if their directories or their names are. -/
theorem child_inj {l m : Location} {a b : String} (ha : '/' ∉ a.toList) (hb : '/' ∉ b.toList)
    (h : l.child a = m.child b) : l = m ∧ a = b := by
  have hcut := cut?_child l ha
  rw [h, cut?_child m hb] at hcut
  cases hcut
  exact ⟨rfl, rfl⟩

end Location

namespace FileTree

open Generate ClassSchema.Path

variable {t t' : FileTree} {l m : Location} {path name input : String} {steps : List String}
  {W : Location → String → Prop}

/-! ## Where a path leads -/

/-- A path is followed piece by piece. -/
theorem walk_pieces (h : t.locate? path = some l) :
    t.walk (if isAbsolute path then .root else t.workdir) (pieces path) = some l := by
  unfold locate? at h
  split at h
  · cases h
  · exact h

/-- The last piece names the place, unless it only leads to a directory on the way. -/
theorem locate?_cases (h : t.locate? path = some l) (hpath : pieces path = steps ++ [name]) :
    (IsName name ∧ ∃ dir : Location, l = dir.child name) ∨ t.isDirectoryAt l ∨ name = ".." := by
  have hwalk := walk_pieces h
  rw [hpath, walk_append] at hwalk
  obtain ⟨dir, -, hstep⟩ := Option.bind_eq_some_iff.mp hwalk
  rw [walk_cons] at hstep
  split at hstep
  · rename_i hdir
    obtain ⟨l', hl', heq⟩ := Option.bind_eq_some_iff.mp hstep
    cases heq
    unfold step? at hl'
    split at hl'
    · cases hl'
      exact .inr (.inl hdir)
    · rename_i hidle
      simp only [Bool.or_eq_true, String.isEmpty_iff, beq_iff_eq, not_or] at hidle
      split at hl'
      · rename_i hup
        exact .inr (.inr (beq_iff_eq.mp hup))
      · rename_i hup
        split at hl'
        · cases hl'
          exact .inl ⟨⟨hidle.1, hidle.2, fun heq => hup (beq_iff_eq.mpr heq)⟩, dir, rfl⟩
        · cases hl'
  · cases hstep

/-- A file under the path of a document has the name of one. -/
theorem isDocumentName_of_file {c : Content} (hl : t.locate? path = some l)
    (hc : t.entry? l = some (.file c)) (hdoc : isDocumentName path) :
    ∃ (dir : Location) (name : String),
      l = dir.child name ∧ '/' ∉ name.toList ∧ isDocumentName name := by
  obtain ⟨steps, name, hpath, hslash⟩ := exists_pieces_eq path
  rcases locate?_cases hl hpath with ⟨hname, dir, hdir⟩ | hdir | rfl
  · rw [isDocumentName_of_pieces hpath hname hslash] at hdoc
    exact ⟨dir, name, hdir, hslash, hdoc⟩
  · exact absurd hdir (not_isDirectoryAt_of_file hc)
  · rw [isDocumentName_of_up hpath] at hdoc
    cases hdoc

/-- One more step after a walk. -/
theorem walk_concat {start : Location} (h : t.walk start steps = some l) (hdir : t.isDirectoryAt l)
    (name : String) : t.walk start (steps ++ [name]) = step? l name := by
  rw [walk_append, h, Option.bind_some, walk_cons, if_pos hdir]
  exact Option.bind_fun_some _

/-- The steps to a directory, followed by the name of an entry. -/
theorem exists_pieces_join (hinput : t.locate? input = some l) (hslash : '/' ∉ name.toList) :
    isAbsolute (join input name) = isAbsolute input ∧
    ∃ steps, pieces (join input name) = steps ++ [name] ∧
      t.walk (if isAbsolute input then .root else t.workdir) steps = some l := by
  obtain ⟨habs, steps, hpieces, hsteps⟩ := pieces_join input (isAbsolute_of_free hslash)
  rw [pieces_of_free hslash] at hpieces
  refine ⟨habs, steps, hpieces, ?_⟩
  have hwalk := walk_pieces hinput
  rcases hsteps with heq | heq
  · rw [heq] at hwalk
    exact hwalk
  · -- The slash at the end of the input stands for a step that stays where it is.
    rw [heq, walk_append] at hwalk
    obtain ⟨dir, hdir, hidle⟩ := Option.bind_eq_some_iff.mp hwalk
    rw [walk_cons] at hidle
    split at hidle
    · cases hidle
      exact hdir
    · cases hidle

/-- The place below a directory does not depend on what else is in the tree. -/
theorem locate?_join (hinput : t.locate? input = some l) (hdir : t.isDirectoryAt l)
    (hslash : '/' ∉ name.toList) :
    t.locate? (join input name) =
      if (join input name).isEmpty || isTooLong (join input name) then none
      else step? l name := by
  obtain ⟨habs, steps, hpieces, hwalk⟩ := exists_pieces_join hinput hslash
  have hjoin := walk_concat hwalk hdir name
  rw [← hpieces, ← habs] at hjoin
  rw [locate?]
  split
  · rfl
  · exact hjoin

/-- A name leads to the child of that name. -/
theorem step?_of_isName (h : IsName name) (hl : step? l name = some m) : m = l.child name := by
  unfold step? at hl
  rw [if_neg (by simp [h.ne_empty, h.ne_here]), if_neg (by simp [h.ne_up])] at hl
  split at hl
  · exact (Option.some.inj hl).symm
  · cases hl

/-- A document in a directory is the entry that its name says. -/
theorem eq_child_of_document {c : Content} (hinput : t.locate? input = some l)
    (hdir : t.isDirectoryAt l) (hslash : '/' ∉ name.toList)
    (hm : t.locate? (join input name) = some m) (hc : t.entry? m = some (.file c))
    (hdoc : isDocumentName (join input name)) : m = l.child name := by
  obtain ⟨-, steps, hpieces, -⟩ := exists_pieces_join hinput hslash
  rcases locate?_cases hm hpieces with ⟨hname, -⟩ | hmdir | rfl
  · rw [locate?_join hinput hdir hslash] at hm
    split at hm
    · cases hm
    · exact step?_of_isName hname hm
  · exact absurd hmdir (not_isDirectoryAt_of_file hc)
  · rw [isDocumentName_of_up hpieces] at hdoc
    cases hdoc

/-! ## Entries below a directory -/

private theorem exists_lookup_iff {entries : List (Location × Entry)} :
    (∃ e, entries.lookup l = some e) ↔ ∃ e, (l, e) ∈ entries := by
  induction entries with
  | nil => simp
  | cons entry entries ih =>
      obtain ⟨place, e⟩ := entry
      rw [List.lookup_cons]
      cases hplace : l == place with
      | true =>
          obtain rfl := beq_iff_eq.mp hplace
          simp
      | false =>
          have hne : l ≠ place := ne_of_beq_false hplace
          simp [ih, hne]

/-- The names below a directory are those of the entries in it. -/
theorem mem_namesBelow :
    name ∈ t.namesBelow l ↔ '/' ∉ name.toList ∧ ∃ e, t.entry? (l.child name) = some e := by
  have hentry : (∃ e, t.entry? (l.child name) = some e) ↔ ∃ e, (l.child name, e) ∈ t.entries := by
    have hroot : (l.child name == .root) = false := beq_false_of_ne (l.child_ne_root name)
    unfold entry?
    rw [hroot]
    exact exists_lookup_iff
  rw [hentry, namesBelow, mem_nameSet, List.mem_filterMap]
  constructor
  · rintro ⟨⟨place, e⟩, hmem, hname⟩
    dsimp only at hname
    split at hname
    · rename_i dir last hcut
      split at hname
      · rename_i hdir
        cases hname
        obtain rfl := beq_iff_eq.mp hdir
        obtain ⟨rfl, hslash⟩ := Location.eq_child_of_cut? hcut
        exact ⟨hslash, e, hmem⟩
      · cases hname
    · cases hname
  · rintro ⟨hslash, e, hmem⟩
    exact ⟨(l.child name, e), hmem, by simp [Location.cut?_child l hslash]⟩

/-- An entry right below a directory keeps its place. -/
theorem Writes.locate?_join (h : Writes W t t') (hinput : t.locate? input = some l)
    (hdir : t.isDirectoryAt l) (hslash : '/' ∉ name.toList) :
    t'.locate? (join input name) = t.locate? (join input name) := by
  rw [FileTree.locate?_join hinput hdir hslash,
    FileTree.locate?_join (h.locate?_eq_some hinput) (h.isDirectoryAt hdir) hslash]

/-- Nothing disappears. -/
theorem Writes.exists_entry (h : Writes W t t') {e : Entry} (he : t.entry? l = some e) :
    ∃ e', t'.entry? l = some e' := by
  cases e with
  | directory => exact ⟨_, h.directory he⟩
  | file c =>
      obtain ⟨c', hc'⟩ := h.file he
      exact ⟨_, hc'⟩

/-! ## Documents -/

/-- Documents are files. -/
theorem isFile_of_mem_documents {paths : List String} (h : t.documents input = .ok paths) :
    ∀ path ∈ paths, t.isFile path := by
  intro path hpath
  unfold documents at h
  split at h
  · rename_i hfile
    cases h
    rw [List.mem_singleton.mp hpath]
    exact hfile
  · split at h
    · cases h
    · split at h
      · cases h
        simp only [List.mem_filter, Bool.and_eq_true] at hpath
        exact hpath.2.2
      · cases h

/-- Only files that are no documents get a text. -/
def Aside (W : Location → String → Prop) : Prop :=
  ∀ l s, W l s → ∃ (dir : Location) (name : String),
    l = dir.child name ∧ '/' ∉ name.toList ∧ isDocumentName name = false

/-- A document is not where a text goes. -/
theorem Aside.untouched (hW : Aside W) {c : Content} (hl : t.locate? path = some l)
    (hc : t.entry? l = some (.file c)) (hdoc : isDocumentName path) (s : String) : ¬ W l s := by
  intro hs
  obtain ⟨dir, name, rfl, hslash, hname⟩ := hW l s hs
  obtain ⟨dir', name', heq, hslash', hname'⟩ := isDocumentName_of_file hl hc hdoc
  rw [(Location.child_inj hslash hslash' heq).2, hname'] at hname
  cases hname

section Aside

variable (h : Writes W t t') (hW : Aside W)
include h hW

/-- The same names below a directory are those of documents. -/
theorem document_iff (hinput : t.locate? input = some l) (hdir : t.isDirectoryAt l)
    (name : String) :
    name ∈ t'.namesBelow l ∧ isDocumentName (join input name) ∧ t'.isFile (join input name) ↔
      name ∈ t.namesBelow l ∧ isDocumentName (join input name) ∧ t.isFile (join input name) := by
  rw [mem_namesBelow, mem_namesBelow]
  constructor
  · rintro ⟨⟨hslash, -⟩, hdoc, hfile⟩
    obtain ⟨m, c, hm', hc'⟩ := isFile_iff.mp hfile
    have hm := (h.locate?_join hinput hdir hslash).symm.trans hm'
    have hc := h.file_of_untouched (hW.untouched hm' hc' hdoc) hc'
    obtain rfl := eq_child_of_document hinput hdir hslash hm hc hdoc
    exact ⟨⟨hslash, .file c, hc⟩, hdoc, isFile_iff.mpr ⟨_, c, hm, hc⟩⟩
  · rintro ⟨⟨hslash, e, he⟩, hdoc, hfile⟩
    exact ⟨⟨hslash, h.exists_entry he⟩, hdoc, h.isFile hfile⟩

/-- The same documents are found afterwards. -/
theorem documents_of_writes {paths : List String} (hpaths : t.documents input = .ok paths) :
    t'.documents input = .ok paths := by
  unfold documents at hpaths ⊢
  split at hpaths
  · rename_i hfile
    rw [if_pos (h.isFile hfile)]
    exact hpaths
  · split at hpaths
    · cases hpaths
    · rename_i l hl
      split at hpaths
      · rename_i hdir
        have hl' := h.locate?_eq_some hl
        have hdir' := h.isDirectoryAt hdir
        have hfile' : ¬ t'.isFile input := by
          intro hfile'
          obtain ⟨m, c, hm, hc⟩ := isFile_iff.mp hfile'
          obtain rfl := Option.some.inj (hl'.symm.trans hm)
          exact not_isDirectoryAt_of_file hc hdir'
        rw [if_neg hfile', hl']
        cases hpaths
        dsimp only
        rw [if_pos hdir', List.filter_map, List.filter_map]
        refine congrArg (fun names => Except.ok (List.map (join input) names)) ?_
        refine eq_of_increasing ((nameSet_increasing _).sublist List.filter_sublist)
          ((nameSet_increasing _).sublist List.filter_sublist) fun name => ?_
        have hiff := document_iff h hW hl hdir name
        simpa only [List.mem_filter, Function.comp_apply, Bool.and_eq_true] using hiff
      · cases hpaths

end Aside

end FileTree

end ClassSchema
