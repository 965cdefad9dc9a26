import ClassSchema.Proofs.Generate.Distinct

/-! # Files stay below their directories

The name of a class becomes part of the paths of its files as it is, with its slashes and dots. The
files stay below the directories that are meant for them if the name neither starts at the root nor
leads up before its last slash. -/

namespace ClassSchema

namespace Path

/-- A path that starts where it is put, and never leads up. -/
def Contained (path : String) : Prop := isAbsolute path = false ∧ .up ∉ components path

/-- The start of a path that is contained once the name of its file is complete. -/
def Inside (stem : String) : Prop := isAbsolute stem = false ∧ ".." ∉ (pieces stem).dropLast

instance : DecidablePred Contained := fun _ => inferInstanceAs (Decidable (_ ∧ _))

instance : DecidablePred Inside := fun _ => inferInstanceAs (Decidable (_ ∧ _))

variable {folder stem lead ending : String}

/-- In terms of the pieces between slashes. -/
theorem contained_iff {path : String} :
    Contained path ↔ isAbsolute path = false ∧ ".." ∉ pieces path := by
  rw [Contained, up_mem_components]

/-- A folder does not change where a path leads. An absolute path replaces the folder. -/
theorem contained_join (hfolder : IsName folder) (hslash : '/' ∉ folder.toList) (path : String) :
    Contained (join folder path) ↔ Contained path := by
  by_cases habs : isAbsolute path = true
  · rw [join, habs]
    rfl
  · obtain ⟨hstart, steps, hpieces, hsteps⟩ := pieces_join folder (Bool.eq_false_iff.mpr habs)
    -- The folder is one piece, and not an empty one at the end.
    rw [pieces_of_free hslash] at hsteps
    have hsteps : steps = [folder] := by
      rcases hsteps with heq | heq
      · exact heq.symm
      · have hempty : [] ++ [folder] = steps ++ [""] := heq
        exact absurd (List.append_singleton_inj.mp hempty).2 hfolder.ne_empty
    rw [contained_iff, contained_iff, hstart, hpieces, hsteps, isAbsolute_of_free hslash]
    simp [habs, hfolder.ne_up.symm]

/-- With an ending behind it, a name is contained if it is inside. -/
theorem contained_append (hslash : '/' ∉ ending.toList) (hlong : 2 < ending.toList.length) :
    Contained (stem ++ ending) ↔ Inside stem := by
  obtain ⟨steps, last, hpieces, -⟩ := exists_pieces_eq stem
  have habs : isAbsolute (stem ++ ending) = isAbsolute stem := by
    by_cases hstem : stem = ""
    · rw [hstem, String.empty_append, isAbsolute_of_free hslash]
      rfl
    · exact isAbsolute_append hstem ending
  have hname : last ++ ending ≠ ".." := by
    intro heq
    have hlength := congrArg (fun s => s.toList.length) heq
    simp only [String.toList_append, List.length_append] at hlength
    have hup : "..".toList.length = 2 := rfl
    omega
  rw [contained_iff, Inside, habs, pieces_append_free hpieces hslash, hpieces,
    List.dropLast_concat, List.mem_append, List.mem_singleton]
  simp [hname.symm]

/-- A start of the name that is no dot keeps a path inside. -/
theorem Inside.append_left (h : Inside stem) (hslash : '/' ∉ lead.toList)
    (hdot : lead.toList.head? ≠ some '.') : Inside (lead ++ stem) := by
  by_cases hlead : lead = ""
  · rw [hlead, String.empty_append]
    exact h
  · -- Only the first piece changes, and it does not become a step up.
    obtain ⟨piece, rest, hstem, hpieces⟩ := pieces_free_append hslash stem
    have hup : lead ++ piece ≠ ".." := by
      intro heq
      apply hdot
      obtain ⟨c, cs, hcs⟩ := List.exists_cons_of_ne_nil (mt String.toList_eq_nil_iff.mp hlead)
      have hhead := congrArg (fun s => s.toList.head?) heq
      simpa [hcs] using hhead
    obtain ⟨-, hsteps⟩ := h
    refine ⟨?_, ?_⟩
    · rw [isAbsolute_append hlead, isAbsolute_of_free hslash]
    · rw [hstem] at hsteps
      rw [hpieces]
      cases rest with
      | nil => exact List.not_mem_nil
      | cons next rest =>
          rw [List.dropLast_cons_cons, List.mem_cons, not_or] at hsteps ⊢
          exact ⟨hup.symm, hsteps.2⟩

end Path

open ClassSchema.Path

namespace ArtifactKind

variable {kind : ArtifactKind} {name : String}

/-- What stands before the name of the class. -/
def lead : ArtifactKind → String
  | .baseHeader | .baseSource => "_"
  | .binding => "py"
  | .skeletonHeader | .skeletonSource | .stub | .umbrellaHeader | .bindingModule => ""

/-- The name of a file of a class has the name of the class between a lead and an ending. -/
theorem file_eq (h : kind.isBatch = false) (name : String) :
    kind.file name = kind.lead ++ name ++ ("." ++ kind.ending) := by
  cases kind with
  | umbrellaHeader | bindingModule => cases h
  | baseHeader | baseSource | binding => rfl
  | skeletonHeader | skeletonSource | stub =>
      rw [lead, String.empty_append]
      rfl

/-- Files of a whole batch are contained, and those of a class by its name. -/
theorem contained_path :
    Contained (kind.path name) ↔ (kind.isBatch = false → Inside (kind.lead ++ name)) := by
  rw [path_eq_join, contained_join kind.isName_folder kind.slash_not_mem_folder]
  by_cases hkind : kind.isBatch = true
  · have hfile : Contained (kind.file name) := by
      cases kind with
      | umbrellaHeader =>
          show Contained "xtypes.hpp"
          decide
      | bindingModule =>
          show Contained "pybind11_module.cpp"
          decide
      | _ => cases hkind
    simp [hkind, hfile]
  · have hkind := Bool.eq_false_iff.mpr hkind
    rw [file_eq hkind, contained_append]
    · simp [hkind]
    · cases kind <;> decide
    · cases kind <;> decide

/-- The files of a class are contained, whatever their kind, exactly if its name is inside. The stub
has nothing before the name, so it needs what suffices for all kinds. -/
theorem forall_contained_iff :
    (∀ kind : ArtifactKind, Contained (kind.path name)) ↔ Inside name := by
  constructor
  · intro h
    have hstub := contained_path.mp (h .stub) rfl
    rwa [lead, String.empty_append] at hstub
  · intro h kind
    apply contained_path.mpr
    intro _
    apply h.append_left
    · cases kind <;> decide
    · cases kind <;> decide

end ArtifactKind

/-! ## Places below a directory -/

/-- A place that is reached by names of entries. -/
inductive Location.Under (place : Location) : Location → Prop
  | refl : Under place place
  | child {l : Location} {name : String} (above : Under place l) (isName : IsName name)
      (slash : '/' ∉ name.toList) : Under place (l.child name)

/-- What is below a place below another is below that one. -/
theorem Location.Under.trans {place l m : Location} (h : Under place l) (h' : Under l m) :
    Under place m := by
  induction h' with
  | refl => exact h
  | child _ isName slash ih => exact .child ih isName slash

namespace FileTree

open Generate

variable {config : Config} {t t' : FileTree} {l m : Location}

/-- Steps that do not lead up lead down, or nowhere. -/
theorem under_of_walk {steps : List String} (hup : ".." ∉ steps)
    (hslash : ∀ step ∈ steps, '/' ∉ step.toList) (h : t.walk l steps = some m) :
    l.Under m := by
  induction steps generalizing l with
  | nil =>
      cases h
      exact .refl
  | cons step steps ih =>
      rw [List.mem_cons, not_or] at hup
      rw [List.forall_mem_cons] at hslash
      rw [walk_cons] at h
      split at h
      · obtain ⟨next, hnext, h⟩ := Option.bind_eq_some_iff.mp h
        have hrest := ih hup.2 hslash.2 h
        unfold step? at hnext
        split at hnext
        · cases hnext
          exact hrest
        · rename_i hidle
          rw [if_neg (by simpa using Ne.symm hup.1)] at hnext
          simp only [Bool.or_eq_true, String.isEmpty_iff, beq_iff_eq, not_or] at hidle
          split at hnext
          · cases hnext
            have hname : IsName step := ⟨hidle.1, hidle.2, Ne.symm hup.1⟩
            exact Location.Under.trans (.child .refl hname hslash.1) hrest
          · cases hnext
      · cases h

/-- A contained file is below the folder of its kind. -/
theorem under_of_locate? {kind : ArtifactKind} {dir name : String}
    (hpath : Contained (kind.path name)) (h : t.locate? (join dir (kind.path name)) = some l) :
    ∃ place : Location, t.base? dir = some place ∧ (place.child kind.folder).Under l := by
  have hfile : Contained (kind.file name) := by
    rw [kind.path_eq_join, contained_join kind.isName_folder kind.slash_not_mem_folder] at hpath
    exact hpath
  obtain ⟨habs, hup⟩ := contained_iff.mp hfile
  have hpieces : pieces (kind.path name) = kind.folder :: pieces (kind.file name) := by
    rw [kind.path_of_relative habs, pieces_slash, pieces_of_free kind.slash_not_mem_folder]
    rfl
  obtain ⟨place, hplace, hwalk⟩ := walk_of_locate? hpath.1 hpieces kind.isName_folder h
  refine ⟨place, hplace, under_of_walk hup ?_ hwalk⟩
  intro step hstep
  exact slash_not_mem_of_mem_pieces hstep

end FileTree

/-! ## Runs -/

/-- Where files are meant to go. -/
def Config.directories (config : Config) : List String := config.output :: config.skeletons.toList

namespace Generate

variable {config : Config} {sources : List Source} {compiled : Compiled}

/-- A class has the name that its document gives. -/
theorem Source.exists_document {s : Source} {f : ResolvedFile} (h : s.resolve config = .ok f) :
    ∃ doc, s.document = .ok doc ∧ f.cpp.name = doc.name := by
  rw [Source.resolve_eq] at h
  obtain ⟨doc, hdoc, h⟩ := bind_eq_ok h
  obtain ⟨cpp, hcpp, h⟩ := bind_eq_ok h
  obtain ⟨python, -, h⟩ := bind_eq_ok h
  cases h
  obtain ⟨steps, rfl⟩ := Resolve.exists_steps (mapError_eq_ok hcpp)
  exact ⟨doc, hdoc, rfl⟩

/-- The names in the paths are those of the documents. -/
theorem contained_of_mem_slots (h : compile config sources = .ok compiled)
    (hnames : ∀ s ∈ sources, ∀ doc, s.document = .ok doc → Inside doc.name)
    {kind : ArtifactKind} {name : String} (hslot : (kind, name) ∈ compiled.slots config) :
    Contained (kind.path name) := by
  rcases (mem_slots h).mp hslot with ⟨f, hf, -, rfl⟩ | ⟨hkind, -⟩
  · obtain ⟨s, hs, hresolve⟩ := exists_of_mem_mapM (compile_eq_ok h).1 hf
    obtain ⟨doc, hdoc, hname⟩ := Source.exists_document hresolve
    rw [hname]
    exact ArtifactKind.forall_contained_iff.mpr (hnames s hs doc hdoc) kind
  · apply ArtifactKind.contained_path.mpr
    intro hclass
    rw [isBatch_of_mem_batchKinds hkind] at hclass
    cases hclass

/-- A planned path is joined to one of the directories. -/
theorem directory_of_path? {slot : ArtifactKind × String} {path : String}
    (h : path? config slot = some path) :
    ∃ dir ∈ config.directories, path = join dir (slot.1.path slot.2) := by
  obtain ⟨dir, hpath, ⟨-, hdir⟩ | ⟨-, rfl⟩⟩ := eq_join_of_path? h
  · exact ⟨dir, by simp [Config.directories, hdir], hpath⟩
  · exact ⟨config.output, List.mem_cons_self, hpath⟩

end Generate

namespace FileTree

open Generate

variable {config : Config} {at_ : Timestamp} {input : String} {t t' : FileTree}

/-- A file after a run was there before, or it is below one of the folders of a directory that is
meant for it, if all documents have names that lead inside. -/
theorem entry_of_inside {r : Except Generate.Error Summary}
    (h : t.generate config at_ input = (r, t'))
    (hnames : ∀ paths, t.documents input = .ok paths → ∀ path ∈ paths, ∀ doc,
      (t.source path).document = .ok doc → Inside doc.name)
    {l : Location} {c : Content} (hc : t'.entry? l = some (.file c)) :
    t.entry? l = some (.file c) ∨
      ∃ dir ∈ config.directories, ∃ place, t'.base? dir = some place ∧
        ∃ kind : ArtifactKind, (place.child kind.folder).Under l := by
  rcases generate_cases config at_ input t with
    ⟨e, heq, -⟩ | ⟨paths, compiled, planned, hpaths, hcompile, hplan, heq⟩
  · rw [heq] at h
    cases h
    exact .inl hc
  · rw [heq] at h
    obtain ⟨-, rfl⟩ := Prod.mk.inj h
    have hsources : ∀ s ∈ paths.map t.source, ∀ doc, s.document = .ok doc → Inside doc.name := by
      intro s hs doc hdoc
      obtain ⟨path, hpath, rfl⟩ := List.mem_map.mp hs
      exact hnames paths hpaths path hpath doc hdoc
    rcases (writes_writeAll config planned t).file_before_or_text hc with
      hbefore | ⟨s, ⟨p, hp, hl, -⟩, -⟩
    · exact .inl hbefore
    · have hpath : p.path ∈ (compiled.slots config).filterMap (path? config) :=
        paths_of_plan hplan ▸ List.mem_map_of_mem hp
      obtain ⟨slot, hslot, hpath⟩ := List.mem_filterMap.mp hpath
      obtain ⟨dir, hdir, heq⟩ := directory_of_path? hpath
      rw [heq] at hl
      obtain ⟨place, hplace, hunder⟩ :=
        under_of_locate? (contained_of_mem_slots hcompile hsources hslot) hl
      exact .inr ⟨dir, hdir, place, hplace, slot.1, hunder⟩

/-- The files of a class are contained, whatever their kind, exactly if its name is inside. If this
is so for all documents of a run, every file after it was there before or is below one of the
folders of a directory that is meant for it, also if the run fails. -/
theorem generate_contained (config : Config) (at_ : Timestamp) (input : String) (t : FileTree) :
    (∀ doc : Document, (∀ kind : ArtifactKind, Contained (kind.path doc.name)) ↔ Inside doc.name) ∧
    ∀ r t', t.generate config at_ input = (r, t') →
      (∀ paths, t.documents input = .ok paths → ∀ path ∈ paths, ∀ doc,
        (t.source path).document = .ok doc → Inside doc.name) →
      ∀ l c, t'.entry? l = some (.file c) → t.entry? l = some (.file c) ∨
        ∃ dir ∈ config.directories, ∃ place, t'.base? dir = some place ∧
          ∃ kind : ArtifactKind, (place.child kind.folder).Under l := by
  refine ⟨fun doc => ArtifactKind.forall_contained_iff, ?_⟩
  intro r t' hrun hnames l c hc
  exact entry_of_inside hrun hnames hc

/-- One class under some name. -/
def lone (name : String) : FileTree where
  entries := [("/doc", .directory), ("/doc/a.yaml", .file (.text ("name: " ++ name ++ "\n")))]

/-- A name with a slash leads to a folder of its own. -/
theorem generate_contained_subfolder :
    ∃ s t', (lone "sub/Arm").generate bindingsConfig ⟨2024, 2, 29, 23, 59, 58⟩ "doc" = (.ok s, t') ∧
      t'.isFile "out/python/sub/Arm.pyi" ∧ Inside "sub/Arm" ∧
      ∀ l c, t'.entry? l = some (.file c) → entry? (lone "sub/Arm") l = some (.file c) ∨
        ∃ dir ∈ ["out", "own"], ∃ place, t'.base? dir = some place ∧
          ∃ kind : ArtifactKind, (place.child kind.folder).Under l := by
  obtain ⟨s, t', hrun, hfile⟩ :
      ∃ s t', (lone "sub/Arm").generate bindingsConfig ⟨2024, 2, 29, 23, 59, 58⟩ "doc"
        = (.ok s, t') ∧ t'.isFile "out/python/sub/Arm.pyi" := by
    decide +kernel
  refine ⟨s, t', hrun, hfile, by decide, (generate_contained _ _ _ _).2 _ _ hrun ?_⟩
  decide +kernel

/-- A class whose stub is above the directory that is meant for it. -/
theorem generate_escapes :
    ¬ Contained (ArtifactKind.stub.path "../../evil") ∧
    ∃ s t', (lone "../../evil").generate bindingsConfig ⟨2024, 2, 29, 23, 59, 58⟩ "doc"
        = (.ok s, t') ∧
      entry? (lone "../../evil") "/evil.pyi" = none ∧ t'.isFile "evil.pyi" ∧
      t'.locate? "evil.pyi" = some "/evil.pyi" ∧ t'.base? "out" = some "/out" ∧
      t'.base? "own" = some "/own" := by
  decide +kernel

end FileTree

end ClassSchema
