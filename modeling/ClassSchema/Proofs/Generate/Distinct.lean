import Mathlib.Data.List.Nodup
import ClassSchema.Proofs.Batch.Order
import ClassSchema.Proofs.FileTree.Documents
import ClassSchema.Proofs.Generate.Effect
import ClassSchema.Proofs.Resolve.Steps

/-! # The files of a run are different

The classes of a batch have different names, and the kinds of files have different folders or
different beginnings of their names, but for one name of a class that makes its binding the module
of all bindings. -/

namespace ClassSchema

open ClassSchema.Path

namespace ArtifactKind

variable {kind kind' : ArtifactKind} {name name' : String}

/-- The folder of the files of a kind. -/
def folder : ArtifactKind → String
  | .baseHeader | .skeletonHeader | .umbrellaHeader => "include"
  | .baseSource | .skeletonSource => "src"
  | .binding | .bindingModule => "pybind"
  | .stub => "python"

/-- The name of the file; a file of the whole batch is not named by a class. -/
def file (className : String) : ArtifactKind → String
  | .baseHeader => "_" ++ className ++ ".hpp"
  | .baseSource => "_" ++ className ++ ".cpp"
  | .skeletonHeader => className ++ ".hpp"
  | .skeletonSource => className ++ ".cpp"
  | .binding => "py" ++ className ++ ".cpp"
  | .stub => className ++ ".pyi"
  | .umbrellaHeader => "xtypes.hpp"
  | .bindingModule => "pybind11_module.cpp"

/-- The name of a file has no slash if that of the class has none. -/
theorem slash_not_mem_file (kind : ArtifactKind) (h : '/' ∉ name.toList) :
    '/' ∉ (kind.file name).toList := by
  cases kind <;> simp [file, h]

/-- Folders have names. -/
theorem isName_folder (kind : ArtifactKind) : IsName kind.folder := by
  cases kind <;> exact ⟨by decide, by decide, by decide⟩

theorem slash_not_mem_folder (kind : ArtifactKind) : '/' ∉ kind.folder.toList := by
  cases kind <;> decide

/-- So have files. -/
theorem isName_file (kind : ArtifactKind) (name : String) : IsName (kind.file name) := by
  have hlength : 4 ≤ (kind.file name).toList.length := by
    cases kind <;> simp [file]
  refine ⟨?_, ?_, ?_⟩ <;>
  · intro heq
    rw [heq] at hlength
    exact absurd hlength (by decide)

/-- A path is that of a file in a folder. -/
theorem path_eq_join (kind : ArtifactKind) (name : String) :
    kind.path name = join kind.folder (kind.file name) := by
  cases kind <;> rfl

/-- The folder comes first unless the name of the file is an absolute path. -/
theorem path_of_relative (kind : ArtifactKind) (h : isAbsolute (kind.file name) = false) :
    kind.path name = kind.folder ++ "/" ++ kind.file name := by
  have hend : Text.endsWith "/" kind.folder = false := by
    cases kind <;> decide
  rw [path_eq_join, join, h, hend, String.isEmpty_eq_false_iff.mpr kind.isName_folder.ne_empty]
  rfl

/-- It does if the name of the class has no slash. -/
theorem path_eq (kind : ArtifactKind) (h : '/' ∉ name.toList) :
    kind.path name = kind.folder ++ "/" ++ kind.file name :=
  kind.path_of_relative (isAbsolute_of_free (kind.slash_not_mem_file h))

/-- Two components are added to those of the directory. -/
theorem components_path (kind : ArtifactKind) (dir : String) (h : '/' ∉ name.toList) :
    components (join dir (kind.path name))
      = components dir ++ [.name kind.folder, .name (kind.file name)] := by
  rw [kind.path_eq h]
  exact components_join kind.isName_folder kind.slash_not_mem_folder (kind.slash_not_mem_file h)
    dir (kind.isName_file name)

/-- Files of one kind are different if their classes are. -/
theorem file_inj (hkind : kind.isBatch = false) (h : kind.file name = kind.file name') :
    name = name' := by
  cases kind with
  | umbrellaHeader | bindingModule => cases hkind
  | _ => simpa [file] using h

/-- The class whose binding is named like the module of all bindings. -/
def clashing : String := "bind11_module"

/-- One class has a binding that is named like the module. -/
theorem file_binding_eq : binding.file name = bindingModule.file name' ↔ name = clashing := by
  have hmodule : bindingModule.file name' = "py" ++ clashing ++ ".cpp" := rfl
  rw [hmodule, file]
  simp

/-- All kinds of files. -/
def all : List ArtifactKind :=
  [.baseHeader, .baseSource, .skeletonHeader, .skeletonSource, .binding, .stub, .umbrellaHeader,
    .bindingModule]

theorem mem_all (kind : ArtifactKind) : kind ∈ all := by
  cases kind <;> decide

/-- Kinds in the same folder of the same directory are the same, unless one of them is for a whole
batch. -/
theorem folder_cases (hskeleton : kind.isSkeleton = kind'.isSkeleton)
    (hfolder : kind.folder = kind'.folder) :
    kind = kind' ∨ (kind, kind') ∈ [(.binding, .bindingModule), (.bindingModule, .binding),
      (.baseHeader, .umbrellaHeader), (.umbrellaHeader, .baseHeader)] := by
  have htable : ∀ k ∈ all, ∀ k' ∈ all, k.isSkeleton = k'.isSkeleton → k.folder = k'.folder →
      k = k' ∨ (k, k') ∈ [(binding, bindingModule), (bindingModule, binding),
        (baseHeader, umbrellaHeader), (umbrellaHeader, baseHeader)] := by
    decide
  exact htable kind kind.mem_all kind' kind'.mem_all hskeleton hfolder

/-- What the kinds of two files with the same folder and the same name can be. -/
theorem kind_cases (hskeleton : kind.isSkeleton = kind'.isSkeleton)
    (hfolder : kind.folder = kind'.folder) (hfile : kind.file name = kind'.file name') :
    kind = kind' ∨ (kind = .binding ∧ kind' = .bindingModule) ∨
      (kind = .bindingModule ∧ kind' = .binding) := by
  have humbrella (n : String) : "_" ++ n ++ ".hpp" ≠ "xtypes.hpp" := by
    intro heq
    have hhead := congrArg (fun s => s.toList.head?) heq
    simp at hhead
  rcases folder_cases hskeleton hfolder with heq | hpair
  · exact .inl heq
  · simp only [List.mem_cons, Prod.mk.injEq, List.not_mem_nil, or_false] at hpair
    rcases hpair with hpair | hpair | ⟨rfl, rfl⟩ | ⟨rfl, rfl⟩
    · exact .inr (.inl hpair)
    · exact .inr (.inr hpair)
    · exact absurd hfile (humbrella name)
    · exact absurd hfile.symm (humbrella name')

end ArtifactKind

/-! ## What is planned -/

namespace Generate

variable {config : Config} {context : Artifact.Context} {compiled : Compiled}
  {planned : List Planned}

/-- The kinds of the files of a class. -/
def ResolvedFile.kinds (config : Config) (f : ResolvedFile) : List ArtifactKind :=
  (if config.targets .cpp && !f.bindingOnly then ArtifactKind.cppKinds else [])
    ++ if f.python.isSome then ArtifactKind.pythonKinds else []

/-- Both classes of a file have the same name, and there is one for Python if that is wanted. -/
structure ResolvedFile.Paired (config : Config) (f : ResolvedFile) : Prop where
  name : ∀ c ∈ f.python, c.name = f.cpp.name
  isSome : f.python.isSome = config.targets .python

/-- A class has the same name in both languages. -/
theorem Source.paired {s : Source} {f : ResolvedFile} (h : s.resolve config = .ok f) :
    f.Paired config := by
  rw [Source.resolve_eq] at h
  obtain ⟨doc, -, h⟩ := bind_eq_ok h
  obtain ⟨cpp, hcpp, h⟩ := bind_eq_ok h
  obtain ⟨python, hpython, h⟩ := bind_eq_ok h
  cases h
  obtain ⟨sCpp, rfl⟩ := Resolve.exists_steps (mapError_eq_ok hcpp)
  unfold pythonClass at hpython
  split at hpython
  · rename_i htarget
    obtain ⟨c, hc, rfl⟩ := map_eq_ok hpython
    obtain ⟨sPython, rfl⟩ := Resolve.exists_steps (mapError_eq_ok hc)
    refine ⟨?_, htarget.symm⟩
    rintro _ ⟨⟩
    rfl
  · rename_i htarget
    cases hpython
    exact ⟨nofun, (Bool.eq_false_iff.mpr htarget).symm⟩

/-- So the files of a class depend on its kinds and its name. -/
theorem ResolvedFile.Paired.artifacts {f : ResolvedFile} (h : f.Paired config) :
    (f.artifacts config).map (fun a => (a.2, a.1.name))
      = (f.kinds config).map (·, f.cpp.name) := by
  rw [ResolvedFile.artifacts, ResolvedFile.kinds, List.map_append, List.map_append]
  congr 1
  · split <;> rfl
  · cases hpython : f.python with
    | none => rfl
    | some c =>
        have hname : c.name = f.cpp.name := h.name c hpython
        simp [ArtifactKind.pythonKinds, ArtifactKind.language, hname]

/-- The files of a class are not those of a batch. -/
theorem isBatch_of_mem_kinds {f : ResolvedFile} {kind : ArtifactKind}
    (h : kind ∈ f.kinds config) : kind.isBatch = false := by
  have hkinds : ∀ k ∈ ArtifactKind.cppKinds ++ ArtifactKind.pythonKinds, k.isBatch = false := by
    decide
  apply hkinds
  simp only [ResolvedFile.kinds, List.mem_append, List.mem_ite_nil_right] at h
  rcases h with ⟨-, h⟩ | ⟨-, h⟩
  · exact List.mem_append_left _ h
  · exact List.mem_append_right _ h

/-- A class has at most one file of each kind. -/
theorem kinds_nodup (config : Config) (f : ResolvedFile) : (f.kinds config).Nodup := by
  unfold ResolvedFile.kinds
  split <;> split <;> decide

/-- So has a batch. -/
theorem batchKinds_nodup (config : Config) : (batchKinds config).Nodup := by
  unfold batchKinds
  split <;> split <;> decide

section Compile

variable {sources : List Source} (h : compile config sources = .ok compiled)

include h

/-- All classes of a batch have the same names in both languages. -/
theorem paired_of_compile : ∀ f ∈ compiled.files, f.Paired config := by
  intro f hf
  obtain ⟨s, -, hs⟩ := exists_of_mem_mapM (compile_eq_ok h).1 hf
  exact Source.paired hs

/-- No two classes of a batch have the same name. -/
theorem names_nodup : (compiled.files.map (·.cpp.name)).Nodup := by
  have hnodup := Batch.names_nodup_of_validate (compile_eq_ok h).2.1
  rw [List.map_map] at hnodup
  exact hnodup

/-- The order lists the classes of the batch. -/
theorem mem_order {name : String} :
    name ∈ compiled.order.classes ↔ ∃ f ∈ compiled.files, f.cpp.name = name := by
  rw [Batch.mem_classes_of_order (compile_eq_ok h).2.2, List.map_map, List.mem_map]
  rfl

/-- The files of a batch, class by class. -/
theorem slots_eq : compiled.slots config =
    (compiled.files.flatMap fun f => (f.kinds config).map (·, f.cpp.name))
      ++ (batchKinds config).map (·, "") := by
  rw [Compiled.slots, List.map_flatMap]
  congr 1
  exact List.flatMap_congr fun f hf => (paired_of_compile h f hf).artifacts

/-- A file is one of a class or one of the whole batch. -/
theorem mem_slots {kind : ArtifactKind} {name : String} :
    (kind, name) ∈ compiled.slots config ↔
      (∃ f ∈ compiled.files, kind ∈ f.kinds config ∧ f.cpp.name = name) ∨
      (kind ∈ batchKinds config ∧ name = "") := by
  rw [slots_eq h]
  simp [eq_comm]

/-- A file of the whole batch has no class. -/
theorem nameless_of_mem_slots :
    ∀ slot ∈ compiled.slots config, slot.1.isBatch = true → slot.2 = "" := by
  rintro ⟨kind, name⟩ hslot hkind
  rcases (mem_slots h).mp hslot with ⟨f, -, hclass, -⟩ | ⟨-, rfl⟩
  · rw [isBatch_of_mem_kinds hclass] at hkind
    cases hkind
  · rfl

/-- No file is planned twice. -/
theorem slots_nodup : (compiled.slots config).Nodup := by
  have hpair (name : String) : Function.Injective fun kind : ArtifactKind => (kind, name) :=
    fun _ _ heq => congrArg Prod.fst heq
  rw [slots_eq h]
  refine List.Nodup.append ?_ ((batchKinds_nodup config).map (hpair "")) ?_
  · rw [List.nodup_flatMap]
    refine ⟨fun f _ => (kinds_nodup config f).map (hpair _), ?_⟩
    refine (List.pairwise_map.mp (names_nodup h)).imp ?_
    intro f g hne slot hf hg
    obtain ⟨kind, -, rfl⟩ := List.mem_map.mp hf
    obtain ⟨kind', -, heq⟩ := List.mem_map.mp hg
    exact hne (congrArg Prod.snd heq).symm
  · intro slot hclass hbatch
    obtain ⟨f, -, hslot⟩ := List.mem_flatMap.mp hclass
    obtain ⟨kind, hkind, rfl⟩ := List.mem_map.mp hslot
    obtain ⟨kind', hkind', heq⟩ := List.mem_map.mp hbatch
    obtain rfl : kind' = kind := congrArg Prod.fst heq
    have hnot := isBatch_of_mem_kinds hkind
    rw [isBatch_of_mem_batchKinds hkind'] at hnot
    cases hnot

end Compile

/-! ## Files in the same place -/

/-- The paths that are planned. -/
theorem paths_of_plan (h : compiled.plan config context = .ok planned) :
    planned.map Planned.path = (compiled.slots config).filterMap (path? config) := by
  have hpaths := congrArg (List.map Prod.snd) (files_of_plan h)
  rw [List.map_map, List.map_filterMap] at hpaths
  refine hpaths.trans (List.filterMap_congr fun slot _ => ?_)
  rw [Option.map_map]
  exact Option.map_id'

/-- Two files with the same name in the same folder are the same, or one is the module and the other
a binding that is named like it. -/
theorem slot_cases {kind kind' : ArtifactKind} {name name' : String}
    (h : kind.isBatch = true → name = "") (h' : kind'.isBatch = true → name' = "")
    (hskeleton : kind.isSkeleton = kind'.isSkeleton) (hfolder : kind.folder = kind'.folder)
    (hfile : kind.file name = kind'.file name') :
    (kind = kind' ∧ name = name') ∨
      (kind = .binding ∧ name = ArtifactKind.clashing ∧ kind' = .bindingModule ∧ name' = "") ∨
      (kind = .bindingModule ∧ name = "" ∧ kind' = .binding ∧ name' = ArtifactKind.clashing) := by
  rcases ArtifactKind.kind_cases hskeleton hfolder hfile with rfl | ⟨rfl, rfl⟩ | ⟨rfl, rfl⟩
  · refine .inl ⟨rfl, ?_⟩
    by_cases hkind : kind.isBatch = true
    · rw [h hkind, h' hkind]
    · exact ArtifactKind.file_inj (Bool.eq_false_iff.mpr hkind) hfile
  · exact .inr (.inl ⟨rfl, ArtifactKind.file_binding_eq.mp hfile, rfl, h' rfl⟩)
  · exact .inr (.inr ⟨rfl, h rfl, rfl, ArtifactKind.file_binding_eq.mp hfile.symm⟩)

/-- Paths are compared by what `view` tells of them, and directories by what `base` tells. Files
that look the same are the same, or a binding and the module of all bindings. -/
theorem pairwise_paths_iff {β γ : Type} {view : String → β} {base : String → γ}
    {slots : List (ArtifactKind × String)} (hnodup : slots.Nodup)
    (hbatch : ∀ slot ∈ slots, slot.1.isBatch = true → slot.2 = "")
    (hdirs : ∀ dir, config.skeletons = some dir → base dir ≠ base config.output)
    (hview : ∀ x ∈ slots, ∀ y ∈ slots, ∀ dir dir',
      join dir (x.1.path x.2) ∈ slots.filterMap (path? config) →
      join dir' (y.1.path y.2) ∈ slots.filterMap (path? config) →
      view (join dir (x.1.path x.2)) = view (join dir' (y.1.path y.2)) →
      base dir = base dir' ∧ x.1.folder = y.1.folder ∧ x.1.file x.2 = y.1.file y.2) :
    (slots.filterMap (path? config)).Pairwise (fun p q => view p ≠ view q) ↔
      ¬ ((.binding, ArtifactKind.clashing) ∈ slots ∧ (.bindingModule, "") ∈ slots) := by
  rw [List.pairwise_filterMap]
  constructor
  · rintro hpairwise ⟨hbinding, hmodule⟩
    have hsymm : Std.Symm fun x y => ∀ p, path? config x = some p →
        ∀ q, path? config y = some q → view p ≠ view q :=
      ⟨fun x y h q hq p hp heq => h p hp q hq heq.symm⟩
    exact hpairwise.forall hbinding hmodule (by decide) _ rfl _ rfl rfl
  · intro hfree
    refine hnodup.imp_of_mem ?_
    rintro ⟨kind, name⟩ ⟨kind', name'⟩ hx hy hne p hp q hq heq
    have hpmem := List.mem_filterMap.mpr ⟨_, hx, hp⟩
    have hqmem := List.mem_filterMap.mpr ⟨_, hy, hq⟩
    obtain ⟨dir, rfl, hdir⟩ := eq_join_of_path? hp
    obtain ⟨dir', rfl, hdir'⟩ := eq_join_of_path? hq
    obtain ⟨hbase, hfolder, hfile⟩ := hview _ hx _ hy dir dir' hpmem hqmem heq
    have hskeleton : kind.isSkeleton = kind'.isSkeleton := by
      rcases hdir with ⟨hs, hd⟩ | ⟨hs, rfl⟩ <;> rcases hdir' with ⟨hs', hd'⟩ | ⟨hs', rfl⟩
      · exact hs.trans hs'.symm
      · exact absurd hbase (hdirs dir hd)
      · exact absurd hbase.symm (hdirs dir' hd')
      · exact hs.trans hs'.symm
    rcases slot_cases (hbatch _ hx) (hbatch _ hy) hskeleton hfolder hfile with
      ⟨rfl, rfl⟩ | ⟨rfl, rfl, rfl, rfl⟩ | ⟨rfl, rfl, rfl, rfl⟩
    · exact hne rfl
    · exact hfree ⟨hx, hy⟩
    · exact hfree ⟨hy, hx⟩

/-- A class is named such that its binding becomes the module of all bindings. -/
def Clash (config : Config) (compiled : Compiled) : Prop :=
  config.targets .python = true ∧ ArtifactKind.clashing ∈ compiled.order.classes

/-- Both of these are planned if there is a clash. -/
theorem mem_slots_iff_clash {sources : List Source} (h : compile config sources = .ok compiled) :
    (.binding, ArtifactKind.clashing) ∈ compiled.slots config ∧
      (.bindingModule, "") ∈ compiled.slots config ↔ Clash config compiled := by
  have hbinding {f : ResolvedFile} (hf : f ∈ compiled.files) :
      ArtifactKind.binding ∈ f.kinds config ↔ config.targets .python = true := by
    rw [← (paired_of_compile h f hf).isSome]
    simp [ResolvedFile.kinds, ArtifactKind.cppKinds, ArtifactKind.pythonKinds]
  rw [Clash, mem_order h]
  constructor
  · rintro ⟨hslot, -⟩
    rcases (mem_slots h).mp hslot with ⟨f, hf, hkind, hname⟩ | ⟨-, hname⟩
    · exact ⟨(hbinding hf).mp hkind, f, hf, hname⟩
    · exact absurd hname (by decide)
  · rintro ⟨htarget, f, hf, hname⟩
    refine ⟨(mem_slots h).mpr (.inl ⟨f, hf, (hbinding hf).mpr htarget, hname⟩), ?_⟩
    refine (mem_slots h).mpr (.inr ⟨?_, rfl⟩)
    rw [batchKinds, if_pos htarget]
    exact List.mem_append_left _ (List.mem_singleton_self _)

end Generate

namespace FileTree

open Generate

variable {config : Config} {t t' : FileTree} {l : Location}

/-- The place below which the files of a directory are; without a path, the working directory. -/
def base? (t : FileTree) (dir : String) : Option Location :=
  t.walk (if isAbsolute dir then .root else t.workdir) (pieces dir)

/-- A walk to a name goes through the child of that name. -/
theorem walk_name {place : Location} {name : String} {steps : List String} (hname : IsName name)
    (h : t.walk place (name :: steps) = some l) :
    t.isDirectoryAt place ∧ t.walk (place.child name) steps = some l := by
  rw [walk_cons] at h
  split at h
  · rename_i hdir
    obtain ⟨m, hm, h⟩ := Option.bind_eq_some_iff.mp h
    rw [step?_of_isName hname hm] at h
    exact ⟨hdir, h⟩
  · cases h

/-- A path below a directory leads from the place of the directory on. -/
theorem walk_of_locate? {dir path first : String} {rest : List String}
    (habs : isAbsolute path = false) (hpath : pieces path = first :: rest) (hfirst : IsName first)
    (h : t.locate? (join dir path) = some l) :
    ∃ place : Location, t.base? dir = some place ∧ t.walk (place.child first) rest = some l := by
  obtain ⟨hstart, steps, hpieces, hsteps⟩ := pieces_join dir habs
  have hwalk := walk_pieces h
  rw [hstart, hpieces, hpath, walk_append] at hwalk
  obtain ⟨place, hplace, hwalk⟩ := Option.bind_eq_some_iff.mp hwalk
  obtain ⟨hdir, hwalk⟩ := walk_name hfirst hwalk
  refine ⟨place, ?_, hwalk⟩
  -- An empty piece at the end of the directory stays where it is.
  unfold base?
  rcases hsteps with heq | heq
  · rw [heq]
    exact hplace
  · rw [heq, walk_concat hplace hdir]
    rfl

/-- The place of a file is in the folder of its kind, below its directory. -/
theorem locate?_path {kind : ArtifactKind} {dir name : String} (hname : '/' ∉ name.toList)
    (h : t.locate? (join dir (kind.path name)) = some l) :
    ∃ place : Location, t.base? dir = some place ∧
      l = (place.child kind.folder).child (kind.file name) := by
  rw [kind.path_eq hname] at h
  have habs := isAbsolute_folder kind.isName_folder kind.slash_not_mem_folder (kind.file name)
  have hpieces := pieces_folder kind.slash_not_mem_folder (kind.slash_not_mem_file hname)
  obtain ⟨place, hplace, hwalk⟩ := walk_of_locate? habs hpieces kind.isName_folder h
  obtain ⟨-, hwalk⟩ := walk_name (kind.isName_file name) hwalk
  exact ⟨place, hplace, (Option.some.inj hwalk).symm⟩

/-- After a run all paths lead somewhere. -/
theorem located_of_writeAll {ps : List Planned} {es : List Emitted}
    (h : t.writeAll config ps = (.ok es, t')) : ∀ p ∈ ps, ∃ l, t'.locate? p.path = some l := by
  induction ps generalizing t es with
  | nil => simp
  | cons p ps ih =>
      obtain ⟨o, t₁, rest, hstep, hrest, rfl⟩ := writeAll_cons_eq_ok h
      have hwrites := writes_of_writeAll hrest
      rw [List.forall_mem_cons]
      refine ⟨?_, ih hrest⟩
      cases hstep with
      | written _ hl _ _ => exact ⟨_, hwrites.locate?_eq_some hl⟩
      | left hdue hne =>
          rcases Planned.outcome_eq_ok hdue with rfl | ⟨-, old, hfound, -⟩ | ⟨-, -, -, hfound⟩
          · exact absurd rfl hne
          · obtain ⟨l, hl, -⟩ := readText?_eq_some.mp (found_eq_text.mp hfound)
            exact ⟨l, hwrites.locate?_eq_some hl⟩
          · obtain ⟨l, e, hl, -⟩ := exists?_iff.mp (found_ne_nothing.mp hfound)
            exact ⟨l, hwrites.locate?_eq_some hl⟩

/-- In a batch that is valid and can be ordered, and whose classes have no slash in their names, the
paths of all files are different, given that the directories for skeletons and for all other files
are, if and only if no class clashes with the module of all bindings. The same is true of the places
of the files, given that the directories are in different places. -/
theorem artifacts_distinct_iff {sources : List Source} {compiled : Compiled}
    {context : Artifact.Context} {artifacts : List Emitted}
    (h : compile config sources = .ok compiled)
    (hrun : t.writePlan config (compiled.plan config context) = (.ok artifacts, t'))
    (hnames : ∀ name ∈ compiled.order.classes, '/' ∉ name.toList) :
    ((∀ dir, config.skeletons = some dir → components dir ≠ components config.output) →
      ((artifacts.map Emitted.path).Pairwise (fun p q => components p ≠ components q) ↔
        ¬ Clash config compiled)) ∧
    ((∀ dir, config.skeletons = some dir → t'.base? dir ≠ t'.base? config.output) →
      ((artifacts.map Emitted.path).Pairwise (fun p q => t'.locate? p ≠ t'.locate? q) ↔
        ¬ Clash config compiled)) := by
  obtain ⟨planned, hplan⟩ := exists_plan h context
  rw [hplan, writePlan_ok] at hrun
  have hpaths : artifacts.map Emitted.path = (compiled.slots config).filterMap (path? config) :=
    (map_path_of_writeAll hrun).trans (paths_of_plan hplan)
  have hslash : ∀ slot ∈ compiled.slots config, '/' ∉ slot.2.toList := by
    rintro ⟨kind, name⟩ hslot
    rcases (mem_slots h).mp hslot with ⟨f, hf, -, hname⟩ | ⟨-, rfl⟩
    · exact hnames name ((mem_order h).mpr ⟨f, hf, hname⟩)
    · exact List.not_mem_nil
  rw [hpaths, ← mem_slots_iff_clash h]
  constructor
  · intro hdirs
    refine pairwise_paths_iff (slots_nodup h) (nameless_of_mem_slots h) hdirs ?_
    intro x hx y hy dir dir' _ _ heq
    rw [x.1.components_path dir (hslash x hx), y.1.components_path dir' (hslash y hy)] at heq
    obtain ⟨hdir, hfile⟩ := List.append_inj' heq rfl
    simp only [List.cons.injEq, Component.name.injEq, and_true] at hfile
    exact ⟨hdir, hfile⟩
  · intro hdirs
    refine pairwise_paths_iff (slots_nodup h) (nameless_of_mem_slots h) hdirs ?_
    intro x hx y hy dir dir' hpath _ heq
    rw [← paths_of_plan hplan] at hpath
    obtain ⟨p, hp, hpath⟩ := List.mem_map.mp hpath
    obtain ⟨l, hl⟩ := located_of_writeAll hrun p hp
    rw [hpath] at hl
    obtain ⟨place, hplace, hfile⟩ := locate?_path (hslash x hx) hl
    obtain ⟨place', hplace', hfile'⟩ := locate?_path (hslash y hy) (heq ▸ hl)
    obtain ⟨heq, hname⟩ := Location.child_inj (x.1.slash_not_mem_file (hslash x hx))
      (y.1.slash_not_mem_file (hslash y hy)) (hfile.symm.trans hfile')
    obtain ⟨rfl, hfolder⟩ :=
      Location.child_inj x.1.slash_not_mem_folder y.1.slash_not_mem_folder heq
    exact ⟨hplace.trans hplace'.symm, hfolder, hname⟩

/-- Only bindings, with a directory for skeletons that differs from that of all other files. -/
def bindingsConfig : Config where
  project := "p"
  output := "out"
  skeletons := some "own"
  languages := [.python]

/-- One document that is there as a text. -/
def single (text : String) : List Source := [⟨"a.yaml", .ok text⟩]

/-- One class with bindings, and all its files are different. -/
theorem artifacts_distinct_single :
    ∃ compiled, compile bindingsConfig (single "name: Arm\n") = .ok compiled ∧
      compiled.order.classes = ["Arm"] ∧
      ∃ artifacts t', FileTree.writePlan bindingsConfig (compiled.plan bindingsConfig ⟨"p", ""⟩) {}
          = (.ok artifacts, t') ∧
        artifacts.map Emitted.kind = [.binding, .stub, .bindingModule] ∧
        (artifacts.map Emitted.path).Pairwise (fun p q => components p ≠ components q) ∧
        (artifacts.map Emitted.path).Pairwise fun p q => t'.locate? p ≠ t'.locate? q := by
  obtain ⟨compiled, hcompile, hclasses, artifacts, t', hrun, hkinds, hplaces⟩ :
      ∃ compiled, compile bindingsConfig (single "name: Arm\n") = .ok compiled ∧
        compiled.order.classes = ["Arm"] ∧
        ∃ artifacts t', FileTree.writePlan bindingsConfig
            (compiled.plan bindingsConfig ⟨"p", ""⟩) {} = (.ok artifacts, t') ∧
          artifacts.map Emitted.kind = [.binding, .stub, .bindingModule] ∧
          t'.base? "own" ≠ t'.base? "out" := by
    decide +kernel
  have hnames : ∀ name ∈ compiled.order.classes, '/' ∉ name.toList := by
    rw [hclasses]
    decide
  have hfree : ¬ Clash bindingsConfig compiled := by
    rintro ⟨-, hclash⟩
    rw [hclasses] at hclash
    exact absurd hclash (by decide)
  obtain ⟨hpaths, hlocations⟩ := artifacts_distinct_iff hcompile hrun hnames
  refine ⟨compiled, hcompile, hclasses, artifacts, t', hrun, hkinds, (hpaths ?_).mpr hfree,
    (hlocations ?_).mpr hfree⟩
  · rintro dir ⟨⟩
    decide
  · rintro dir ⟨⟩
    exact hplaces

/-- The binding of the class and the module of all bindings have the same path in every run. -/
theorem artifacts_clash_single :
    ∃ compiled, compile bindingsConfig (single "name: bind11_module\n") = .ok compiled ∧
      ∃ planned, compiled.plan bindingsConfig ⟨"p", ""⟩ = .ok planned ∧
        planned.map (fun p => (p.kind, p.path)) =
          [(.binding, "out/pybind/pybind11_module.cpp"), (.stub, "out/python/bind11_module.pyi"),
            (.bindingModule, "out/pybind/pybind11_module.cpp")] ∧
        ∀ t t' artifacts, FileTree.writePlan bindingsConfig (.ok planned) t = (.ok artifacts, t') →
          ¬ (artifacts.map Emitted.path).Nodup := by
  obtain ⟨compiled, hcompile, planned, hplan, hfiles⟩ :
      ∃ compiled, compile bindingsConfig (single "name: bind11_module\n") = .ok compiled ∧
        ∃ planned, compiled.plan bindingsConfig ⟨"p", ""⟩ = .ok planned ∧
          planned.map (fun p => (p.kind, p.path)) =
            [(.binding, "out/pybind/pybind11_module.cpp"), (.stub, "out/python/bind11_module.pyi"),
              (.bindingModule, "out/pybind/pybind11_module.cpp")] := by
    decide +kernel
  refine ⟨compiled, hcompile, planned, hplan, hfiles, ?_⟩
  intro t t' artifacts hrun
  have hpaths := congrArg (List.map Prod.snd) hfiles
  rw [List.map_map] at hpaths
  rw [map_path_of_writeAll hrun, show planned.map Planned.path = _ from hpaths]
  decide

end FileTree

end ClassSchema
