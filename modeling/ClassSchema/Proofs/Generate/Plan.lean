import ClassSchema.Proofs.Computation
import ClassSchema.Proofs.Generate.Write
import ClassSchema.Proofs.Resolve.Steps

/-! # Plans

The files of documents that have been resolved can always be rendered, so a run fails in its
documents, before anything is written, or while it writes. -/

namespace ClassSchema

/-- A class is resolved for the language that is asked for. -/
theorem language_of_resolve {target : Resolve.Target} {doc : Document} {c : ClassModel}
    (h : resolve target doc = .ok c) : c.language = target.language := by
  obtain ⟨s, rfl⟩ := Resolve.exists_steps h
  rfl

namespace Generate

variable {config : Config} {context : Artifact.Context}

/-- The documents are at fault, and not the files to be written. -/
inductive Error.OfDocuments : Error → Prop
  | load (path : String) (e : Document.Error) : OfDocuments (.load path e)
  | resolve (e : Resolve.Error) : OfDocuments (.resolve e)
  | batch (e : Batch.Error) : OfDocuments (.batch e)

namespace ResolvedFile

/-- Both classes of a file are resolved for the right language. -/
structure Matched (f : ResolvedFile) : Prop where
  cpp : f.cpp.language = .cpp
  python : ∀ c ∈ f.python, c.language = .python

/-- So each file of a class gets the class in its language. -/
theorem Matched.artifacts {f : ResolvedFile} (h : f.Matched) {c : ClassModel}
    {kind : ArtifactKind} (hc : (c, kind) ∈ f.artifacts config) :
    c.language = kind.language ∧ kind.isBatch = false := by
  rcases List.mem_append.mp hc with hc | hc
  · split at hc
    · obtain ⟨kind, hkind, hc⟩ := List.mem_map.mp hc
      cases hc
      rw [h.cpp]
      simp only [ArtifactKind.cppKinds, List.mem_cons, List.not_mem_nil, or_false] at hkind
      rcases hkind with rfl | rfl | rfl | rfl <;> exact ⟨rfl, rfl⟩
    · cases hc
  · cases hpython : f.python with
    | none =>
        rw [hpython] at hc
        cases hc
    | some python =>
        rw [hpython] at hc
        obtain ⟨kind, hkind, hc⟩ := List.mem_map.mp hc
        cases hc
        simp only [ArtifactKind.pythonKinds, List.mem_cons, List.not_mem_nil, or_false] at hkind
        rcases hkind with rfl | rfl
        · exact ⟨h.cpp, rfl⟩
        · exact ⟨h.python python hpython, rfl⟩

end ResolvedFile

/-! ## Resolution -/

/-- The document that is read from a source. -/
def Source.document (s : Source) : Except Error Document :=
  match s.text with
  | .error obstacle => .error (.load s.path (.unreadable obstacle.message))
  | .ok text => (Document.read text).mapError (.load s.path)

/-- The class for Python, if files for it are wanted. -/
def pythonClass (config : Config) (doc : Document) : Except Error (Option ClassModel) :=
  if config.targets .python then
    ((ClassSchema.resolve ⟨config.project, .python⟩ doc).mapError .resolve).map some
  else .ok none

/-- Resolution as a sequence of steps. -/
theorem Source.resolve_eq (config : Config) (s : Source) :
    s.resolve config = s.document >>= fun doc =>
      (ClassSchema.resolve ⟨config.project, .cpp⟩ doc).mapError .resolve >>= fun cpp =>
        pythonClass config doc >>= fun python => .ok {
          path := s.path
          cpp
          python
          bindingOnly := (Path.fileName? s.path).any (Text.endsWith bindingOnlyEnd) } := by
  have hpython (doc : Document) (f : Option ClassModel → Except Error ResolvedFile) :
      (if config.targets .python then
        ((ClassSchema.resolve ⟨config.project, .python⟩ doc).mapError .resolve).map some >>= f
        else .ok none >>= f) = pythonClass config doc >>= f := by
    unfold pythonClass
    split <;> rfl
  unfold Source.resolve Source.document
  simp only [hpython]
  cases s.text with
  | error obstacle => rfl
  | ok text => rfl

/-- A source is resolved into classes for the right languages. -/
theorem Source.resolve_eq_ok {s : Source} {f : ResolvedFile} (h : s.resolve config = .ok f) :
    f.Matched := by
  rw [Source.resolve_eq] at h
  obtain ⟨doc, -, h⟩ := bind_eq_ok h
  obtain ⟨cpp, hcpp, h⟩ := bind_eq_ok h
  obtain ⟨python, hpython, h⟩ := bind_eq_ok h
  cases h
  refine ⟨language_of_resolve (mapError_eq_ok hcpp), ?_⟩
  rintro c rfl
  unfold pythonClass at hpython
  split at hpython
  · obtain ⟨c', hc', hsome⟩ := map_eq_ok hpython
    cases hsome
    exact language_of_resolve (mapError_eq_ok hc')
  · cases hpython

/-- If it cannot be resolved, its document is at fault. -/
theorem Source.resolve_eq_error {s : Source} {e : Error} (h : s.resolve config = .error e) :
    e.OfDocuments := by
  rw [Source.resolve_eq] at h
  rcases bind_eq_error h with h | ⟨doc, -, h⟩
  · unfold Source.document at h
    split at h
    · cases h
      exact .load _ _
    · obtain ⟨e, rfl⟩ := mapError_eq_error h
      exact .load _ _
  · rcases bind_eq_error h with h | ⟨cpp, -, h⟩
    · obtain ⟨e, rfl⟩ := mapError_eq_error h
      exact .resolve _
    · rcases bind_eq_error h with h | ⟨python, -, h⟩
      · unfold pythonClass at h
        split at h
        · obtain ⟨e, rfl⟩ := mapError_eq_error (map_eq_error h)
          exact .resolve _
        · cases h
      · cases h

section Compile

variable {sources : List Source} {compiled : Compiled}

/-- All sources have been resolved, and their classes are valid and ordered. -/
theorem compile_eq_ok (h : compile config sources = .ok compiled) :
    sources.mapM (Source.resolve config) = .ok compiled.files ∧
    Batch.validate (compiled.files.map ResolvedFile.cpp) = .ok () ∧
    Batch.order (compiled.files.map ResolvedFile.cpp) = .ok compiled.order := by
  unfold compile at h
  obtain ⟨files, hfiles, h⟩ := bind_eq_ok h
  obtain ⟨_, hvalid, h⟩ := bind_eq_ok h
  obtain ⟨order, horder, h⟩ := bind_eq_ok h
  cases h
  exact ⟨hfiles, mapError_eq_ok hvalid, mapError_eq_ok horder⟩

/-- All classes of a batch are resolved for the right languages. -/
theorem matched_of_compile (h : compile config sources = .ok compiled) :
    ∀ f ∈ compiled.files, f.Matched := by
  intro f hf
  obtain ⟨s, -, hs⟩ := exists_of_mem_mapM (compile_eq_ok h).1 hf
  exact Source.resolve_eq_ok hs

/-- If a batch cannot be compiled, its documents are at fault. -/
theorem compile_eq_error {e : Error} (h : compile config sources = .error e) : e.OfDocuments := by
  unfold compile at h
  rcases bind_eq_error h with h | ⟨files, -, h⟩
  · obtain ⟨s, -, hs⟩ := exists_error_of_mapM h
    exact Source.resolve_eq_error hs
  · rcases bind_eq_error h with h | ⟨_, -, h⟩
    · obtain ⟨e, rfl⟩ := mapError_eq_error h
      exact .batch _
    · rcases bind_eq_error h with h | ⟨order, -, h⟩
      · obtain ⟨e, rfl⟩ := mapError_eq_error h
        exact .batch _
      · cases h

end Compile

/-! ## Rendering -/

/-- A file of a class can be rendered if the language is the right one. -/
theorem exists_renderClass (context : Artifact.Context) {c : ClassModel} {kind : ArtifactKind}
    (hlang : c.language = kind.language) (hkind : kind.isBatch = false) :
    ∃ text, Artifact.renderClass kind context c = .ok text := by
  unfold Artifact.renderClass
  cases kind <;> first | exact ⟨_, if_pos hlang⟩ | cases hkind

/-- So can all files of classes. -/
theorem exists_planClasses {as : List (ClassModel × ArtifactKind)}
    (h : ∀ c kind, (c, kind) ∈ as → c.language = kind.language ∧ kind.isBatch = false) :
    ∃ planned, planClasses config context as = .ok planned := by
  induction as with
  | nil => exact ⟨[], rfl⟩
  | cons a as ih =>
      obtain ⟨c, kind⟩ := a
      obtain ⟨hlang, hkind⟩ := h c kind List.mem_cons_self
      obtain ⟨text, htext⟩ := exists_renderClass context hlang hkind
      obtain ⟨rest, hrest⟩ := ih fun c kind hc => h c kind (List.mem_cons_of_mem _ hc)
      exact ⟨_, by rw [planClasses, planClass, htext, hrest]; rfl⟩

/-- And so can the files of a whole batch. -/
theorem exists_planBatch (config : Config) (b : Artifact.BatchContext)
    {kinds : List ArtifactKind} (h : ∀ kind ∈ kinds, kind.isBatch = true) :
    ∃ planned, planBatch config b kinds = .ok planned := by
  induction kinds with
  | nil => exact ⟨[], rfl⟩
  | cons kind kinds ih =>
      obtain ⟨rest, hrest⟩ := ih fun kind hkind => h kind (List.mem_cons_of_mem _ hkind)
      have hkind := h kind List.mem_cons_self
      rw [planBatch, hrest]
      cases kind with
      | umbrellaHeader => exact ⟨_, rfl⟩
      | bindingModule => exact ⟨_, rfl⟩
      | _ => cases hkind

theorem isBatch_of_mem_batchKinds {kind : ArtifactKind} (h : kind ∈ batchKinds config) :
    kind.isBatch = true := by
  simp only [batchKinds, List.mem_append, List.mem_ite_nil_right, List.mem_singleton] at h
  rcases h with ⟨-, rfl⟩ | ⟨-, rfl⟩ <;> rfl

/-- Rendering never fails after resolution. -/
theorem exists_plan {sources : List Source} {compiled : Compiled}
    (h : compile config sources = .ok compiled) (context : Artifact.Context) :
    ∃ planned, compiled.plan config context = .ok planned := by
  have hmatched := matched_of_compile h
  obtain ⟨ofClasses, hclasses⟩ : ∃ planned, planClasses config context
      (compiled.files.flatMap (ResolvedFile.artifacts config)) = .ok planned := by
    refine exists_planClasses fun c kind hc => ?_
    obtain ⟨f, hf, hc⟩ := List.mem_flatMap.mp hc
    exact (hmatched f hf).artifacts hc
  obtain ⟨ofBatch, hbatch⟩ := exists_planBatch config
    ⟨context, compiled.order.classes, config.registry⟩ fun _ => isBatch_of_mem_batchKinds
  exact ⟨ofClasses ++ ofBatch, by rw [Compiled.plan, hclasses, hbatch]; rfl⟩

/-! ## Paths -/

section Paths

variable {planned : List Planned}

/-- The path of a file of that kind for that class, if there is a directory for it. -/
def path? (config : Config) (slot : ArtifactKind × String) : Option String :=
  (if slot.1.isSkeleton then config.skeletons else some config.output).map
    (Path.join · (slot.1.path slot.2))

/-- The files of a batch, by their kinds and classes; those of the whole batch have no class. -/
def Compiled.slots (config : Config) (c : Compiled) : List (ArtifactKind × String) :=
  (c.files.flatMap (ResolvedFile.artifacts config)).map (fun a => (a.2, a.1.name))
    ++ (batchKinds config).map (·, "")

/-- The kinds and paths of files of classes follow from the kinds and the names. -/
theorem files_of_planClasses {as : List (ClassModel × ArtifactKind)}
    (h : planClasses config context as = .ok planned) :
    planned.map (fun p => (p.kind, p.path)) = (as.map fun a => (a.2, a.1.name)).filterMap
      fun slot => (path? config slot).map (slot.1, ·) := by
  induction as generalizing planned with
  | nil =>
      cases h
      rfl
  | cons a as ih =>
      obtain ⟨c, kind⟩ := a
      obtain ⟨first, hfirst, h⟩ := bind_eq_ok h
      obtain ⟨rest, hrest, h⟩ := bind_eq_ok h
      cases h
      unfold planClass at hfirst
      split at hfirst
      · cases hfirst
      · cases hfirst
        rw [List.map_append, ih hrest, List.map_cons, List.filterMap_cons, path?]
        cases if kind.isSkeleton = true then config.skeletons else some config.output <;> rfl

/-- Those of a whole batch follow from the kinds. -/
theorem files_of_planBatch {b : Artifact.BatchContext} {kinds : List ArtifactKind}
    (hkinds : ∀ kind ∈ kinds, kind.isBatch = true) (h : planBatch config b kinds = .ok planned) :
    planned.map (fun p => (p.kind, p.path)) = (kinds.map (·, "")).filterMap
      fun slot => (path? config slot).map (slot.1, ·) := by
  induction kinds generalizing planned with
  | nil =>
      cases h
      rfl
  | cons kind kinds ih =>
      obtain ⟨text, -, h⟩ := bind_eq_ok h
      obtain ⟨rest, hrest, h⟩ := bind_eq_ok h
      cases h
      rw [List.forall_mem_cons] at hkinds
      have hskeleton : kind.isSkeleton = false := by
        cases kind with
        | skeletonHeader | skeletonSource => cases hkinds.1
        | _ => rfl
      rw [List.map_cons, ih hkinds.2 hrest, List.map_cons, List.filterMap_cons, path?, hskeleton]
      rfl

/-- The kinds and paths of all planned files. -/
theorem files_of_plan {compiled : Compiled} (h : compiled.plan config context = .ok planned) :
    planned.map (fun p => (p.kind, p.path)) = (compiled.slots config).filterMap
      fun slot => (path? config slot).map (slot.1, ·) := by
  obtain ⟨ofClasses, hclasses, h⟩ := bind_eq_ok h
  obtain ⟨ofBatch, hbatch, h⟩ := bind_eq_ok h
  cases h
  rw [List.map_append, files_of_planClasses hclasses,
    files_of_planBatch (fun _ => isBatch_of_mem_batchKinds) hbatch, Compiled.slots,
    List.filterMap_append]

/-- Skeletons go to their own directory, all other files to the output. -/
theorem eq_join_of_path? {slot : ArtifactKind × String} {path : String}
    (h : path? config slot = some path) : ∃ dir, path = Path.join dir (slot.1.path slot.2) ∧
      (slot.1.isSkeleton = true ∧ config.skeletons = some dir ∨
        slot.1.isSkeleton = false ∧ dir = config.output) := by
  unfold path? at h
  obtain ⟨dir, hdir, rfl⟩ := Option.map_eq_some_iff.mp h
  refine ⟨dir, rfl, ?_⟩
  split at hdir
  · rename_i hskeleton
    exact .inl ⟨hskeleton, hdir⟩
  · rename_i hskeleton
    exact .inr ⟨Bool.eq_false_iff.mpr hskeleton, (Option.some.inj hdir).symm⟩

end Paths

end Generate

namespace FileTree

open Generate

/-- What the files of a run share. -/
def runContext (config : Config) (at_ : Timestamp) : Artifact.Context :=
  ⟨config.project, generationComment at_⟩

/-- Documents are only missing because the input is. -/
theorem documents_eq_error {t : FileTree} {input : String} {e : Generate.Error}
    (h : t.documents input = .error e) : e = .io input .noInput := by
  unfold documents at h
  split at h
  · cases h
  · split at h
    · cases h
      rfl
    · split at h
      · cases h
      · cases h
        rfl

/-- A run with a plan writes what is planned. -/
theorem generate_of_plan {config : Config} {at_ : Timestamp} {input : String} {t : FileTree}
    {paths : List String} {compiled : Compiled} {planned : List Planned}
    (hpaths : t.documents input = .ok paths)
    (hcompile : compile config (paths.map t.source) = .ok compiled)
    (hplan : compiled.plan config (runContext config at_) = .ok planned) :
    t.generate config at_ input = ((t.writeAll config planned).1.map (⟨compiled.order, ·⟩),
      (t.writeAll config planned).2) := by
  have hdocuments : t.run (files.documents input) = (.ok paths, t) := by
    rw [← hpaths]
    rfl
  rw [runContext] at hplan
  rw [generate, Files.generate, run_bind_ok hdocuments, run_bind_ok (run_mapM_source paths t),
    hcompile]
  change t.run (files.writePlan config (compiled.plan config _) >>= fun artifacts =>
    return (⟨compiled.order, artifacts⟩ : Summary)) = _
  rw [hplan]
  change t.run (files.writeAll config planned >>= fun artifacts =>
    return (⟨compiled.order, artifacts⟩ : Summary)) = _
  rcases hrun : t.writeAll config planned with ⟨r, t'⟩
  cases r with
  | error e => exact run_bind_error hrun _
  | ok es => exact run_bind_ok hrun _

/-- All that a run can do: fail before anything is written, or write what is planned. -/
theorem generate_cases (config : Config) (at_ : Timestamp) (input : String) (t : FileTree) :
    (∃ e, t.generate config at_ input = (.error e, t) ∧
      (e = .io input .noInput ∨ e.OfDocuments)) ∨
    (∃ paths compiled planned, t.documents input = .ok paths ∧
      compile config (paths.map t.source) = .ok compiled ∧
      compiled.plan config (runContext config at_) = .ok planned ∧
      t.generate config at_ input = ((t.writeAll config planned).1.map (⟨compiled.order, ·⟩),
        (t.writeAll config planned).2)) := by
  have hdocuments : t.run (files.documents input) = (t.documents input, t) := rfl
  cases hpaths : t.documents input with
  | error e =>
      rw [hpaths] at hdocuments
      exact .inl ⟨e, run_bind_error hdocuments _, .inl (documents_eq_error hpaths)⟩
  | ok paths =>
      rw [hpaths] at hdocuments
      cases hcompile : compile config (paths.map t.source) with
      | error e =>
          refine .inl ⟨e, ?_, .inr (compile_eq_error hcompile)⟩
          rw [generate, Files.generate, run_bind_ok hdocuments,
            run_bind_ok (run_mapM_source paths t), hcompile]
          rfl
      | ok compiled =>
          obtain ⟨planned, hplan⟩ := exists_plan hcompile (runContext config at_)
          refine .inr ⟨paths, compiled, planned, rfl, hcompile, hplan, ?_⟩
          exact generate_of_plan hpaths hcompile hplan

end FileTree

end ClassSchema
