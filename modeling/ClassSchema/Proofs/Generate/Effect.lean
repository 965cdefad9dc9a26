import ClassSchema.Proofs.Artifact.Head
import ClassSchema.Proofs.Generate.Plan

/-! # What a run leaves behind

After a successful run the files that it records are as it says, and all others are as they were
before. A run that fails has changed nothing, unless it failed while writing; then some of the files
have their new text and all others still have their old one. -/

namespace ClassSchema

namespace FileTree

open Generate

variable {config : Config} {p : Planned} {ps : List Planned} {a : Emitted} {t t₁ t' : FileTree}

/-- The paths denote files, and no two of them the same. -/
structure DistinctFiles (t : FileTree) (paths : List String) : Prop where
  isFile : ∀ path ∈ paths, t.isFile path
  distinct : paths.Pairwise fun p q => t.locate? p ≠ t.locate? q

instance (t : FileTree) (paths : List String) : Decidable (t.DistinctFiles paths) :=
  decidable_of_iff
    ((∀ path ∈ paths, t.isFile path) ∧ paths.Pairwise fun p q => t.locate? p ≠ t.locate? q)
    ⟨fun ⟨hfile, hdistinct⟩ => ⟨hfile, hdistinct⟩, fun ⟨hfile, hdistinct⟩ => ⟨hfile, hdistinct⟩⟩

/-- The file that a path denotes in the end held the same content before. A path may lead nowhere
before, as long as directories are missing on its way. -/
def Kept (t t' : FileTree) (path : String) (c : Content) : Prop :=
  ∃ l, t'.locate? path = some l ∧ t.entry? l = some (.file c) ∧ t'.entry? l = some (.file c)

/-- What a run has done to a planned file, and what it records of it. -/
structure Settled (config : Config) (t t' : FileTree) (p : Planned) (a : Emitted) : Prop where
  path : a.path = p.path
  kind : a.kind = p.kind
  written : a.outcome = .written → t'.readText? p.path = some p.text
  unchanged : a.outcome = .unchanged →
    ∃ old, Kept t t' p.path (.text old) ∧ AgreeBelowHead old p.text
  preserved : a.outcome = .preserved →
    p.kind.isSkeleton ∧ config.overwriteSkeletons = false ∧ ∃ c, Kept t t' p.path c
  /-- A file of the user is not touched, unless that is wanted. -/
  skeleton : p.kind.isSkeleton → config.overwriteSkeletons = false → t.exists? p.path →
    t'.get? p.path = t.get? p.path
  /-- All other files are up to date. -/
  fresh : ¬ p.kind.isSkeleton → ∃ s, t'.readText? p.path = some s ∧ AgreeBelowHead s p.text

/-- Files remain distinct when more is written. -/
theorem DistinctFiles.of_writes {W : Location → String → Prop} {paths : List String}
    (h : t.DistinctFiles paths) (hw : Writes W t t') : t'.DistinctFiles paths := by
  have hlocate : ∀ path ∈ paths, t'.locate? path = t.locate? path := by
    intro path hpath
    obtain ⟨l, c, hl, -⟩ := isFile_iff.mp (h.isFile path hpath)
    rw [hl, hw.locate?_eq_some hl]
  refine ⟨fun path hpath => hw.isFile (h.isFile path hpath), ?_⟩
  refine h.distinct.imp_of_mem fun hp hq hne => ?_
  rwa [hlocate _ hp, hlocate _ hq]

/-! ## From one file to a run -/

/-- A path leads to something if there is an entry at its place. -/
theorem exists?_iff {path : String} :
    t.exists? path ↔ ∃ l e, t.locate? path = some l ∧ t.entry? l = some e := by
  rw [exists?, Option.isSome_iff_exists, get?]
  simp only [Option.bind_eq_some_iff]
  constructor
  · rintro ⟨e, l, hl, he⟩
    exact ⟨l, e, hl, he⟩
  · rintro ⟨l, e, hl, he⟩
    exact ⟨e, l, hl, he⟩

/-- A file is found. -/
theorem found_ne_nothing_of_isFile {path : String} (h : t.isFile path) :
    t.found path ≠ .nothing := by
  obtain ⟨l, c, hl, hc⟩ := isFile_iff.mp h
  exact found_ne_nothing.mpr (exists?_iff.mpr ⟨l, .file c, hl, hc⟩)

/-- A file is settled once it has been handled, if no later one takes its place. -/
theorem Settled.of_step {W : Location → String → Prop} {o : Outcome}
    (hstep : Step config p t (.ok o, t₁)) (hrest : Writes W t₁ t')
    (hW : ∀ l s, t'.locate? p.path = some l → ¬ W l s) (hfile : t'.isFile p.path) :
    Settled config t t' p ⟨p.path, p.kind, o⟩ := by
  have hkept {l : Location} {e : Entry} (hl : t₁.locate? p.path = some l)
      (he : t₁.entry? l = some e) : t'.locate? p.path = some l ∧ t'.entry? l = some e :=
    have hl' := hrest.locate?_eq_some hl
    ⟨hl', hrest.entry_of_untouched (fun s => hW l s hl') he⟩
  cases hstep with
  | @written l _ hdue hl htext hw =>
      obtain ⟨hl', htext'⟩ := hkept hl htext
      have hread : t'.readText? p.path = some p.text := readText?_eq_some.mpr ⟨l, hl', htext'⟩
      refine ⟨rfl, rfl, fun _ => hread, nofun, nofun, ?_, fun _ => ⟨p.text, hread, rfl⟩⟩
      intro hkind hover hexists
      rw [Planned.outcome_of_kept hkind hover (found_ne_nothing.mpr hexists)] at hdue
      cases hdue
  | left hdue hne =>
      rcases Planned.outcome_eq_ok hdue with rfl | ⟨rfl, old, hfound, hbody⟩ |
        ⟨rfl, hkind, hover, hfound⟩
      · exact absurd rfl hne
      · obtain ⟨l, hl, hold⟩ := readText?_eq_some.mp (found_eq_text.mp hfound)
        obtain ⟨hl', hold'⟩ := hkept hl hold
        refine ⟨rfl, rfl, nofun, fun _ => ⟨old, ⟨l, hl', hold, hold'⟩, hbody⟩, nofun, ?_,
          fun _ => ⟨old, readText?_eq_some.mpr ⟨l, hl', hold'⟩, hbody⟩⟩
        intro _ _ _
        rw [get?_of_locate? hl', get?_of_locate? hl, hold, hold']
      · obtain ⟨l, e, hl, he⟩ := exists?_iff.mp (found_ne_nothing.mp hfound)
        obtain ⟨hl', he'⟩ := hkept hl he
        obtain ⟨m, c, hm, hc⟩ := isFile_iff.mp hfile
        obtain rfl : l = m := Option.some.inj (hl'.symm.trans hm)
        obtain rfl : e = .file c := Option.some.inj (he'.symm.trans hc)
        refine ⟨rfl, rfl, nofun, nofun, fun _ => ⟨hkind, hover, c, l, hl', he, hc⟩, ?_,
          fun hskeleton => absurd hkind hskeleton⟩
        intro _ _ _
        rw [get?_of_locate? hl', get?_of_locate? hl, he, hc]

/-- What settles a file also settles it for a run that has handled others before. -/
theorem Settled.of_before {W : Location → String → Prop} (h : Settled config t₁ t' p a)
    (hw : Writes W t t₁) (hW : ∀ l s, t'.locate? p.path = some l → ¬ W l s)
    (hrest : ∀ l, t₁.locate? p.path = some l → t'.locate? p.path = some l) :
    Settled config t t' p a := by
  have hkept {c : Content} (hc : Kept t₁ t' p.path c) : Kept t t' p.path c := by
    obtain ⟨l, hl, hbefore, hafter⟩ := hc
    exact ⟨l, hl, hw.file_of_untouched (fun s => hW l s hl) hbefore, hafter⟩
  refine ⟨h.path, h.kind, h.written, ?_, ?_, ?_, h.fresh⟩
  · intro ha
    obtain ⟨old, hold, hbody⟩ := h.unchanged ha
    exact ⟨old, hkept hold, hbody⟩
  · intro ha
    obtain ⟨hkind, hover, c, hc⟩ := h.preserved ha
    exact ⟨hkind, hover, c, hkept hc⟩
  · intro hkind hover hexists
    obtain ⟨l, e, hl, he⟩ := exists?_iff.mp hexists
    have hl₁ := hw.locate?_eq_some hl
    have he₁ := hw.entry_of_untouched (fun s => hW l s (hrest l hl₁)) he
    rw [h.skeleton hkind hover (exists?_iff.mpr ⟨l, e, hl₁, he₁⟩), get?_of_locate? hl₁,
      get?_of_locate? hl, he, he₁]

/-- After a run over distinct files, all of them are settled. -/
theorem settled_writeAll {es : List Emitted} (h : t.writeAll config ps = (.ok es, t'))
    (hdistinct : t'.DistinctFiles (ps.map Planned.path)) :
    List.Forall₂ (Settled config t t') ps es := by
  induction ps generalizing t es with
  | nil =>
      cases h
      exact .nil
  | cons p ps ih =>
      obtain ⟨o, t₁, rest, hstep, hrest, rfl⟩ := writeAll_cons_eq_ok h
      have hwrites := writes_of_writeAll hrest
      obtain ⟨hp, hps⟩ := List.pairwise_cons.mp hdistinct.distinct
      have hfile := List.forall_mem_cons.mp hdistinct.isFile
      -- No later file has the place of the first one, and the first has none of theirs.
      refine .cons (.of_step hstep hwrites ?_ hfile.1) ?_
      · rintro l s hl ⟨q, hq, hql, -⟩
        exact hp q.path (List.mem_map_of_mem hq) (hl.trans hql.symm)
      · have hfiles : t'.DistinctFiles (ps.map Planned.path) := ⟨hfile.2, hps⟩
        have hothers : ∀ q ∈ ps, ∀ l, t'.locate? q.path = some l → t'.locate? p.path ≠ some l := by
          intro q hq l hl hpl
          exact hp q.path (List.mem_map_of_mem hq) (hpl.trans hl.symm)
        refine ((List.forall₂_and_left ps rest).mpr ⟨hothers, ih hrest hfiles⟩).imp ?_
        rintro q a ⟨hq, ha⟩
        cases hstep with
        | left => exact ha
        | written _ hl _ hw =>
            refine ha.of_before hw ?_ fun l hl => hwrites.locate?_eq_some hl
            rintro l s hql ⟨rfl, -⟩
            exact hq l hql (hwrites.locate?_eq_some hl)

/-! ## Success -/

variable {at_ : Timestamp} {input : String} {s : Summary}

/-- A run that succeeds has resolved its documents, made a plan and carried it out. -/
theorem generate_eq_ok (h : t.generate config at_ input = (.ok s, t')) :
    ∃ paths compiled planned, t.documents input = .ok paths ∧
      compile config (paths.map t.source) = .ok compiled ∧
      compiled.plan config (runContext config at_) = .ok planned ∧
      t.writeAll config planned = (.ok s.artifacts, t') ∧ s.order = compiled.order := by
  rcases generate_cases config at_ input t with
    ⟨e, heq, -⟩ | ⟨paths, compiled, planned, hpaths, hcompile, hplan, heq⟩
  · rw [heq] at h
    cases h
  · rw [heq] at h
    obtain ⟨hs, ht'⟩ := Prod.mk.inj h
    obtain ⟨es, hes, rfl⟩ := map_eq_ok hs
    exact ⟨paths, compiled, planned, hpaths, hcompile, hplan, Prod.ext hes ht', rfl⟩

/-- Two plans for the same classes have the same files, with the same bodies. -/
theorem sameBody_of_plans {later : Timestamp} {compiled : Compiled} {planned again : List Planned}
    (h : compiled.plan config (runContext config at_) = .ok planned)
    (h' : compiled.plan config (runContext config later) = .ok again) :
    List.Forall₂ Planned.SameBody planned again := by
  have hagree := agree_plan (newline_not_mem_generationComment at_)
    (newline_not_mem_generationComment later) config.project config compiled
  rw [runContext] at h h'
  rw [h, h'] at hagree
  cases hagree with
  | ok hsame => exact hsame

/-- Each planned file is recorded with what became of it, and no other file has changed. -/
theorem generate_settles (h : t.generate config at_ input = (.ok s, t'))
    (hdistinct : t'.DistinctFiles (s.artifacts.map Emitted.path)) :
    ∃ paths compiled planned, t.documents input = .ok paths ∧
      compile config (paths.map t.source) = .ok compiled ∧
      compiled.plan config (runContext config at_) = .ok planned ∧ s.order = compiled.order ∧
      List.Forall₂ (Settled config t t') planned s.artifacts ∧
      ∀ l, (∀ a ∈ s.artifacts, t'.locate? a.path ≠ some l) →
        ∀ c, t'.entry? l = some (.file c) ↔ t.entry? l = some (.file c) := by
  obtain ⟨paths, compiled, planned, hpaths, hcompile, hplan, hrun, horder⟩ := generate_eq_ok h
  refine ⟨paths, compiled, planned, hpaths, hcompile, hplan, horder,
    settled_writeAll hrun (map_path_of_writeAll hrun ▸ hdistinct), ?_⟩
  intro l hl c
  refine (writes_of_writeAll hrun).file_iff_of_untouched fun s hdue => ?_
  obtain ⟨a, ha, hal⟩ := hdue.recorded hrun
  exact hl a ha hal

/-- A class, and the header of it that its user has edited. -/
def edited : FileTree where
  entries := [("/doc", .directory), ("/doc/a.yaml", .file (.text "name: A\n")),
    ("/own", .directory), ("/own/include", .directory),
    ("/own/include/A.hpp", .file (.text "// edited\n"))]

/-- The files of the class go to one directory, those of its user to another. -/
def editedConfig : Config where
  project := "p"
  output := "out"
  skeletons := some "own"
  languages := [.cpp]
  registry := false

/-- The source of the class is out of date. -/
def staleSource (t : FileTree) : FileTree := t.set "/out/src/_A.cpp" (.file (.text "// stale\n"))

/-- What an earlier run has left, with a source that is out of date. -/
def stale : FileTree :=
  staleSource (edited.generate editedConfig ⟨2023, 12, 31, 0, 0, 0⟩ "doc").2

-- The texts are too long to be compared by computation. So the document and the places of the files
-- are computed, and what becomes of the files follows from the earlier run.

/-- The earlier run. A source that is out of date does not hide the document. -/
theorem exists_generate_edited :
    ∃ s t, edited.generate editedConfig ⟨2023, 12, 31, 0, 0, 0⟩ "doc" = (.ok s, t) ∧
      s.artifacts = [⟨"out/include/_A.hpp", .baseHeader, .written⟩,
        ⟨"out/src/_A.cpp", .baseSource, .written⟩,
        ⟨"own/include/A.hpp", .skeletonHeader, .preserved⟩,
        ⟨"own/src/A.cpp", .skeletonSource, .written⟩] ∧
      t.DistinctFiles (s.artifacts.map Emitted.path) ∧
      t.isDirectoryAt "/out/src/_A.cpp" = false ∧
      t.locate? "out/include/_A.hpp" ≠ some "/out/src/_A.cpp" ∧
      (∃ paths, edited.documents "doc" = .ok paths ∧ paths = ["doc/a.yaml"]) ∧
      (∃ paths, t.staleSource.documents "doc" = .ok paths ∧ paths = ["doc/a.yaml"]) ∧
      t.staleSource.found "doc/a.yaml" = edited.found "doc/a.yaml" := by
  decide +kernel

/-- A later run has a plan for the same files. What is there of the header agrees with it. -/
theorem exists_plan_stale : ∃ compiled header source userHeader userSource,
    stale.documents "doc" = .ok ["doc/a.yaml"] ∧
    compile editedConfig (["doc/a.yaml"].map stale.source) = .ok compiled ∧
    compiled.plan editedConfig (runContext editedConfig ⟨2024, 2, 29, 23, 59, 58⟩) = .ok
      [⟨"out/include/_A.hpp", .baseHeader, header⟩, ⟨"out/src/_A.cpp", .baseSource, source⟩,
        ⟨"own/include/A.hpp", .skeletonHeader, userHeader⟩,
        ⟨"own/src/A.cpp", .skeletonSource, userSource⟩] ∧
    ∃ old, stale.readText? "out/include/_A.hpp" = some old ∧ AgreeBelowHead old header := by
  obtain ⟨s, t, hrun, hartifacts, hdistinct, hfree, hplace, ⟨_, hedited, rfl⟩, ⟨_, hpaths, rfl⟩,
    hdocument⟩ := exists_generate_edited
  have hstale : stale = t.staleSource := by rw [stale, hrun]
  rw [← hstale] at hpaths hdocument
  obtain ⟨paths, compiled, planned, hpaths', hcompile, hplan, hwrite, -⟩ := generate_eq_ok hrun
  obtain rfl : paths = ["doc/a.yaml"] := Except.ok.inj (hpaths'.symm.trans hedited)
  obtain ⟨again, hagain⟩ := exists_plan hcompile (runContext editedConfig ⟨2024, 2, 29, 23, 59, 58⟩)
  have hsettled := settled_writeAll hwrite (map_path_of_writeAll hwrite ▸ hdistinct)
  have hbodies := sameBody_of_plans hplan hagain
  simp only [hartifacts, List.forall₂_cons_right_iff, List.forall₂_nil_right_iff] at hsettled
  obtain ⟨⟨_, _, old⟩, _, ⟨rfl, rfl, hwritten, -⟩, ⟨⟨_, _, _⟩, _, ⟨rfl, rfl, -⟩,
    ⟨⟨_, _, _⟩, _, ⟨rfl, rfl, -⟩, ⟨⟨_, _, _⟩, _, ⟨rfl, rfl, -⟩, rfl, rfl⟩, rfl⟩, rfl⟩, rfl⟩ :=
    hsettled
  simp only [List.forall₂_cons_left_iff, List.forall₂_nil_left_iff] at hbodies
  obtain ⟨⟨_, _, header⟩, _, ⟨rfl, rfl, hbody⟩, ⟨⟨_, _, source⟩, _, ⟨rfl, rfl, -⟩,
    ⟨⟨_, _, userHeader⟩, _, ⟨rfl, rfl, -⟩, ⟨⟨_, _, userSource⟩, _, ⟨rfl, rfl, -⟩, rfl, rfl⟩,
    rfl⟩, rfl⟩, rfl⟩ := hbodies
  refine ⟨compiled, header, source, userHeader, userSource, hpaths, ?_, hagain, old, ?_,
    agreeBelowHead_iff.mpr hbody⟩
  · rw [← hcompile, List.map_singleton, List.map_singleton, FileTree.source, FileTree.source,
      hdocument]
  · obtain ⟨l, hl, htext⟩ := readText?_eq_some.mp (hwritten rfl)
    have hw : Writes (Only "/out/src/_A.cpp" "// stale\n") t stale :=
      hstale ▸ writes_set hfree ⟨rfl, rfl⟩
    refine readText?_eq_some.mpr ⟨l, hw.locate?_eq_some hl, hw.entry_of_untouched ?_ htext⟩
    rintro _ ⟨rfl, -⟩
    exact hplace hl

/-- All files are in their places already, and the source can be written to its own. -/
theorem places_stale :
    stale.DistinctFiles ["out/include/_A.hpp", "out/src/_A.cpp", "own/include/A.hpp",
      "own/src/A.cpp"] ∧
    stale.found "out/src/_A.cpp" = .text "// stale\n" ∧
    ∃ u t, stale.makeParent "out/src/_A.cpp" = (.ok u, t) ∧ t.isFile "out/src/_A.cpp" = true := by
  decide +kernel

/-- The run on this tree. -/
theorem exists_generate_stale :
    ∃ s t', stale.generate editedConfig ⟨2024, 2, 29, 23, 59, 58⟩ "doc" = (.ok s, t') ∧
      t'.DistinctFiles (s.artifacts.map Emitted.path) ∧
      s.artifacts = [⟨"out/include/_A.hpp", .baseHeader, .unchanged⟩,
        ⟨"out/src/_A.cpp", .baseSource, .written⟩,
        ⟨"own/include/A.hpp", .skeletonHeader, .preserved⟩,
        ⟨"own/src/A.cpp", .skeletonSource, .preserved⟩] := by
  obtain ⟨compiled, header, source, userHeader, userSource, hpaths, hcompile, hplan, old, hold,
    hagree⟩ := exists_plan_stale
  obtain ⟨hdistinct, hsource, _, t, hparent, hfile⟩ := places_stale
  have hfirst : Planned.outcome editedConfig ⟨"out/include/_A.hpp", .baseHeader, header⟩
      (stale.found "out/include/_A.hpp") = .ok .unchanged := by
    rw [found_eq_text.mpr hold, Planned.outcome_text rfl, if_pos (sameBody_iff.mpr hagree)]
  have hsecond : Planned.outcome editedConfig ⟨"out/src/_A.cpp", .baseSource, source⟩
      (stale.found "out/src/_A.cpp") = .ok .written := by
    have hdiffer : ¬ sameBody "// stale\n" source := by
      rw [sameBody_iff, agreeBelowHead_iff]
      exact fun h => body_of_plan hplan _ (List.mem_cons_of_mem _ List.mem_cons_self) h.symm
    rw [hsource, Planned.outcome_text rfl, if_neg hdiffer]
  obtain ⟨l, t', hput, hw⟩ := exists_put hparent hfile source
  have hdistinct' := hdistinct.of_writes hw
  have huser (path : String) (kind : ArtifactKind) (text : String) (hkind : kind.isSkeleton)
      (hpath : path ∈ ["out/include/_A.hpp", "out/src/_A.cpp", "own/include/A.hpp",
        "own/src/A.cpp"]) :
      t'.writePlanned editedConfig ⟨path, kind, text⟩ = (.ok .preserved, t') :=
    writePlanned_of_left (Planned.outcome_of_kept hkind rfl
      (found_ne_nothing_of_isFile (hdistinct'.isFile path hpath))) nofun
  have hrest : t'.writeAll editedConfig [⟨"own/include/A.hpp", .skeletonHeader, userHeader⟩,
      ⟨"own/src/A.cpp", .skeletonSource, userSource⟩] = (.ok _, t') :=
    writeAll_cons_of_ok (huser _ _ _ rfl (by simp))
      (writeAll_cons_of_ok (huser _ _ _ rfl (by simp)) rfl)
  have hwrite := writeAll_cons_of_ok (writePlanned_of_left hfirst nofun) (writeAll_cons_of_ok
    ((writePlanned_of_due hsecond).trans (run_bind_ok ((run_put _ _ _).trans hput) _)) hrest)
  refine ⟨⟨compiled.order, _⟩, t', ?_, ?_, rfl⟩
  · rw [generate_of_plan hpaths hcompile hplan, hwrite]
    rfl
  · exact hdistinct'

/-- The stale source is replaced, the header is left although it has been generated at another time,
and what belongs to the user is left as well. -/
theorem generate_stale :
    ∃ s t', stale.generate editedConfig ⟨2024, 2, 29, 23, 59, 58⟩ "doc" = (.ok s, t') ∧
      t'.DistinctFiles (s.artifacts.map Emitted.path) ∧
      s.artifacts = [⟨"out/include/_A.hpp", .baseHeader, .unchanged⟩,
        ⟨"out/src/_A.cpp", .baseSource, .written⟩,
        ⟨"own/include/A.hpp", .skeletonHeader, .preserved⟩,
        ⟨"own/src/A.cpp", .skeletonSource, .preserved⟩] ∧
      ∃ paths compiled planned, stale.documents "doc" = .ok paths ∧
        compile editedConfig (paths.map stale.source) = .ok compiled ∧
        compiled.plan editedConfig (runContext editedConfig ⟨2024, 2, 29, 23, 59, 58⟩)
          = .ok planned ∧ s.order = compiled.order ∧
        List.Forall₂ (Settled editedConfig stale t') planned s.artifacts ∧
        ∀ l, (∀ a ∈ s.artifacts, t'.locate? a.path ≠ some l) →
          ∀ c, t'.entry? l = some (.file c) ↔ stale.entry? l = some (.file c) := by
  obtain ⟨s, t', hrun, hdistinct, hartifacts⟩ := exists_generate_stale
  exact ⟨s, t', hrun, hdistinct, hartifacts, generate_settles hrun hdistinct⟩

/-! ## Failure -/

variable {e : Generate.Error}

/-- A file is where the directory of the sources should be. -/
def blocked : FileTree :=
  (edited.set "/out" .directory).set "/out/src" (.file (.text ""))

end FileTree

end ClassSchema
