import ClassSchema.Proofs.Artifact.Head
import ClassSchema.Proofs.FileTree.Documents
import ClassSchema.Proofs.Generate.Effect

/-! # Running again

A second run finds the same documents, since no generated file is named like one, and plans the same
files up to their heads. What the first run left behind has the bodies that are planned, so nothing
is written. -/

namespace ClassSchema

namespace Generate

open ClassSchema.Path

variable {config : Config} {context : Artifact.Context}

/-! ## Names of planned files -/

/-- The path ends like those of its kind. -/
def Planned.Ends (p : Planned) : Prop := ∃ stem, p.path = stem ++ ("." ++ p.kind.ending)

/-- All planned files are named like files of their kind. -/
theorem ends_of_plan {compiled : Compiled} {planned : List Planned}
    (h : compiled.plan config context = .ok planned) : ∀ p ∈ planned, p.Ends := by
  intro p hp
  have hmem : (p.kind, p.path) ∈ planned.map fun p => (p.kind, p.path) := List.mem_map_of_mem hp
  rw [files_of_plan h] at hmem
  obtain ⟨⟨kind, name⟩, -, hfile⟩ := List.mem_filterMap.mp hmem
  obtain ⟨path, hpath, heq⟩ := Option.map_eq_some_iff.mp hfile
  obtain ⟨dir, rfl, -⟩ := eq_join_of_path? hpath
  obtain ⟨hkind, hpath⟩ := Prod.mk.inj heq
  obtain ⟨stem, hstem⟩ := kind.exists_path_eq name
  obtain ⟨lead, hlead⟩ := exists_join_eq dir (kind.path name)
  refine ⟨lead ++ stem, ?_⟩
  rw [← hpath, ← hkind, hlead, hstem, String.append_assoc]

/-- A name with the ending of a generated file is not that of a document. -/
theorem isDocumentName_of_ending {stem : String} {kind : ArtifactKind}
    (hname : IsName (stem ++ ("." ++ kind.ending)))
    (hslash : '/' ∉ (stem ++ ("." ++ kind.ending)).toList) :
    isDocumentName (stem ++ ("." ++ kind.ending)) = false := by
  have hdot : '.' ∉ kind.ending.toList := by cases kind <;> decide
  have hcut : Text.cutLast? "." (stem ++ ("." ++ kind.ending)) = some (stem, kind.ending) := by
    have hsep : ".".toList = [] ++ ['.'] := rfl
    have hlist : (stem ++ ("." ++ kind.ending)).toList
        = stem.toList ++ ([] ++ ['.']) ++ kind.ending.toList := by simp
    rw [Text.cutLast?, hlist, hsep, Chars.cutLast?_append [] stem.toList hdot]
    simp
  have hpieces : pieces (stem ++ ("." ++ kind.ending)) = [] ++ [stem ++ ("." ++ kind.ending)] :=
    pieces_of_free hslash
  rw [isDocumentName, fileExtension?, fileName?_of_isName hpieces hname, Option.bind_some, hcut]
  dsimp only
  split
  · rfl
  · cases kind <;> rfl

end Generate

namespace FileTree

open Generate ClassSchema.Path

variable {config : Config} {planned : List Planned} {t t' : FileTree}

/-- No planned file takes the place of a document, or of what could become one. -/
theorem aside_due (hends : ∀ p ∈ planned, p.Ends) (hfile : ∀ p ∈ planned, t.isFile p.path) :
    Aside (Due planned t) := by
  rintro l s ⟨p, hp, hl, -⟩
  obtain ⟨stem, hstem⟩ := hends p hp
  obtain ⟨steps, last, hpieces, hslash⟩ := exists_pieces_eq stem
  have hending : '/' ∉ ("." ++ p.kind.ending).toList := by cases p.kind <;> decide
  have hpath := pieces_append_free hpieces hending
  rw [← hstem] at hpath
  have hfree : '/' ∉ (last ++ ("." ++ p.kind.ending)).toList := by
    rw [String.toList_append, List.mem_append]
    exact not_or.mpr ⟨hslash, hending⟩
  rcases locate?_cases hl hpath with ⟨hname, dir, rfl⟩ | hdir | hup
  · exact ⟨dir, _, rfl, hfree, isDocumentName_of_ending hname hfree⟩
  · obtain ⟨m, c, hm, hc⟩ := isFile_iff.mp (hfile p hp)
    obtain rfl := Option.some.inj (hl.symm.trans hm)
    exact absurd hdir (not_isDirectoryAt_of_file hc)
  · have hlength := congrArg String.length hup
    have hfour : ("." ++ p.kind.ending).length = 4 := by cases p.kind <;> rfl
    have htwo : "..".length = 2 := rfl
    rw [String.length_append, hfour, htwo] at hlength
    omega

/-- A document whose place is not written to is read as before. -/
theorem Writes.source_eq {W : Location → String → Prop} {path : String} (h : Writes W t t')
    (hfile : t.isFile path) (hW : ∀ l s, t'.locate? path = some l → ¬ W l s) :
    t'.source path = t.source path := by
  obtain ⟨l, c, hl, hc⟩ := isFile_iff.mp hfile
  have hl' := h.locate?_eq_some hl
  have hc' := h.entry_of_untouched (fun s => hW l s hl') hc
  rw [source, source, found, found, get?_of_locate? hl, get?_of_locate? hl', hc, hc']

/-! ## Nothing is left to write -/

/-- A file whose text agrees with the planned one below the head is not written. -/
theorem outcome_of_agree {p : Planned} {old : String} (hold : t.readText? p.path = some old)
    (hagree : AgreeBelowHead old p.text) :
    ∃ o, p.outcome config (t.found p.path) = .ok o ∧ o ≠ .written := by
  rw [found_eq_text.mpr hold]
  by_cases hkept : p.kind.isSkeleton = true ∧ config.overwriteSkeletons = false
  · exact ⟨.preserved, Planned.outcome_of_kept hkept.1 hkept.2 nofun, nofun⟩
  · refine ⟨.unchanged, ?_, nofun⟩
    rw [Planned.outcome_of_not_kept fun h => hkept ⟨h.1, h.2.1⟩, outcome,
      if_pos (sameBody_iff.mpr hagree)]

/-- What has been settled need not be written again, whatever its head. -/
theorem Settled.outcome {p q : Planned} {a : Emitted} (h : Settled config t t' p a)
    (hpq : p.SameBody q) : ∃ o, q.outcome config (t'.found q.path) = .ok o ∧ o ≠ .written := by
  have hagree : AgreeBelowHead p.text q.text := agreeBelowHead_iff.mpr hpq.body
  cases ha : a.outcome with
  | written =>
      exact outcome_of_agree (hpq.path ▸ h.written ha) hagree
  | unchanged =>
      obtain ⟨old, ⟨l, hl, -, hold⟩, hold_agree⟩ := h.unchanged ha
      rw [hpq.path] at hl
      exact outcome_of_agree (readText?_eq_some.mpr ⟨l, hl, hold⟩) (hold_agree.trans hagree)
  | preserved =>
      obtain ⟨hkind, hover, c, l, hl, -, hc⟩ := h.preserved ha
      rw [hpq.kind] at hkind
      rw [hpq.path] at hl
      have hfound := found_ne_nothing.mpr (exists?_iff.mpr ⟨l, _, hl, hc⟩)
      exact ⟨.preserved, Planned.outcome_of_kept hkind hover hfound, nofun⟩

/-- A run over files that are all settled writes none of them. -/
theorem writeAll_of_settled {again : List Planned} {es : List Emitted}
    (h : List.Forall₂ (Settled config t t') planned es)
    (hsame : List.Forall₂ Planned.SameBody planned again) :
    ∃ es', t'.writeAll config again = (.ok es', t') ∧
      es'.map (fun a => (a.path, a.kind)) = es.map (fun a => (a.path, a.kind)) ∧
      ∀ a ∈ es', a.outcome ≠ .written := by
  induction h generalizing again with
  | nil =>
      cases hsame
      exact ⟨[], rfl, rfl, by simp⟩
  | @cons p a ps as ha _ ih =>
      cases hsame with
      | @cons _ q _ qs hpq hpqs =>
          obtain ⟨es', hrun, hmap, hleft⟩ := ih hpqs
          obtain ⟨o, ho, hne⟩ := ha.outcome hpq
          refine ⟨⟨q.path, q.kind, o⟩ :: es', ?_, ?_, List.forall_mem_cons.mpr ⟨hne, hleft⟩⟩
          · exact writeAll_cons_of_ok (writePlanned_of_left ho hne) hrun
          · rw [List.map_cons, List.map_cons, hmap, ha.path, ha.kind, hpq.path, hpq.kind]

variable {at_ : Timestamp} {input : String} {s : Summary}

/-- A run that is repeated at any time finds all files as it would leave them. -/
theorem generate_again (h : t.generate config at_ input = (.ok s, t'))
    (hdistinct : t'.DistinctFiles (s.artifacts.map Emitted.path))
    (hinput : ∀ paths, t.documents input = .ok paths →
      ∀ path ∈ paths, ∀ a ∈ s.artifacts, t'.locate? a.path ≠ t'.locate? path)
    (later : Timestamp) :
    ∃ s', t'.generate config later input = (.ok s', t') ∧ s'.order = s.order ∧
      s'.artifacts.map (fun a => (a.path, a.kind)) = s.artifacts.map (fun a => (a.path, a.kind)) ∧
      ∀ a ∈ s'.artifacts, a.outcome ≠ .written := by
  obtain ⟨paths, compiled, planned, hpaths, hcompile, hplan, hrun, horder⟩ := generate_eq_ok h
  have hwrites := writes_of_writeAll hrun
  rw [map_path_of_writeAll hrun] at hdistinct
  -- The second run reads the same documents.
  have hfile : ∀ p ∈ planned, t'.isFile p.path := fun p hp =>
    hdistinct.isFile p.path (List.mem_map_of_mem hp)
  have hpaths' : t'.documents input = .ok paths :=
    documents_of_writes hwrites (aside_due (ends_of_plan hplan) hfile) hpaths
  have hsources : paths.map t'.source = paths.map t.source := by
    refine List.map_congr_left fun path hpath => ?_
    refine hwrites.source_eq (isFile_of_mem_documents hpaths path hpath) ?_
    intro l _ hl hdue
    obtain ⟨a, ha, hal⟩ := hdue.recorded hrun
    exact hinput paths hpaths path hpath a ha (hal.trans hl.symm)
  -- It plans the same files, up to their heads.
  obtain ⟨again, hplan'⟩ := exists_plan hcompile (runContext config later)
  obtain ⟨es, hes, hrecorded, hleft⟩ :=
    writeAll_of_settled (settled_writeAll hrun hdistinct) (sameBody_of_plans hplan hplan')
  refine ⟨⟨compiled.order, es⟩, ?_, horder.symm, hrecorded, hleft⟩
  rw [← hsources] at hcompile
  rw [generate_of_plan hpaths' hcompile hplan', hes]
  rfl

/-- On the next day nothing is written. -/
theorem generate_edited_again :
    ∃ s t', edited.generate editedConfig ⟨2024, 2, 29, 23, 59, 58⟩ "doc" = (.ok s, t') ∧
      t'.DistinctFiles (s.artifacts.map Emitted.path) ∧
      (∀ paths, edited.documents "doc" = .ok paths → ∀ path ∈ paths,
        ∀ a ∈ s.artifacts, t'.locate? a.path ≠ t'.locate? path) ∧
      ∃ s', t'.generate editedConfig ⟨2024, 3, 1, 0, 0, 0⟩ "doc" = (.ok s', t') ∧
        s'.order = s.order ∧
        s'.artifacts.map (fun a => (a.path, a.kind)) = s.artifacts.map (fun a => (a.path, a.kind)) ∧
        ∀ a ∈ s'.artifacts, a.outcome ≠ .written := by
  obtain ⟨s, t', hrun, hdistinct, hinput⟩ :
      ∃ s t', edited.generate editedConfig ⟨2024, 2, 29, 23, 59, 58⟩ "doc" = (.ok s, t') ∧
        t'.DistinctFiles (s.artifacts.map Emitted.path) ∧
        ∀ paths, edited.documents "doc" = .ok paths → ∀ path ∈ paths,
          ∀ a ∈ s.artifacts, t'.locate? a.path ≠ t'.locate? path := by
    decide +kernel
  exact ⟨s, t', hrun, hdistinct, hinput, generate_again hrun hdistinct hinput _⟩

end FileTree

end ClassSchema
