import Mathlib.Data.List.Forall2
import ClassSchema.Generate
import ClassSchema.Proofs.Computation
import ClassSchema.Proofs.FileTree.Writes
import ClassSchema.Proofs.Text.Cut

/-! # Writing planned files

What a single file does to the tree is said once (`Step`); what a run does follows from it. -/

namespace ClassSchema

namespace Generate

variable {config : Config} {p : Planned} {found : Found} {o : Outcome}

/-- The texts are the same from their fourth line on, where a line ends at each newline. -/
def AgreeBelowHead (a b : String) : Prop :=
  (a.toList.splitOn '\n').drop 3 = (b.toList.splitOn '\n').drop 3

/-- The body of a text is what comes after its first three lines. -/
theorem body_eq (s : String) : body s = (s.toList.splitOn '\n').drop 3 := by
  rw [body, Chars.split_eq_splitOnP, List.splitOn_eq_splitOnP]

/-- Two texts agree below their heads if they have the same body. -/
theorem agreeBelowHead_iff {a b : String} : AgreeBelowHead a b ↔ body a = body b := by
  rw [AgreeBelowHead, body_eq, body_eq]

/-- This is what is compared before a file is written. -/
theorem sameBody_iff {a b : String} : sameBody a b ↔ AgreeBelowHead a b := by
  rw [agreeBelowHead_iff]
  exact beq_iff_eq

/-! ## What becomes of a file -/

/-- A file that is not written is there, and agrees with what is planned. -/
theorem outcome_eq_ok {path text : String} (h : outcome path text found = .ok o) :
    o = .written ∨ (o = .unchanged ∧ ∃ old, found = .text old ∧ AgreeBelowHead old text) := by
  cases found with
  | nothing => exact .inl (Except.ok.inj h).symm
  | directory => exact .inl (Except.ok.inj h).symm
  | binary => cases h
  | text old =>
      have ho := Except.ok.inj h
      split at ho
      · rename_i hsame
        exact .inr ⟨ho.symm, old, rfl, sameBody_iff.mp hsame⟩
      · exact .inl ho.symm

/-- It is the path of the file that cannot be used. -/
theorem outcome_eq_error {path text : String} {e : Error} (h : outcome path text found = .error e) :
    ∃ fault, e = .io path fault := by
  cases found with
  | nothing => cases h
  | directory => cases h
  | text old => cases h
  | binary => exact ⟨_, (Except.error.inj h).symm⟩

namespace Planned

/-- A skeleton that is there belongs to the user, unless it is to be overwritten. -/
theorem outcome_of_kept (hkind : p.kind.isSkeleton = true)
    (hover : config.overwriteSkeletons = false) (hfound : found ≠ .nothing) :
    p.outcome config found = .ok .preserved := by
  simp [outcome, skeletonOutcome, hkind, hover, hfound]

/-- In all other cases the two policies agree. -/
theorem outcome_of_not_kept (h : ¬ (p.kind.isSkeleton = true ∧ config.overwriteSkeletons = false ∧
    found ≠ .nothing)) : p.outcome config found = Generate.outcome p.path p.text found := by
  unfold outcome
  split
  · rename_i hkind
    rw [skeletonOutcome, if_neg]
    rintro hkept
    simp only [ne_eq, Bool.and_eq_true, decide_eq_true_eq, Bool.not_eq_eq_eq_not, Bool.not_true]
      at hkept
    exact h ⟨hkind, hkept.2, hkept.1⟩
  · rfl

/-- A generated file is written if the text that is there does not agree with the planned one. -/
theorem outcome_text (hkind : p.kind.isSkeleton = false) (old : String) :
    p.outcome config (.text old) = .ok (if sameBody old p.text then .unchanged else .written) := by
  rw [outcome, hkind]
  rfl

/-- There are three outcomes, and two of them need a reason. -/
theorem outcome_eq_ok (h : p.outcome config found = .ok o) :
    o = .written ∨ (o = .unchanged ∧ ∃ old, found = .text old ∧ AgreeBelowHead old p.text) ∨
    (o = .preserved ∧ p.kind.isSkeleton = true ∧ config.overwriteSkeletons = false ∧
      found ≠ .nothing) := by
  by_cases hkept : p.kind.isSkeleton = true ∧ config.overwriteSkeletons = false ∧ found ≠ .nothing
  · obtain ⟨hkind, hover, hfound⟩ := hkept
    rw [outcome_of_kept hkind hover hfound] at h
    exact .inr (.inr ⟨(Except.ok.inj h).symm, hkind, hover, hfound⟩)
  · rw [outcome_of_not_kept hkept] at h
    rcases Generate.outcome_eq_ok h with hwritten | hunchanged
    · exact .inl hwritten
    · exact .inr (.inl hunchanged)

theorem outcome_eq_error {e : Error} (h : p.outcome config found = .error e) :
    ∃ fault, e = .io p.path fault := by
  by_cases hkept : p.kind.isSkeleton = true ∧ config.overwriteSkeletons = false ∧ found ≠ .nothing
  · rw [outcome_of_kept hkept.1 hkept.2.1 hkept.2.2] at h
    cases h
  · rw [outcome_of_not_kept hkept] at h
    exact Generate.outcome_eq_error h

end Planned

end Generate

namespace FileTree

open Generate

variable {config : Config} {p : Planned} {ps : List Planned} {t t' t'' : FileTree}

/-! ## Runs on a tree -/

section Run

variable {α β : Type} {x : Run α}

/-- After a failure nothing more is done. -/
theorem run_bind_error {e : Generate.Error} (h : t.run x = (.error e, t')) (f : α → Run β) :
    t.run (x >>= f) = (.error e, t') := by
  change (ExceptT.bindCont f (t.run x).1).run (t.run x).2 = _
  rw [h]
  rfl

/-- What comes next starts with the tree that is left. -/
theorem run_bind_ok {a : α} (h : t.run x = (.ok a, t')) (f : α → Run β) :
    t.run (x >>= f) = t'.run (f a) := by
  change (ExceptT.bindCont f (t.run x).1).run (t.run x).2 = _
  rw [h]
  rfl

theorem run_put (path text : String) (t : FileTree) :
    t.run (files.put path text) = t.put path text := rfl

/-- To read documents changes nothing. -/
theorem run_mapM_source (paths : List String) (t : FileTree) :
    t.run (paths.mapM files.source) = (.ok (paths.map t.source), t) := by
  induction paths with
  | nil => rfl
  | cons path paths ih =>
      have hpath : t.run (files.source path) = (.ok (t.source path), t) := rfl
      rw [List.mapM_cons, run_bind_ok hpath, run_bind_ok ih]
      rfl

/-- A plan that could be made is carried out. -/
theorem writePlan_ok (config : Config) (ps : List Planned) (t : FileTree) :
    t.writePlan config (.ok ps) = t.writeAll config ps := rfl

/-- A text is only put into a file that is to be written. -/
theorem run_settle (path text : String) {o : Outcome} (ho : o ≠ .written) (t : FileTree) :
    t.run (files.settle path text (.ok o)) = (.ok o, t) := by
  cases o with
  | written => exact absurd rfl ho
  | unchanged => rfl
  | preserved => rfl

end Run

/-! ## What is found at a path -/

/-- A path leads to a text if there is a file with it at its place. -/
theorem readText?_eq_some {path s : String} :
    t.readText? path = some s ↔
      ∃ l, t.locate? path = some l ∧ t.entry? l = some (.file (.text s)) := by
  rw [← Option.bind_eq_some_iff]
  unfold readText? get?
  split
  · simp [*]
  · rename_i hother
    simpa using hother s

/-- A text is found if it can be read. -/
theorem found_eq_text {path s : String} :
    t.found path = .text s ↔ t.readText? path = some s := by
  unfold found readText?
  split <;> simp [*]

/-- Something is found if the path leads to something. -/
theorem found_ne_nothing {path : String} : t.found path ≠ .nothing ↔ t.exists? path := by
  unfold found exists?
  split <;> simp [*]

/-! ## One file -/

/-- One text, for one place. -/
def Only (l : Location) (s : String) (m : Location) (r : String) : Prop := m = l ∧ r = s

/-- No text for any place. -/
def Nowhere (_ : Location) (_ : String) : Prop := False

theorem Writes.of_nowhere {W : Location → String → Prop} (h : Writes Nowhere t t') :
    Writes W t t' :=
  h.mono fun _ _ hnone => hnone.elim

/-- To see to the directory of a file puts no text anywhere. -/
theorem writes_makeParent {W : Location → String → Prop} (path : String) (t : FileTree) :
    Writes W t (t.makeParent path).2 := by
  unfold makeParent
  split
  · exact .refl t
  · rename_i parent hparent
    have hw := writes_createDirectories (W := W) parent t
    split <;> simpa [*] using hw

/-- If that fails, a path cannot be used. -/
theorem makeParent_eq_error {path : String} {e : Generate.Error}
    (h : t.makeParent path = (.error e, t')) : ∃ parent fault, e = .io parent fault := by
  unfold makeParent at h
  split at h
  · cases h
  · split at h <;> cases h
    exact ⟨_, _, rfl⟩

/-- A text is put at the place to which the path leads in the end, or the attempt fails. -/
theorem put_cases (path text : String) (t : FileTree) :
    (∃ l t', t.put path text = (.ok (), t') ∧ t'.locate? path = some l ∧
      t'.entry? l = some (.file (.text text)) ∧ Writes (Only l text) t t') ∨
    (∃ place fault t', t.put path text = (.error (.io place fault), t') ∧
      Writes Nowhere t t') := by
  rw [put]
  rcases hparent : t.makeParent path with ⟨r, t₁⟩
  have hw {W : Location → String → Prop} : Writes W t t₁ := by
    simpa [hparent] using writes_makeParent (W := W) path t
  cases r with
  | error e =>
      obtain ⟨place, fault, rfl⟩ := makeParent_eq_error hparent
      exact .inr ⟨place, fault, t₁, rfl, hw⟩
  | ok u =>
      dsimp only
      cases hl : t₁.locate? path with
      | none => exact .inr ⟨_, _, t₁, by rw [write, hl], hw⟩
      | some l =>
          cases hdir : t₁.isDirectoryAt l with
          | true => exact .inr ⟨path, .blocked .isDirectory, t₁, by simp [write, hl, hdir], hw⟩
          | false =>
              have hset : Writes (Only l text) t₁ (t₁.set l (.file (.text text))) :=
                writes_set hdir ⟨rfl, rfl⟩
              have hroot : l ≠ .root := by
                rintro rfl
                simp [isDirectoryAt] at hdir
              exact .inl ⟨l, t₁.set l (.file (.text text)), by simp [write, hl, hdir],
                hset.locate?_eq_some hl, entry?_set_self hroot _ _, hw.trans hset⟩

/-- A text can be put into a file that is there, once its directory has been seen to. -/
theorem exists_put {path : String} {u : Unit} (hparent : t.makeParent path = (.ok u, t'))
    (hfile : t'.isFile path) (text : String) :
    ∃ l t'', t.put path text = (.ok (), t'') ∧ Writes (Only l text) t t'' := by
  rcases put_cases path text t with ⟨l, t'', hput, -, -, hw⟩ | ⟨place, fault, t'', hput, -⟩
  · exact ⟨l, t'', hput, hw⟩
  · obtain ⟨l, c, hl, hc⟩ := isFile_iff.mp hfile
    rw [put, hparent] at hput
    simp [write, hl, not_isDirectoryAt_of_file hc] at hput

/-- A file that need not be written is left, and with it the tree. -/
theorem writePlanned_of_left {o : Outcome} (ho : p.outcome config (t.found p.path) = .ok o)
    (hne : o ≠ .written) : t.writePlanned config p = (.ok o, t) := by
  change t.run (files.settle p.path p.text (p.outcome config (t.found p.path))) = _
  rw [ho, run_settle _ _ hne]

/-- To write a file is to put its text there. -/
theorem writePlanned_of_due (ho : p.outcome config (t.found p.path) = .ok .written) :
    t.writePlanned config p
      = t.run (files.put p.path p.text >>= fun _ => return Outcome.written) := by
  change t.run (files.settle p.path p.text (p.outcome config (t.found p.path))) = _
  rw [ho]
  rfl

/-- All that writing a planned file can do. -/
inductive Step (config : Config) (p : Planned) (t : FileTree) :
    Except Generate.Error Outcome × FileTree → Prop
  | written {l : Location} {t' : FileTree} (due : p.outcome config (t.found p.path) = .ok .written)
      (place : t'.locate? p.path = some l) (text : t'.entry? l = some (.file (.text p.text)))
      (writes : Writes (Only l p.text) t t') : Step config p t (.ok .written, t')
  | left {o : Outcome} (due : p.outcome config (t.found p.path) = .ok o) (ne : o ≠ .written) :
      Step config p t (.ok o, t)
  | failed {place : String} {fault : PathFault} {t' : FileTree} (writes : Writes Nowhere t t') :
      Step config p t (.error (.io place fault), t')

/-- A planned file is written or left, or it cannot be written. -/
theorem step_writePlanned (config : Config) (p : Planned) (t : FileTree) :
    Step config p t (t.writePlanned config p) := by
  cases hdue : p.outcome config (t.found p.path) with
  | error e =>
      obtain ⟨fault, rfl⟩ := Planned.outcome_eq_error hdue
      change Step config p t
        (t.run (files.settle p.path p.text (p.outcome config (t.found p.path))))
      rw [hdue]
      exact .failed (.refl t)
  | ok o =>
      by_cases ho : o = .written
      · subst ho
        rw [writePlanned_of_due hdue]
        rcases put_cases p.path p.text t with
          ⟨l, t', hput, hl, htext, hw⟩ | ⟨place, fault, t', hput, hw⟩
        · rw [run_bind_ok ((run_put _ _ t).trans hput)]
          exact .written hdue hl htext hw
        · rw [run_bind_error ((run_put _ _ t).trans hput)]
          exact .failed hw
      · rw [writePlanned_of_left hdue ho]
        exact .left hdue ho

/-! ## A run -/

/-- A run is recorded file by file. -/
theorem writeAll_cons_of_ok {o : Outcome} {es : List Emitted}
    (hp : t.writePlanned config p = (.ok o, t')) (hps : t'.writeAll config ps = (.ok es, t'')) :
    t.writeAll config (p :: ps) = (.ok (⟨p.path, p.kind, o⟩ :: es), t'') :=
  (run_bind_ok hp _).trans (run_bind_ok hps _)

/-- The texts that planned files have for a place. -/
def Due (ps : List Planned) (t : FileTree) (l : Location) (s : String) : Prop :=
  ∃ p ∈ ps, t.locate? p.path = some l ∧ p.text = s

theorem Due.cons {l : Location} {s : String} (h : Due ps t l s) : Due (p :: ps) t l s := by
  obtain ⟨q, hq, hplace⟩ := h
  exact ⟨q, List.mem_cons_of_mem p hq, hplace⟩

/-- A run starts with its first file, and goes on unless that fails. -/
theorem writeAll_cons_cases (config : Config) (p : Planned) (ps : List Planned) (t : FileTree) :
    (∃ place fault t₁, Writes Nowhere t t₁ ∧
      t.writeAll config (p :: ps) = (.error (.io place fault), t₁)) ∨
    (∃ o t₁, Step config p t (.ok o, t₁) ∧ t.writeAll config (p :: ps) =
      ((t₁.writeAll config ps).1.map (⟨p.path, p.kind, o⟩ :: ·), (t₁.writeAll config ps).2)) := by
  have hstep := step_writePlanned config p t
  rcases hp : t.writePlanned config p with ⟨r, t₁⟩
  rw [hp] at hstep
  cases r with
  | error e =>
      cases hstep with
      | failed hw => exact .inl ⟨_, _, t₁, hw, run_bind_error hp _⟩
  | ok o =>
      refine .inr ⟨o, t₁, hstep, (run_bind_ok hp _).trans ?_⟩
      change t₁.run (files.writeAll config ps >>= fun rest =>
        return ⟨p.path, p.kind, o⟩ :: rest) = _
      rcases hps : t₁.writeAll config ps with ⟨r, t₂⟩
      cases r with
      | error e => exact run_bind_error hps _
      | ok es => exact run_bind_ok hps _

/-- Whether a run succeeds or not, it only puts texts of planned files at their places. -/
theorem writes_writeAll (config : Config) (ps : List Planned) (t : FileTree) :
    Writes (Due ps (t.writeAll config ps).2) t (t.writeAll config ps).2 := by
  induction ps generalizing t with
  | nil => exact .refl t
  | cons p ps ih =>
      rcases writeAll_cons_cases config p ps t with
        ⟨place, fault, t₁, hw, heq⟩ | ⟨o, t₁, hstep, heq⟩
      · rw [heq]
        exact hw.of_nowhere
      · rw [heq]
        have hrest := ih t₁
        have hrun : Writes (Due (p :: ps) (t₁.writeAll config ps).2) t₁ (t₁.writeAll config ps).2 :=
          hrest.mono fun _ _ => Due.cons
        cases hstep with
        | left => exact hrun
        | written _ hl _ hw =>
            -- The place of the first file stays its place until the end.
            refine Writes.trans (hw.mono ?_) hrun
            rintro _ _ ⟨rfl, rfl⟩
            exact ⟨p, List.mem_cons_self, hrest.locate?_eq_some hl, rfl⟩

/-- The tree after a run, in terms of its result. -/
theorem writes_of_writeAll {r : Except Generate.Error (List Emitted)}
    (h : t.writeAll config ps = (r, t')) : Writes (Due ps t') t t' := by
  simpa only [h] using writes_writeAll config ps t

/-- A run that succeeds has handled its first file, and then the others. -/
theorem writeAll_cons_eq_ok {es : List Emitted} (h : t.writeAll config (p :: ps) = (.ok es, t')) :
    ∃ o t₁ rest, Step config p t (.ok o, t₁) ∧ t₁.writeAll config ps = (.ok rest, t') ∧
      es = ⟨p.path, p.kind, o⟩ :: rest := by
  rcases writeAll_cons_cases config p ps t with ⟨_, _, _, -, heq⟩ | ⟨o, t₁, hstep, heq⟩
  · rw [heq] at h
    cases h
  · rw [heq] at h
    obtain ⟨hes, ht'⟩ := Prod.mk.inj h
    obtain ⟨rest, hrest, rfl⟩ := map_eq_ok hes
    exact ⟨o, t₁, rest, hstep, Prod.ext hrest ht', rfl⟩

/-- All planned files are recorded in their order. -/
theorem map_path_of_writeAll {es : List Emitted} (h : t.writeAll config ps = (.ok es, t')) :
    es.map Emitted.path = ps.map Planned.path := by
  induction ps generalizing t es with
  | nil =>
      cases h
      rfl
  | cons p ps ih =>
      obtain ⟨o, t₁, rest, -, hrest, rfl⟩ := writeAll_cons_eq_ok h
      rw [List.map_cons, List.map_cons, ih hrest]

/-- A successful run writes nowhere but at the places that it records. -/
theorem Due.recorded {es : List Emitted} {l : Location} {s : String} (hdue : Due ps t' l s)
    (h : t.writeAll config ps = (.ok es, t')) : ∃ a ∈ es, t'.locate? a.path = some l := by
  obtain ⟨p, hp, hl, -⟩ := hdue
  have hmem : p.path ∈ es.map Emitted.path :=
    map_path_of_writeAll h ▸ List.mem_map_of_mem hp
  obtain ⟨a, ha, hap⟩ := List.mem_map.mp hmem
  exact ⟨a, ha, hap ▸ hl⟩

end FileTree

end ClassSchema
