import ClassSchema.Generate
import ClassSchema.Proofs.Text.Cut

/-! # The pieces of a path

Where a path leads is told by what stands between its slashes. The name of a file, and with it
whether it is a document, is what follows the last one. -/

namespace ClassSchema

namespace Path

/-- What stands between the slashes of a path. -/
def pieces (path : String) : List String := (Chars.split (· == '/') path.toList).map String.ofList

/-- A step that leads to an entry of its own. -/
structure IsName (step : String) : Prop where
  ne_empty : step ≠ ""
  ne_here : step ≠ "."
  ne_up : step ≠ ".."

variable {path first last : String} {steps : List String}

private theorem free_of_slash_not_mem {cs : List Char} (h : '/' ∉ cs) :
    ∀ c ∈ cs, (c == '/') = false := by
  intro c hc
  exact beq_false_of_ne fun heq => h (heq ▸ hc)

/-- Pieces have no slashes. -/
theorem slash_not_mem_of_mem_pieces {piece : String} (h : piece ∈ pieces path) :
    '/' ∉ piece.toList := by
  obtain ⟨cs, hcs, rfl⟩ := List.mem_map.mp h
  intro hslash
  have := Chars.forall_mem_split hcs '/' (by simpa using hslash)
  simp at this

/-- A path has a last piece. -/
theorem exists_pieces_eq (path : String) :
    ∃ steps last, pieces path = steps ++ [last] ∧ '/' ∉ last.toList := by
  obtain ⟨first, last, h⟩ := Chars.exists_split_eq (· == '/') path.toList
  have hpieces : pieces path = first.map String.ofList ++ [String.ofList last] := by
    simp [pieces, h]
  refine ⟨first.map String.ofList, String.ofList last, hpieces, ?_⟩
  exact slash_not_mem_of_mem_pieces (hpieces ▸ List.mem_append_right _ List.mem_cons_self)

/-- A path without slash is one piece. -/
theorem pieces_of_free (h : '/' ∉ path.toList) : pieces path = [path] := by
  rw [pieces, Chars.split_eq_singleton (free_of_slash_not_mem h)]
  simp

/-- At a slash the paths on its two sides are cut on their own. -/
theorem pieces_slash (a b : String) : pieces (a ++ "/" ++ b) = pieces a ++ pieces b := by
  have hlist : (a ++ "/" ++ b).toList = a.toList ++ '/' :: b.toList := by simp
  rw [pieces, hlist, Chars.split_append_sep (by simp), List.map_append]
  rfl

/-- A name behind a slash is one piece more. -/
theorem pieces_append_slash (path : String) (h : '/' ∉ last.toList) :
    pieces (path ++ "/" ++ last) = pieces path ++ [last] := by
  rw [pieces_slash, pieces_of_free h]

/-- Without slash, what follows goes to the last piece. -/
theorem pieces_append_free (h : pieces path = steps ++ [first]) (hlast : '/' ∉ last.toList) :
    pieces (path ++ last) = steps ++ [first ++ last] := by
  obtain ⟨xs, x, hsplit⟩ := Chars.exists_split_eq (· == '/') path.toList
  rw [pieces, hsplit, List.map_append] at h
  obtain ⟨rfl, rfl⟩ := List.append_singleton_inj.mp h
  rw [pieces, String.toList_append,
    Chars.split_append_free hsplit (free_of_slash_not_mem hlast), List.map_append]
  simp

/-- What has no slash becomes part of the first piece if it comes before. -/
theorem pieces_free_append (h : '/' ∉ first.toList) (path : String) :
    ∃ piece rest, pieces path = piece :: rest ∧
      pieces (first ++ path) = (first ++ piece) :: rest := by
  obtain ⟨cs, rest, hsplit⟩ :=
    List.exists_cons_of_ne_nil (Chars.split_ne_nil (· == '/') path.toList)
  refine ⟨String.ofList cs, rest.map String.ofList, by rw [pieces, hsplit, List.map_cons], ?_⟩
  rw [pieces, String.toList_append, Chars.split_free_append (free_of_slash_not_mem h) hsplit]
  simp

/-! ## Names of files -/

/-- The step of a piece that is not empty. -/
private def step? : String → Option Component
  | "." => none
  | ".." => some .up
  | piece => some (.name piece)

private theorem step?_of_isName (h : IsName last) : step? last = some (.name last) := by
  unfold step?
  split
  · exact absurd rfl h.ne_here
  · exact absurd rfl h.ne_up
  · rfl

private theorem getLast?_components (h : pieces path = steps ++ [last]) (hne : last ≠ "")
    {c : Component} (hc : step? last = some c) : (components path).getLast? = some c := by
  obtain ⟨xs, x, hsplit⟩ := Chars.exists_split_eq (· == '/') path.toList
  rw [pieces, hsplit, List.map_append] at h
  obtain ⟨rfl, rfl⟩ := List.append_singleton_inj.mp h
  have hx : x ≠ [] := by
    rintro rfl
    exact hne rfl
  have hfilter : (xs ++ [x]).filter (!·.isEmpty) = xs.filter (!·.isEmpty) ++ [x] := by
    simp [List.filter_append, hx]
  have hlast (lead : List Component) (ps : List String) :
      (lead ++ (ps ++ [String.ofList x]).filterMap step?).getLast? = some c := by
    simp [List.filterMap_append, hc]
  unfold components
  rw [hsplit, hfilter, List.map_append]
  dsimp only
  split
  · exact hlast [.root] _
  · split
    · exact hlast [.here] _
    · exact hlast [] _

/-- The name of a file is its last piece. -/
theorem fileName?_of_isName (h : pieces path = steps ++ [last]) (hlast : IsName last) :
    fileName? path = some last := by
  rw [fileName?, getLast?_components h hlast.ne_empty (step?_of_isName hlast)]

/-- A path that ends by going up names no file. -/
theorem fileName?_of_up (h : pieces path = steps ++ [".."]) : fileName? path = none := by
  rw [fileName?, getLast?_components h (by decide) rfl]

/-- A joined path ends with the second one. -/
theorem exists_join_eq (dir path : String) : ∃ lead, join dir path = lead ++ path := by
  unfold join
  split
  · exact ⟨"", by simp⟩
  · split
    · exact ⟨dir, rfl⟩
    · exact ⟨dir ++ "/", rfl⟩

/-! ## Paths below a directory -/

theorem isAbsolute_of_free (h : '/' ∉ path.toList) : isAbsolute path = false := by
  have hslash : "/".toList = ['/'] := rfl
  unfold isAbsolute Text.startsWith
  cases hpath : path.toList with
  | nil => rfl
  | cons c cs =>
      have hc : '/' ≠ c := by
        rintro rfl
        exact h (hpath ▸ List.mem_cons_self)
      rw [hslash, Chars.stripStart?, if_neg hc]
      rfl

/-- Whether a path is absolute can be seen at its start. -/
theorem isAbsolute_append (h : path ≠ "") (rest : String) :
    isAbsolute (path ++ rest) = isAbsolute path := by
  have hslash : "/".toList = ['/'] := rfl
  obtain ⟨c, cs, hcs⟩ := List.exists_cons_of_ne_nil (mt String.toList_eq_nil_iff.mp h)
  simp only [isAbsolute, Text.startsWith, String.toList_append, hcs, hslash, List.cons_append,
    Chars.stripStart?]
  split <;> rfl

/-- The pieces of a path below a directory are those of the directory and those of the path, without
an empty piece between them. -/
theorem pieces_join (dir : String) (h : isAbsolute path = false) :
    isAbsolute (join dir path) = isAbsolute dir ∧
    ∃ steps, pieces (join dir path) = steps ++ pieces path ∧
      (pieces dir = steps ∨ pieces dir = steps ++ [""]) := by
  by_cases hne : dir = ""
  · subst hne
    have hjoin : join "" path = path := by simp [join]
    rw [hjoin]
    exact ⟨h, [], rfl, .inr rfl⟩
  simp only [join, h, String.isEmpty_eq_false_iff.mpr hne, Bool.or_false, Bool.false_eq_true,
    if_false]
  split
  · rename_i hend
    obtain ⟨stem, hstem⟩ := Option.isSome_iff_exists.mp hend
    have hdir : dir = String.ofList stem ++ "/" := by
      rw [← String.toList_inj, Chars.stripEnd?_eq_some.mp hstem]
      simp
    refine ⟨isAbsolute_append hne path, pieces (String.ofList stem), ?_, .inr ?_⟩
    · rw [hdir, pieces_slash]
    · have hpieces := pieces_slash (String.ofList stem) ""
      rw [String.append_empty, ← hdir] at hpieces
      exact hpieces
  · rw [String.append_assoc, isAbsolute_append hne, ← String.append_assoc]
    exact ⟨rfl, pieces dir, pieces_slash dir path, .inl rfl⟩

/-- The pieces that are not empty. -/
private def solid (path : String) : List String := (pieces path).filter (!·.isEmpty)

private theorem components_eq (path : String) :
    components path =
      if isAbsolute path then .root :: (solid path).filterMap step?
      else if (solid path).head? == some "." then .here :: (solid path).filterMap step?
      else (solid path).filterMap step? := by
  have hsolid : ((Chars.split (· == '/') path.toList).filter (!·.isEmpty)).map String.ofList
      = solid path := by
    rw [solid, pieces, List.filter_map]
    refine congrArg _ (List.filter_congr fun cs _ => ?_)
    cases cs <;> simp
  unfold components
  rw [hsolid]
  rfl

/-- Going up is a piece of its own. -/
theorem up_mem_components : .up ∈ components path ↔ ".." ∈ pieces path := by
  have hstep (piece : String) : step? piece = some .up ↔ piece = ".." := by
    unfold step?
    split <;> simp_all
  have hsteps : .up ∈ (solid path).filterMap step? ↔ ".." ∈ pieces path := by
    simp [solid, hstep]
  rw [components_eq]
  split_ifs <;> simp [hsteps]

private theorem solid_join (dir : String) (h : isAbsolute path = false) :
    solid (join dir path) = solid dir ++ solid path := by
  obtain ⟨-, steps, hpieces, hsteps⟩ := pieces_join dir h
  rw [solid, hpieces, List.filter_append, solid]
  rcases hsteps with heq | heq
  · rw [heq]
    rfl
  · rw [heq, List.filter_append]
    simp [solid]

section Folder

variable {folder file : String} (hfolder : IsName folder) (hfolderSlash : '/' ∉ folder.toList)
  (hfileSlash : '/' ∉ file.toList)

include hfolderSlash

include hfolder in
theorem isAbsolute_folder (file : String) : isAbsolute (folder ++ "/" ++ file) = false := by
  rw [String.append_assoc, isAbsolute_append hfolder.ne_empty, isAbsolute_of_free hfolderSlash]

include hfileSlash in
/-- A file in a folder has two pieces. -/
theorem pieces_folder : pieces (folder ++ "/" ++ file) = [folder, file] := by
  rw [pieces_append_slash folder hfileSlash, pieces_of_free hfolderSlash]
  rfl

include hfolder hfileSlash in
/-- A file in a folder of a directory is reached by two more steps. -/
theorem components_join (dir : String) (hfile : IsName file) :
    components (join dir (folder ++ "/" ++ file))
      = components dir ++ [.name folder, .name file] := by
  have habs := isAbsolute_folder hfolder hfolderSlash file
  have hsolid : solid (folder ++ "/" ++ file) = [folder, file] := by
    rw [solid, pieces_folder hfolderSlash hfileSlash]
    simp [hfolder.ne_empty, hfile.ne_empty]
  have hsteps : (solid dir ++ [folder, file]).filterMap step?
      = (solid dir).filterMap step? ++ [.name folder, .name file] := by
    rw [List.filterMap_append]
    simp [step?_of_isName hfolder, step?_of_isName hfile]
  -- The first piece is that of the directory, or the folder, which is no dot.
  have hhead : ((solid dir ++ [folder, file]).head? == some ".")
      = ((solid dir).head? == some ".") := by
    cases solid dir with
    | nil => simp [hfolder.ne_here]
    | cons piece rest => rfl
  rw [components_eq, components_eq, (pieces_join dir habs).1, solid_join dir habs, hsolid, hhead,
    hsteps]
  split
  · rfl
  · split <;> rfl

end Folder

end Path

namespace Generate

open ClassSchema.Path

variable {path last : String} {steps : List String}

/-- Whether a path is that of a document depends on the name of the file. -/
theorem isDocumentName_congr {a b : String} (h : fileName? a = fileName? b) :
    isDocumentName a = isDocumentName b := by
  simp only [isDocumentName, fileExtension?, h]

/-- Whether a path is that of a document is seen from its last piece. -/
theorem isDocumentName_of_pieces (h : pieces path = steps ++ [last]) (hlast : IsName last)
    (hslash : '/' ∉ last.toList) : isDocumentName path = isDocumentName last := by
  refine isDocumentName_congr ?_
  have hself : pieces last = [] ++ [last] := pieces_of_free hslash
  rw [fileName?_of_isName h hlast, fileName?_of_isName hself hlast]

/-- A path that ends by going up is not that of a document. -/
theorem isDocumentName_of_up (h : pieces path = steps ++ [".."]) : isDocumentName path = false := by
  rw [isDocumentName, fileExtension?, fileName?_of_up h]
  rfl

end Generate

namespace ArtifactKind

open ClassSchema.Path

/-- What follows the last dot of the names of files. -/
def ending : ArtifactKind → String
  | .baseHeader | .skeletonHeader | .umbrellaHeader => "hpp"
  | .baseSource | .skeletonSource | .binding | .bindingModule => "cpp"
  | .stub => "pyi"

/-- The files of a kind end alike. -/
theorem exists_path_eq (kind : ArtifactKind) (name : String) :
    ∃ stem, kind.path name = stem ++ ("." ++ kind.ending) := by
  have hjoin (dir stem ending : String) : ∃ stem', join dir (stem ++ ending) = stem' ++ ending := by
    obtain ⟨lead, hlead⟩ := exists_join_eq dir (stem ++ ending)
    exact ⟨lead ++ stem, by rw [hlead, String.append_assoc]⟩
  cases kind with
  | baseHeader => exact hjoin "include" ("_" ++ name) ".hpp"
  | baseSource => exact hjoin "src" ("_" ++ name) ".cpp"
  | skeletonHeader => exact hjoin "include" name ".hpp"
  | skeletonSource => exact hjoin "src" name ".cpp"
  | binding => exact hjoin "pybind" ("py" ++ name) ".cpp"
  | stub => exact hjoin "python" name ".pyi"
  | umbrellaHeader => exact hjoin "include" "xtypes" ".hpp"
  | bindingModule => exact hjoin "pybind" "pybind11_module" ".cpp"

end ArtifactKind

end ClassSchema
