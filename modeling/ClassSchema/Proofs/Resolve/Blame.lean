import ClassSchema.Proofs.Resolve.Members

/-! # Which method is at fault

A method that cannot be read fails by itself. The candidates of its placeholders are looked at
later, when those of the whole class are known: a placeholder without candidates takes over those
that are named anywhere in the class, and fails with the first of them that cannot be used, whoever
has named it. -/

namespace ClassSchema

/-- The document with one method and no other member. -/
def Document.onlyMethod (doc : Document) (entry : Yaml.Value × Yaml.Value) : Document where
  name := doc.name
  parent := doc.parent
  methods := some [entry]

/-- The candidates of each placeholder, those of the result first. -/
def Overload.candidateLists (o : Overload) : List (List String) :=
  o.types.flatMap TypeExpr.candidateLists

/-- The candidates of all placeholders of a method, in their order. -/
def Method.candidateLists (m : Method) : List (List String) :=
  m.overloads.flatMap Overload.candidateLists

/-- Together they are the candidates of its types. -/
theorem Overload.flatten_candidateLists (o : Overload) :
    o.candidateLists.flatten = o.types.flatMap TypeExpr.candidates := by
  rw [candidateLists, ← List.flatMap_id, List.flatMap_assoc]
  apply List.flatMap_congr
  intro t _
  rw [List.flatMap_id, t.flatten_candidateLists]

theorem Method.flatten_candidateLists (m : Method) : m.candidateLists.flatten
    = (m.overloads.flatMap Overload.types).flatMap TypeExpr.candidates := by
  rw [candidateLists, ← List.flatMap_id, List.flatMap_assoc, List.flatMap_assoc]
  apply List.flatMap_congr
  intro o _
  rw [List.flatMap_id, o.flatten_candidateLists]

/-- An overload that is no template has no placeholders to fill. -/
theorem Overload.Noted.candidateLists_eq_nil {o : Overload} (h : o.Noted)
    (hplain : o.isTemplate = false) : o.candidateLists = [] := by
  rw [candidateLists, List.flatMap_eq_nil_iff]
  intro t ht
  exact t.candidateLists_of_not_hasPlaceholder (h.types_of_plain hplain t ht)

namespace Resolve

variable {target : Target} {className : String}

/-! ## Faults of candidates -/

/-- The cause that is met first among candidates. -/
def firstFault? (target : Target) (exprs : List String) : Option Cause :=
  exprs.findSome? fun expr => error? (candidate target expr)

/-- The fault of the first list comes first. -/
theorem firstFault?_append (as bs : List String) :
    firstFault? target (as ++ bs) = (firstFault? target as).or (firstFault? target bs) :=
  List.findSome?_append

/-- The builtin candidates can all be used. -/
theorem firstFault?_builtin : firstFault? target builtinCandidates = none := by
  obtain ⟨ns, language⟩ := target
  cases language <;> rfl

/-- So the default candidates are at fault only if named ones are. -/
theorem firstFault?_defaultCandidates (named : List String) :
    firstFault? target (defaultCandidates named) = firstFault? target named := by
  cases named with
  | nil => exact firstFault?_builtin
  | cons n named => rfl

/-- A method by itself names its own candidates. -/
theorem firstFault?_own (m : Method) : firstFault? target (namedCandidates [] [m])
    = firstFault? target m.candidateLists.flatten := by
  rw [m.flatten_candidateLists, firstFault?, namedCandidates, findSome?_firstOccurrences,
    List.flatMap_singleton]
  rfl

/-- The first fault after placeholders have been filled is one of their own candidates', or one of
the candidates' that they have taken over. -/
theorem firstFault?_orDefaults (defaults : List String) (lists : List (List String)) :
    firstFault? target (lists.flatMap (TypeExpr.orDefaults defaults))
        = firstFault? target lists.flatten ∨
      [] ∈ lists ∧ firstFault? target (lists.flatMap (TypeExpr.orDefaults defaults))
        = firstFault? target defaults := by
  induction lists with
  | nil => exact .inl rfl
  | cons cs lists ih =>
      rw [List.flatMap_cons, List.flatten_cons, firstFault?_append, firstFault?_append]
      cases cs with
      | nil =>
          -- The placeholder takes over all defaults, so the first fault of these is met here.
          have hempty : firstFault? target [] = none := rfl
          rw [hempty, Option.none_or, TypeExpr.orDefaults, List.isEmpty_nil, if_pos rfl]
          cases hdefaults : firstFault? target defaults with
          | some cause => exact .inr ⟨List.mem_cons_self, rfl⟩
          | none =>
              rw [hdefaults] at ih
              rw [Option.none_or]
              exact ih.imp_right fun h => ⟨List.mem_cons_self, h.2⟩
      | cons c cs =>
          have hown : TypeExpr.orDefaults defaults (c :: cs) = c :: cs := rfl
          rw [hown]
          cases hcs : firstFault? target (c :: cs) with
          | some cause => exact .inl rfl
          | none =>
              rw [Option.none_or, Option.none_or]
              exact ih.imp_right fun h => ⟨List.mem_cons_of_mem _ h.1, h.2⟩

/-! ## Methods -/

/-- The error in a field has the cause of what failed there. -/
theorem error?_inField {α : Type} (field : String) (x : Except Cause α) :
    error? (inField className field x) = (error? x).map (⟨className, field, ·⟩) := by
  cases x <;> rfl

/-- An overload fails with the first of its candidates that cannot be used. -/
theorem error?_instantiate (method : String) (defaults : List String) {o : Overload}
    (hnoted : o.Noted) :
    error? (instantiate target className method defaults o) =
      (firstFault? target (o.candidateLists.flatMap (TypeExpr.orDefaults defaults))).map
        (⟨className, method, ·⟩) := by
  unfold instantiate
  split
  · have hfilled : (o.fill defaults).types.flatMap TypeExpr.candidates
        = o.candidateLists.flatMap (TypeExpr.orDefaults defaults) := by
      rw [o.types_fill, List.flatMap_map, Overload.candidateLists, List.flatMap_assoc]
      apply List.flatMap_congr
      intro t _
      exact t.candidates_fill defaults
    dsimp only
    rw [hfilled]
    refine (error?_bind_ok _ _).trans ?_
    rw [error?_inField, error?_mapM]
    rfl
  · rename_i hplain
    rw [hnoted.candidateLists_eq_nil (Bool.eq_false_iff.mpr hplain)]
    rfl

/-- So does a method. -/
theorem error?_instantiateMethod (defaults : List String) {m : Method} (hnoted : m.Noted) :
    error? (instantiateMethod target className defaults m) =
      (firstFault? target (m.candidateLists.flatMap (TypeExpr.orDefaults defaults))).map
        (⟨className, m.name, ·⟩) := by
  refine (error?_bind_ok _ _).trans ?_
  rw [error?_mapM, Method.candidateLists, List.flatMap_assoc]
  have hoverloads := hnoted.overloads
  generalize m.overloads = os at hoverloads ⊢
  induction os with
  | nil => rfl
  | cons o os ih =>
      rw [List.forall_mem_cons] at hoverloads
      rw [List.findSome?_cons, List.flatMap_cons, firstFault?_append, ih hoverloads.2,
        error?_instantiate _ _ hoverloads.1]
      cases firstFault? target (o.candidateLists.flatMap (TypeExpr.orDefaults defaults)) <;> rfl

/-! ## Fields of errors -/

/-- What an error about a method names: the method or one of its arguments, or the section if the
method has no name. -/
def FieldOf (entry : Yaml.Value × Yaml.Value) (field : String) : Prop :=
  ((∃ cause, keyText entry.1 = .error cause) ∧ field = "methods") ∨
  ∃ name, keyText entry.1 = .ok name ∧
    (field = name ∨ ∃ argument, field = name ++ "(" ++ argument ++ ")")

/-- An error names the field in which it occurs. -/
theorem inField_eq_error {α : Type} {field : String} {x : Except Cause α} {e : Error}
    (h : inField className field x = .error e) : e.field = field ∧ ∃ cause, x = .error cause := by
  cases x with
  | ok a => cases h
  | error cause =>
      cases h
      exact ⟨rfl, cause, rfl⟩

/-- An error in an argument names the method and the argument. -/
theorem argumentsFrom_eq_error {method : String} {taken : List String}
    {specs : List ArgumentSpec} {e : Error}
    (h : argumentsFrom target className method taken specs = .error e) :
    ∃ argument, e.field = method ++ "(" ++ argument ++ ")" := by
  induction specs generalizing taken with
  | nil => cases h
  | cons spec specs ih =>
      unfold argumentsFrom at h
      rcases bind_eq_error h with h | ⟨a, -, h⟩
      · exact ⟨spec.name, (inField_eq_error h).1⟩
      · rcases bind_eq_error h with h | ⟨as, -, h⟩
        · exact ih h
        · cases h

/-- An error in a method names the method, or an argument of it. -/
theorem method_eq_error {name : String} {spec : MethodSpec} {e : Error}
    (h : method target className name spec = .error e) :
    e.field = name ∨ ∃ argument, e.field = name ++ "(" ++ argument ++ ")" := by
  unfold method at h
  rcases bind_eq_error h with h | ⟨overloads, -, h⟩
  · obtain ⟨signature, -, h⟩ := exists_error_of_mapM h
    unfold overload at h
    rcases bind_eq_error h with h | ⟨returns, -, h⟩
    · exact .inl (inField_eq_error h).1
    · rcases bind_eq_error h with h | ⟨arguments, -, h⟩
      · exact .inr (argumentsFrom_eq_error h)
      · cases h
  · cases h

section Entry

variable {entry : Yaml.Value × Yaml.Value}

/-- An error in an entry names what belongs to the entry. -/
theorem fieldOf_of_error {e : Error} (h : methodEntry target className entry = .error e) :
    FieldOf entry e.field := by
  unfold methodEntry at h
  rcases bind_eq_error h with h | ⟨name, hname, h⟩
  · obtain ⟨hfield, hkey⟩ := inField_eq_error h
    exact .inl ⟨hkey, hfield⟩
  · refine .inr ⟨name, inField_eq_ok hname, ?_⟩
    rcases bind_eq_error h with h | ⟨spec, -, h⟩
    · exact .inl (inField_eq_error h).1
    · exact method_eq_error h

/-- So does an error that names the method itself. -/
theorem fieldOf_name {m : Method} (h : methodEntry target className entry = .ok m) :
    FieldOf entry m.name := by
  unfold methodEntry method at h
  obtain ⟨name, hname, h⟩ := bind_eq_ok h
  obtain ⟨spec, -, h⟩ := bind_eq_ok h
  obtain ⟨overloads, -, h⟩ := bind_eq_ok h
  cases h
  exact .inr ⟨name, inField_eq_ok hname, .inl rfl⟩

end Entry

/-! ## Whole documents -/

/-- The steps before the methods, with the properties. -/
def beforeMethods (target : Target) (doc : Document) : Except Error (List Property) := do
  let ps ← properties target doc
  let rs ← relationsFrom target doc.name (ps.map Property.path) [] (doc.relations.getD [])
  let _ ← uri doc (rs.map Relation.name) (ps.map Property.path)
  return ps

/-- The steps from the methods on. -/
def methodSteps (target : Target) (doc : Document) (ps : List Property) :
    Except Error (List Method) := do
  let ms ← (doc.methods.getD []).mapM (methodEntry target doc.name)
  ms.mapM (instantiateMethod target doc.name (defaultCandidates (namedCandidates ps ms)))

/-- The methods come last, so all errors are those of the other steps or of the methods. -/
theorem error?_resolve (target : Target) (doc : Document) :
    error? (resolve target doc)
      = error? (beforeMethods target doc >>= methodSteps target doc) := by
  -- The steps are the same ones up to the class that is put together in the end.
  unfold resolve beforeMethods methodSteps
  cases properties target doc with
  | error e => rfl
  | ok ps =>
      change error? (relationsFrom _ _ _ _ _ >>= _) = error? ((relationsFrom _ _ _ _ _ >>= _) >>= _)
      cases relationsFrom target doc.name (ps.map Property.path) [] (doc.relations.getD []) with
      | error e => rfl
      | ok rs =>
          change error? (uri _ _ _ >>= _) = error? ((uri _ _ _ >>= _) >>= _)
          cases uri doc (rs.map Relation.name) (ps.map Property.path) with
          | error e => rfl
          | ok u =>
              change error? (List.mapM _ _ >>= _) = error? (List.mapM _ _ >>= _)
              cases (doc.methods.getD []).mapM (methodEntry target doc.name) with
              | error e => rfl
              | ok ms => exact error?_bind_ok _ _

/-- A method by itself takes over no other candidates than its own, and none of the builtin ones is
at fault. -/
theorem error?_resolve_onlyMethod (target : Target) (doc : Document)
    (entry : Yaml.Value × Yaml.Value) :
    error? (resolve target (doc.onlyMethod entry)) =
      match methodEntry target doc.name entry with
      | .error e => some e
      | .ok m => (firstFault? target (namedCandidates [] [m])).map (⟨doc.name, m.name, ·⟩) := by
  have hleaves : leaves ((doc.onlyMethod entry).properties.getD []) = .ok [] := leavesFrom_nil _
  have hproperties : properties target (doc.onlyMethod entry) = .ok [] := properties_eq hleaves
  have hbefore : beforeMethods target (doc.onlyMethod entry) = .ok [] := by
    rw [beforeMethods, hproperties]
    rfl
  rw [error?_resolve, hbefore]
  change error? (List.mapM (methodEntry target doc.name) [entry] >>= _) = _
  rw [List.mapM_cons, List.mapM_nil]
  cases hentry : methodEntry target doc.name entry with
  | error e => rfl
  | ok m =>
      change error? (List.mapM (instantiateMethod target doc.name
        (defaultCandidates (namedCandidates [] [m]))) [m]) = _
      rw [error?_mapM, List.findSome?_singleton,
        error?_instantiateMethod _ (methodEntry_eq_ok hentry).2.2]
      dsimp only
      congr 1
      rcases firstFault?_orDefaults (defaultCandidates (namedCandidates [] [m])) m.candidateLists
        with heq | ⟨-, heq⟩
      · rw [heq, firstFault?_own]
      · rw [heq, firstFault?_defaultCandidates]

/-- The method is at fault by itself: it cannot be read, or the first of its own candidates that
cannot be used is the cause. -/
def AtFault (target : Target) (className : String) (entry : Yaml.Value × Yaml.Value) (e : Error) :
    Prop :=
  match methodEntry target className entry with
  | .error e' => e' = e
  | .ok m => firstFault? target (namedCandidates [] [m]) = some e.cause

section AtFault

variable {doc : Document} {entry : Yaml.Value × Yaml.Value} {e : Error}

/-- A method that cannot be read is at fault. -/
theorem atFault_of_error (h : methodEntry target className entry = .error e) :
    AtFault target className entry e := by
  rw [AtFault, h]

/-- One that can be read is at fault if its own candidates are. -/
theorem atFault_iff {m : Method} (h : methodEntry target className entry = .ok m) :
    AtFault target className entry e ↔
      firstFault? target (namedCandidates [] [m]) = some e.cause := by
  rw [AtFault, h]

/-- A document with this method only fails if the method is at fault. -/
theorem resolve_onlyMethod_iff
    (h : ∀ m, methodEntry target doc.name entry = .ok m → e = ⟨doc.name, m.name, e.cause⟩) :
    resolve target (doc.onlyMethod entry) = .error e ↔ AtFault target doc.name entry e := by
  rw [← error?_eq_some, error?_resolve_onlyMethod]
  cases hentry : methodEntry target doc.name entry with
  | error e' =>
      rw [AtFault, hentry]
      exact Option.some_inj
  | ok m =>
      rw [atFault_iff hentry]
      dsimp only
      rw [Option.map_eq_some_iff]
      constructor
      · rintro ⟨cause, hcause, rfl⟩
        exact hcause
      · intro hcause
        exact ⟨e.cause, hcause, (h m hentry).symm⟩

end AtFault

end Resolve

open Resolve

/-- A failure has nothing to do with the methods of a class, or it names one of them. That method
fails by itself, with the same error, exactly if it is at fault. If it is not, it has taken over the
candidates of the class, and the cause is the first fault among those. -/
theorem resolve_blame {target : Target} {doc : Document} {e : Resolve.Error}
    (h : resolve target doc = .error e) :
    resolve target { doc with methods := none } = .error e ∨
    ∃ entry ∈ doc.methods.getD [], FieldOf entry e.field ∧
      (resolve target (doc.onlyMethod entry) = .error e ↔ AtFault target doc.name entry e) ∧
      (¬ AtFault target doc.name entry e → ∃ ps ms m,
        beforeMethods target doc = .ok ps ∧
        (doc.methods.getD []).mapM (methodEntry target doc.name) = .ok ms ∧
        methodEntry target doc.name entry = .ok m ∧ [] ∈ m.candidateLists ∧
        firstFault? target (namedCandidates ps ms) = some e.cause) := by
  rw [← error?_eq_some, error?_resolve, error?_eq_some] at h
  rcases bind_eq_error h with hbefore | ⟨ps, hps, h⟩
  · left
    rw [← error?_eq_some, error?_resolve]
    change error? (beforeMethods target doc >>= _) = _
    rw [hbefore]
    rfl
  right
  unfold methodSteps at h
  rcases bind_eq_error h with hread | ⟨ms, hms, h⟩
  · obtain ⟨entry, hentry, hread⟩ := exists_error_of_mapM hread
    refine ⟨entry, hentry, fieldOf_of_error hread, resolve_onlyMethod_iff ?_,
      absurd (atFault_of_error hread)⟩
    intro m hm
    cases hread.symm.trans hm
  · obtain ⟨m, hm, hfail⟩ := exists_error_of_mapM h
    obtain ⟨entry, hentry, hread⟩ := exists_of_mem_mapM hms hm
    rw [← error?_eq_some, error?_instantiateMethod _ (methodEntry_eq_ok hread).2.2,
      Option.map_eq_some_iff] at hfail
    obtain ⟨cause, hcause, rfl⟩ := hfail
    refine ⟨entry, hentry, fieldOf_name hread, resolve_onlyMethod_iff ?_, ?_⟩
    · intro m' hm'
      cases hread.symm.trans hm'
      rfl
    · intro hfault
      rw [atFault_iff hread, firstFault?_own] at hfault
      -- Its own candidates are not the cause, so the ones that it has taken over are.
      rcases firstFault?_orDefaults (defaultCandidates (namedCandidates ps ms)) m.candidateLists
        with heq | ⟨hempty, heq⟩
      · exact absurd (heq.symm.trans hcause) hfault
      · rw [heq, firstFault?_defaultCandidates] at hcause
        exact ⟨ps, ms, m, hps, hms, hread, hempty, hcause⟩

/-- A method with one argument. -/
def setMethod (type : String) : Yaml.Value × Yaml.Value :=
  (.string "set", .mapping [(.string "arguments", .sequence [
    .mapping [(.string "name", .string "value"), (.string "type", .string type)]])])

/-- A property and the argument of a method, each with a type. -/
def modeDocument (ofProperty ofArgument : String) : Document where
  name := "Arm"
  properties := some [(.string "mode", .mapping [(.string "type", .string ofProperty)])]
  methods := some [setMethod ofArgument]

/-- The method that names the candidate is to blame. -/
theorem resolve_blame_own :
    ∃ e, resolve ⟨"robot", .cpp⟩ (modeDocument "TEMPLATE[INTEGER]" "TEMPLATE[BAG(INTEGER)]")
        = .error e ∧
      e.field = "set" ∧ e.cause.message = "unknown type constructor 'BAG' for language CPP" ∧
      resolve ⟨"robot", .cpp⟩ ((modeDocument "TEMPLATE[INTEGER]"
        "TEMPLATE[BAG(INTEGER)]").onlyMethod (setMethod "TEMPLATE[BAG(INTEGER)]")) = .error e := by
  obtain ⟨e, h, hfield, hmessage⟩ : ∃ e, resolve ⟨"robot", .cpp⟩
      (modeDocument "TEMPLATE[INTEGER]" "TEMPLATE[BAG(INTEGER)]") = .error e ∧
        e.field = "set" ∧ e.cause.message = "unknown type constructor 'BAG' for language CPP" := by
    decide +kernel
  obtain ⟨c, hothers, -⟩ : ∃ c, resolve ⟨"robot", .cpp⟩ { modeDocument "TEMPLATE[INTEGER]"
      "TEMPLATE[BAG(INTEGER)]" with methods := none } = .ok c ∧ c.name = "Arm" := by
    decide +kernel
  obtain ⟨m, hread, hnamed⟩ : ∃ m, methodEntry ⟨"robot", .cpp⟩ "Arm"
      (setMethod "TEMPLATE[BAG(INTEGER)]") = .ok m ∧ [] ∉ m.candidateLists := by
    decide +kernel
  refine ⟨e, h, hfield, hmessage, ?_⟩
  rcases resolve_blame h with hfailure | ⟨entry, hentry, -, hiff, htaken⟩
  · cases hfailure.symm.trans hothers
  · obtain rfl := List.mem_singleton.mp hentry
    apply hiff.mpr
    by_contra hfault
    obtain ⟨-, -, m', -, -, hread', hempty, -⟩ := htaken hfault
    cases hread.symm.trans hread'
    exact hnamed hempty

/-- The property names a candidate that cannot be used. The method, which names none, is blamed. -/
theorem resolve_blame_other :
    ∃ e, resolve ⟨"robot", .cpp⟩ (modeDocument "TEMPLATE[BAG(INTEGER)]" "TEMPLATE") = .error e ∧
      e.field = "set" ∧ e.cause.message = "unknown type constructor 'BAG' for language CPP" ∧
      ∃ c, resolve ⟨"robot", .cpp⟩ ((modeDocument "TEMPLATE[BAG(INTEGER)]" "TEMPLATE").onlyMethod
        (setMethod "TEMPLATE")) = .ok c ∧ c.methods.map Method.name = ["set"] := by
  decide +kernel

end ClassSchema
