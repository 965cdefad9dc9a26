import ClassSchema.Proofs.Resolve.Agree
import ClassSchema.Proofs.Resolve.Alike
import ClassSchema.Proofs.Text.Sorted
import ClassSchema.Generate

/-! # Resolving for two languages

Every step of `resolve` succeeds or fails alike whatever the target language is, so a document
resolves for all languages or for none, and its classes differ in the texts of the language only. -/

namespace ClassSchema

variable (ns : String) (l l' : Language)

/-! ## Types and literals -/

mutual

/-- A type can be rendered in both languages or in none. -/
theorem TypeExpr.render_agree (t : TypeExpr) :
    Agree Error.Alike (fun _ _ => True) (t.render l ns) (t.render l' ns) := by
  cases t with
  | primitive s => exact .ok trivial
  | reference c isConst pointer s => exact .ok trivial
  | placeholder index cs s => exact .ok trivial
  | function signature s => exact .ok trivial
  | composite base args s =>
      unfold render
      cases Container.ofName? base with
      | none => exact .error fun _ => rfl
      | some container =>
          dsimp only
          split
          · exact .error fun _ => rfl
          · exact (renderAll_agree args).elim (fun _ _ _ => .ok trivial) fun _ _ he => .error he

/-- So can the arguments of a type. -/
theorem TypeExpr.renderAll_agree (ts : List TypeExpr) :
    Agree Error.Alike (fun _ _ => True) (renderAll l ns ts) (renderAll l' ns ts) := by
  cases ts with
  | nil => exact .ok trivial
  | cons t ts =>
      unfold renderAll
      refine (render_agree t).elim (fun _ _ _ => ?_) fun _ _ he => .error he
      exact (renderAll_agree ts).elim (fun _ _ _ => .ok trivial) fun _ _ he => .error he

end

namespace Literal

/-- Whether a value has a literal does not depend on the language. -/
theorem untyped_agree (v : Yaml.Value) :
    Agree Eq (fun _ _ => True) (untyped l v) (untyped l' v) := by
  cases v with
  | null => exact .ok trivial
  | bool b => exact .ok trivial
  | number n => exact .ok trivial
  | string s => exact .ok trivial
  | sequence items =>
      unfold untyped
      cases aggregate? (.sequence items) with
      | none => exact .error rfl
      | some j => exact .ok trivial
  | mapping entries =>
      unfold untyped
      cases aggregate? (.mapping entries) with
      | none => exact .error rfl
      | some j => exact .ok trivial
  | tagged t v => exact .error rfl

/-- Nor does it if the type of the value is known. -/
theorem typed_agree (t : TypeExpr) (role : Role) (v : Yaml.Value) :
    Agree Eq (fun _ _ => True) (typed l t role v) (typed l' t role v) := by
  unfold typed
  split
  · exact .ok trivial
  · split
    · split
      · exact .ok trivial
      · exact .ok trivial
    · exact untyped_agree l l' _

theorem typedAll_agree (t : TypeExpr) (vs : List Yaml.Value) :
    Agree Eq (fun _ _ => True) (typedAll l t vs) (typedAll l' t vs) := by
  induction vs with
  | nil => exact .ok trivial
  | cons v vs ih =>
      unfold typedAll
      refine (typed_agree l l' t .property v).elim (fun _ _ _ => ?_) fun _ _ he => .error he
      exact ih.elim (fun _ _ _ => .ok trivial) fun _ _ he => .error he

/-- The allowed values of a property all have literals in both languages, or in none. -/
theorem allowed_agree (t : TypeExpr) (vs : List Yaml.Value) :
    Agree Eq (fun _ _ => True) (allowed l t vs) (allowed l' t vs) := by
  unfold allowed
  exact (typedAll_agree l l' t vs).elim (fun _ _ _ => .ok trivial) fun _ _ he => .error he

/-- The literals of a mapping are kept under the same keys, whatever has been kept before. -/
theorem entriesFrom_agree (es : List (Yaml.Value × Yaml.Value)) {map map' : List (String × String)}
    (h : map.map Prod.fst = map'.map Prod.fst) :
    Agree Eq (fun m m' => m.map Prod.fst = m'.map Prod.fst) (entriesFrom l es map)
      (entriesFrom l' es map') := by
  induction es generalizing map map' with
  | nil => exact .ok h
  | cons e es ih =>
      obtain ⟨k, v⟩ := e
      unfold entriesFrom
      cases k.string? with
      | none => exact .error rfl
      | some key =>
          refine (untyped_agree l l' v).elim (fun literal literal' _ => ?_) fun _ _ he => .error he
          exact ih (by rw [keys_setEntry, keys_setEntry, h])

/-- A mapping has the same keys in both languages. -/
theorem entries_agree (es : List (Yaml.Value × Yaml.Value)) :
    Agree Eq (fun m m' => m.map Prod.fst = m'.map Prod.fst) (entries l es) (entries l' es) :=
  entriesFrom_agree l l' es rfl

end Literal

namespace Resolve

/-- A step without language, or whose failure names none. -/
theorem agree_self {α : Type} (x : Except Cause α) : Agree Cause.Alike Eq x x :=
  .rfl_of (fun _ _ => rfl) x

/-- To name the field of an error makes no difference between the languages. -/
theorem inField_agree {α β : Type} {R : α → β → Prop} {x : Except Cause α} {y : Except Cause β}
    (className field : String) (h : Agree Cause.Alike R x y) :
    Agree Error.Alike R (inField className field x) (inField className field y) := by
  cases h with
  | ok h => exact .ok h
  | error h => exact .error ⟨rfl, rfl, h⟩

/-- Nor does it matter that an error is one of a literal. -/
theorem liftLiteral_agree {α β : Type} {R : α → β → Prop} {x : Except Literal.Error α}
    {y : Except Literal.Error β} (h : Agree Eq R x y) :
    Agree Cause.Alike R (liftLiteral x) (liftLiteral y) :=
  h.mapError fun _ _ he _ => by rw [he]

/-- A type that cannot be rendered is reported alike. -/
theorem renderType_agree (t : TypeExpr) :
    Agree Cause.Alike (fun _ _ => True) (renderType ⟨ns, l⟩ t) (renderType ⟨ns, l'⟩ t) :=
  (t.render_agree ns l l').mapError fun _ _ he language => congrArg Cause.type (he language)

/-- There is a default in both languages, or in none. -/
theorem defaultLiteral_agree (t : TypeExpr) (role : Literal.Role) (v : Option Yaml.Value) :
    Agree Cause.Alike (fun d d' => d.isSome = d'.isSome) (defaultLiteral ⟨ns, l⟩ t role v)
      (defaultLiteral ⟨ns, l'⟩ t role v) := by
  cases v with
  | none => exact .ok rfl
  | some v => exact (liftLiteral_agree (Literal.typed_agree l l' t role v)).map fun _ _ _ => rfl

/-! ## Properties and relations -/

/-- One property differs at most in what is rendered of it. -/
theorem property_agree (path : String) (node : Yaml.Value) :
    Agree Cause.Alike Property.Alike (property ⟨ns, l⟩ path node)
      (property ⟨ns, l'⟩ path node) := by
  unfold property
  refine (agree_self (liftShape (PropertySpec.ofValue node))).bind ?_
  rintro spec _ rfl
  refine (agree_self (parseType spec.type)).bind ?_
  rintro type _ rfl
  split
  · exact .error fun _ => rfl
  · refine (renderType_agree ns l l' type).bind fun rendered rendered' _ => ?_
    refine (defaultLiteral_agree ns l l' type .property spec.default).bind fun _ _ hdefault => ?_
    refine (liftLiteral_agree (Literal.allowed_agree l l' type _)).bind fun _ _ _ => ?_
    exact .ok ⟨rfl, rfl, rfl, hdefault, rfl⟩

/-- The properties of a list of nodes are alike one by one, and fail at the same node. -/
theorem propertiesFrom_agree (className : String) (taken : List String) (nodes : List PathNode) :
    Agree Error.Alike (List.Forall₂ Property.Alike) (propertiesFrom ⟨ns, l⟩ className taken nodes)
      (propertiesFrom ⟨ns, l'⟩ className taken nodes) := by
  induction nodes generalizing taken with
  | nil => exact .ok .nil
  | cons node nodes ih =>
      obtain ⟨path, value⟩ := node
      unfold propertiesFrom
      have hnode := property_agree ns l l' path value
      refine (inField_agree className path (.ite (.error fun _ => rfl) hnode)).bind ?_
      intro p q hp
      exact (ih (path :: taken)).bind fun ps qs hps => .ok (.cons hp hps)

/-- All properties of a document are alike. -/
theorem properties_agree (doc : Document) :
    Agree Error.Alike (List.Forall₂ Property.Alike) (properties ⟨ns, l⟩ doc)
      (properties ⟨ns, l'⟩ doc) := by
  unfold properties
  refine (inField_agree doc.name "properties" (agree_self _)).bind ?_
  rintro nodes _ rfl
  exact propertiesFrom_agree ns l l' doc.name [] nodes

/-- In a relation, only the literals of its further entries depend on the language. -/
theorem relation_agree (name : String) (node : Yaml.Value) :
    Agree Cause.Alike Relation.Alike (relation ⟨ns, l⟩ name node)
      (relation ⟨ns, l'⟩ name node) := by
  unfold relation
  refine (agree_self (liftShape (RelationSpec.ofValue node))).bind ?_
  rintro spec _ rfl
  refine (agree_self (parseType spec.type)).bind ?_
  rintro type _ rfl
  refine (agree_self (declaredTargets spec)).bind ?_
  rintro declared _ rfl
  refine (liftLiteral_agree (Literal.entries_agree l l' _)).bind fun _ _ hkeys => ?_
  exact .ok ⟨rfl, rfl, rfl, rfl, rfl, rfl, rfl, rfl, rfl, rfl, hkeys⟩

/-- The relations of a list of entries are alike one by one, and fail at the same entry. -/
theorem relationsFrom_agree (className : String) (paths taken : List String) (entries : Entries) :
    Agree Error.Alike (List.Forall₂ Relation.Alike)
      (relationsFrom ⟨ns, l⟩ className paths taken entries)
      (relationsFrom ⟨ns, l'⟩ className paths taken entries) := by
  induction entries generalizing taken with
  | nil => exact .ok .nil
  | cons entry entries ih =>
      obtain ⟨key, node⟩ := entry
      unfold relationsFrom
      refine (inField_agree className "relations" (agree_self (keyText key))).bind ?_
      rintro name _ rfl
      have hnode := relation_agree ns l l' name node
      refine (inField_agree className name
        (.ite (.error fun _ => rfl) (.ite (.error fun _ => rfl) hnode))).bind ?_
      intro r s hr
      exact (ih (name :: taken)).bind fun rs ss hrs => .ok (.cons hr hrs)

/-! ## Methods -/

/-- What a method returns is alike. -/
theorem returns_agree (spec : Option ReturnSpec) :
    Agree Cause.Alike Return.Alike (returns ⟨ns, l⟩ spec) (returns ⟨ns, l'⟩ spec) := by
  unfold returns
  cases spec.bind ReturnSpec.type with
  | none => exact .ok ⟨rfl, rfl, rfl⟩
  | some expr =>
      refine (agree_self (parseType expr)).bind ?_
      rintro type _ rfl
      exact (renderType_agree ns l l' type).bind fun _ _ _ => .ok ⟨rfl, rfl, rfl⟩

/-- So is each of its arguments. -/
theorem argument_agree (spec : ArgumentSpec) :
    Agree Cause.Alike Argument.Alike (argument ⟨ns, l⟩ spec) (argument ⟨ns, l'⟩ spec) := by
  unfold argument
  refine (agree_self (parseType spec.type)).bind ?_
  rintro type _ rfl
  refine (renderType_agree ns l l' type).bind fun _ _ _ => ?_
  refine (defaultLiteral_agree ns l l' type .argument spec.default).bind fun _ _ hdefault => ?_
  exact .ok ⟨rfl, rfl, hdefault, rfl, rfl, rfl⟩

/-- The arguments of a method are alike one by one, and fail at the same one. -/
theorem argumentsFrom_agree (className method : String) (taken : List String)
    (specs : List ArgumentSpec) :
    Agree Error.Alike (List.Forall₂ Argument.Alike)
      (argumentsFrom ⟨ns, l⟩ className method taken specs)
      (argumentsFrom ⟨ns, l'⟩ className method taken specs) := by
  induction specs generalizing taken with
  | nil => exact .ok .nil
  | cons spec specs ih =>
      unfold argumentsFrom
      have hspec := argument_agree ns l l' spec
      refine (inField_agree className _ (.ite (.error fun _ => rfl) hspec)).bind ?_
      intro a b hab
      exact (ih (spec.name :: taken)).bind fun as bs hs => .ok (.cons hab hs)

/-- Two readings of one signature are alike. -/
theorem overload_agree (className method : String) (spec : MethodSpec) :
    Agree Error.Alike Overload.Alike (overload ⟨ns, l⟩ className method spec)
      (overload ⟨ns, l'⟩ className method spec) := by
  unfold overload
  refine (inField_agree className method (returns_agree ns l l' spec.returns)).bind ?_
  intro r s hr
  refine (argumentsFrom_agree ns l l' className method [] (spec.arguments.getD [])).bind ?_
  intro as bs hs
  have hnames := templateNames_eq hs
  refine .ok ⟨rfl, hs, hr, rfl, rfl, ?_, hnames, rfl⟩
  dsimp only
  rw [hr.isTemplate, hnames]

/-- A method has the same overloads, which are alike. -/
theorem method_agree (className name : String) (spec : MethodSpec) :
    Agree Error.Alike Method.Alike (method ⟨ns, l⟩ className name spec)
      (method ⟨ns, l'⟩ className name spec) := by
  unfold method
  refine (Agree.mapM_same (overload_agree ns l l' className name) (signatures spec)).bind ?_
  intro os ps hos
  refine .ok ⟨rfl, ?_, ?_, hos⟩
  · -- The description may be that of the first overload.
    dsimp only
    cases hos with
    | nil => rfl
    | cons ho _ => simp only [List.head?_cons, Option.map_some, ho.description]
  · dsimp only
    rw [hos.length_eq]

/-- An entry of a document gives the same method, or fails for the same reason. -/
theorem methodEntry_agree (className : String) (entry : Yaml.Value × Yaml.Value) :
    Agree Error.Alike Method.Alike (methodEntry ⟨ns, l⟩ className entry)
      (methodEntry ⟨ns, l'⟩ className entry) := by
  unfold methodEntry
  refine (inField_agree className "methods" (agree_self (keyText entry.1))).bind ?_
  rintro name _ rfl
  have hspec := agree_self (liftShape (MethodSpec.ofValue entry.2))
  refine (inField_agree className name hspec).bind ?_
  rintro spec _ rfl
  exact method_agree ns l l' className name spec

/-! ## Placeholders -/

/-- A candidate is the same type in both languages. -/
theorem candidate_agree (expr : String) :
    Agree Cause.Alike (fun c d => c.type = d.type) (candidate ⟨ns, l⟩ expr)
      (candidate ⟨ns, l'⟩ expr) := by
  unfold candidate
  refine (agree_self (parseType expr)).bind ?_
  rintro type _ rfl
  exact (renderType_agree ns l l' type).bind fun _ _ _ => .ok rfl

/-- Placeholders are filled in the same way in overloads that are alike. -/
theorem instantiate_agree (className method : String) (defaults : List String) {o p : Overload}
    (h : o.Alike p) :
    Agree Error.Alike Overload.Alike (instantiate ⟨ns, l⟩ className method defaults o)
      (instantiate ⟨ns, l'⟩ className method defaults p) := by
  unfold instantiate
  rw [h.isTemplate]
  split
  · have hfilled := h.fill defaults
    dsimp only
    rw [hfilled.types]
    refine (inField_agree className method (Agree.mapM_same (candidate_agree ns l l') _)).bind ?_
    intro cs ds hcs
    have htypes : cs.map Candidate.type = ds.map Candidate.type :=
      map_eq_of_forall₂ (fun _ _ => id) hcs
    exact .ok { hfilled with candidates := htypes }
  · exact .ok h

/-- The overloads of a method stay alike when they are filled. -/
theorem instantiateMethod_agree (className : String) (defaults : List String) {m n : Method}
    (h : m.Alike n) :
    Agree Error.Alike Method.Alike (instantiateMethod ⟨ns, l⟩ className defaults m)
      (instantiateMethod ⟨ns, l'⟩ className defaults n) := by
  unfold instantiateMethod
  rw [h.name]
  have hoverloads := Agree.mapM h.overloads fun o p ho =>
    instantiate_agree ns l l' className n.name defaults ho
  exact hoverloads.bind fun os ps hos => .ok ⟨rfl, h.description, h.isOverloaded, hos⟩

end Resolve

/-! ## Whole documents -/

open Resolve

/-- The same types are named as candidates. -/
theorem namedCandidates_eq {ps qs : List Property} {ms ms' : List Method}
    (hp : List.Forall₂ Property.Alike ps qs) (hm : List.Forall₂ Method.Alike ms ms') :
    namedCandidates ps ms = namedCandidates qs ms' := by
  have hmethod (m m' : Method) (h : m.Alike m') :
      m.overloads.flatMap Overload.types = m'.overloads.flatMap Overload.types :=
    flatMap_eq_of_forall₂ (fun _ _ ho => ho.types) h.overloads
  unfold namedCandidates
  dsimp only
  rw [map_eq_of_forall₂ (fun _ _ h => h.type) hp, flatMap_eq_of_forall₂ hmethod hm]

/-- The same classes are mentioned. -/
theorem mentioned_eq {ps qs : List Property} {rs ss : List Relation} {ms ms' : List Method}
    (hp : List.Forall₂ Property.Alike ps qs) (hr : List.Forall₂ Relation.Alike rs ss)
    (hm : List.Forall₂ Method.Alike ms ms') : mentioned ps rs ms = mentioned qs ss ms' := by
  have hproperty (p q : Property) (h : p.Alike q) : p.type.classNames = q.type.classNames := by
    rw [h.type]
  have hoverload (o p : Overload) (h : o.Alike p) :
      (o.types ++ o.candidates.map Candidate.type).flatMap TypeExpr.classNames =
        (p.types ++ p.candidates.map Candidate.type).flatMap TypeExpr.classNames := by
    rw [h.types, h.candidates]
  unfold mentioned
  dsimp only
  rw [flatMap_eq_of_forall₂ hproperty hp, flatMap_eq_of_forall₂ (fun _ _ h => h.declared) hr,
    flatMap_eq_of_forall₂ (fun _ _ h => flatMap_eq_of_forall₂ hoverload h.overloads) hm]

/-- A document gives classes that are alike in any two languages, or errors that are. -/
theorem resolve_agree (doc : Document) :
    Agree Resolve.Error.Alike ClassModel.Alike (resolve ⟨ns, l⟩ doc) (resolve ⟨ns, l'⟩ doc) := by
  unfold resolve
  refine (properties_agree ns l l' doc).bind fun ps qs hps => ?_
  dsimp only
  rw [map_eq_of_forall₂ (fun _ _ h => Property.Alike.path h) hps]
  refine (relationsFrom_agree ns l l' doc.name _ [] _).bind fun rs ss hrs => ?_
  rw [map_eq_of_forall₂ (fun _ _ h => Relation.Alike.name h) hrs]
  refine (Agree.rfl_of (fun _ => ⟨rfl, rfl, fun _ => rfl⟩) (uri doc _ _)).bind ?_
  rintro uri _ rfl
  refine (Agree.mapM_same (methodEntry_agree ns l l' doc.name) _).bind fun ms ms' hms => ?_
  rw [namedCandidates_eq hps hms]
  refine (Agree.mapM hms fun m m' hm => instantiateMethod_agree ns l l' doc.name _ hm).bind ?_
  intro ms ms' hms
  have hfilled (defaults : List String) : List.Forall₂ Property.Alike
      (ps.map (Property.fill defaults)) (qs.map (Property.fill defaults)) := by
    rw [List.forall₂_map_left_iff, List.forall₂_map_right_iff]
    exact hps.imp fun p q h => h.fill defaults
  exact .ok {
    name := rfl
    ns := rfl
    parent := rfl
    properties := forall₂_sortBy (fun _ _ h => h.path) (hfilled _)
    relations := forall₂_sortBy (fun _ _ h => h.name) hrs
    methods := hms
    referenced := mentioned_eq (hfilled _) hrs hms
    uri := rfl
    templateTypes := rfl }

/-- A document resolves for C++ and for Python alike, in every project: to classes that differ in
the texts of the language only, or with the same error at the same place. So a file whose document
resolves for C++ is resolved, whether Python is wanted or not. -/
theorem resolve_cpp_python (ns : String) (doc : Document) :
    Agree Resolve.Error.Alike ClassModel.Alike (resolve ⟨ns, .cpp⟩ doc)
      (resolve ⟨ns, .python⟩ doc) ∧
    ∀ (config : Config) (s : Generate.Source) (text : String) (cpp : ClassModel),
      s.text = .ok text → Document.read text = .ok doc →
      resolve ⟨config.project, .cpp⟩ doc = .ok cpp →
      ∃ file, s.resolve config = .ok file ∧ file.cpp = cpp ∧
        file.python.isSome = config.targets .python := by
  refine ⟨resolve_agree ns .cpp .python doc, ?_⟩
  intro config s text cpp htext hread hcpp
  have hagree := resolve_agree config.project .cpp .python doc
  rw [hcpp] at hagree
  generalize hpython : resolve ⟨config.project, .python⟩ doc = result at hagree
  cases hagree with
  | ok h =>
      cases htargets : config.targets .python with
      | false =>
          simp only [Generate.Source.resolve, htext, hread, hcpp, htargets, bind, Except.bind,
            Except.mapError, Bool.false_eq_true, ↓reduceIte]
          exact ⟨_, rfl, rfl, rfl⟩
      | true =>
          simp only [Generate.Source.resolve, htext, hread, hcpp, hpython, htargets, bind,
            Except.bind, Except.mapError, Except.map, ↓reduceIte]
          exact ⟨_, rfl, rfl, rfl⟩

end ClassSchema
