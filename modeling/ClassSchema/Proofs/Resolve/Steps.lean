import ClassSchema.Proofs.Computation
import ClassSchema.Proofs.Resolve.Noted
import ClassSchema.Proofs.Text.Sorted
import ClassSchema.Resolve

/-! # What a successful resolution has done

Each step that succeeds tells what it has read, and that the names it has met are new. The class is
put together from the results of the steps. -/

namespace ClassSchema

namespace Resolve

variable {target : Target} {className : String}

/-- What succeeds in a field succeeds. -/
theorem inField_eq_ok {α : Type} {field : String} {x : Except Cause α} {a : α}
    (h : inField className field x = .ok a) : x = .ok a := by
  cases x with
  | error cause => cases h
  | ok b => exact congrArg _ (Except.ok.inj h)

/-- A type that has been read, and its text in the language. -/
structure Typed (target : Target) (t : TypeExpr) (text : String) : Prop where
  parsed : ∃ expr, TypeExpr.parse expr = .ok t
  rendered : t.render target.language target.ns = .ok text

/-- A type that is parsed and then rendered. -/
theorem Typed.of_eq_ok {expr text : String} {t : TypeExpr} (ht : parseType expr = .ok t)
    (htext : renderType target t = .ok text) : Typed target t text :=
  ⟨⟨expr, mapError_eq_ok ht⟩, mapError_eq_ok htext⟩

/-! ## Properties -/

section Properties

variable {path : String} {node : Yaml.Value} {p : Property}

/-- A property is no class reference, and what is noted of it fits its type. -/
theorem property_eq_ok (h : property target path node = .ok p) :
    p.path = path ∧ p.type.isReference = false ∧ Typed target p.type p.rendered ∧ p.Noted := by
  unfold property at h
  obtain ⟨spec, -, h⟩ := bind_eq_ok h
  obtain ⟨type, htype, h⟩ := bind_eq_ok h
  obtain ⟨hreference, h⟩ := guard_eq_ok h
  obtain ⟨rendered, hrendered, h⟩ := bind_eq_ok h
  obtain ⟨default, -, h⟩ := bind_eq_ok h
  obtain ⟨allowed, -, h⟩ := bind_eq_ok h
  cases h
  exact ⟨rfl, Bool.eq_false_iff.mpr hreference, .of_eq_ok htype hrendered, ⟨rfl⟩⟩

/-- Each node gives a property, and no path is met twice. -/
theorem propertiesFrom_eq_ok {taken : List String} {nodes : List PathNode} {ps : List Property}
    (h : propertiesFrom target className taken nodes = .ok ps) :
    List.Forall₂ (fun node p => property target node.1 node.2 = .ok p) nodes ps ∧
      (ps.map Property.path).Nodup ∧ ∀ path ∈ ps.map Property.path, path ∉ taken := by
  induction nodes generalizing taken ps with
  | nil =>
      cases h
      exact ⟨.nil, .nil, nofun⟩
  | cons node nodes ih =>
      obtain ⟨path, value⟩ := node
      unfold propertiesFrom at h
      obtain ⟨p, hp, h⟩ := bind_eq_ok h
      obtain ⟨rest, hrest, h⟩ := bind_eq_ok h
      cases h
      obtain ⟨hnew, hp⟩ := guard_eq_ok (inField_eq_ok hp)
      obtain ⟨hall, hnodup, hfree⟩ := ih hrest
      obtain ⟨rfl, -⟩ := property_eq_ok hp
      refine ⟨.cons hp hall, List.nodup_cons.mpr ⟨?_, hnodup⟩, ?_⟩
      · intro hmem
        exact hfree _ hmem List.mem_cons_self
      · rw [List.map_cons, List.forall_mem_cons]
        exact ⟨hnew, fun q hq htaken => hfree q hq (List.mem_cons_of_mem _ htaken)⟩

end Properties

/-! ## Relations -/

/-- A relation has the name of its entry. -/
theorem relation_eq_ok {name : String} {node : Yaml.Value} {r : Relation}
    (h : relation target name node = .ok r) : r.name = name := by
  unfold relation at h
  obtain ⟨spec, -, h⟩ := bind_eq_ok h
  obtain ⟨type, -, h⟩ := bind_eq_ok h
  obtain ⟨declared, -, h⟩ := bind_eq_ok h
  obtain ⟨extra, -, h⟩ := bind_eq_ok h
  cases h
  rfl

/-- Each entry gives a relation; no name is met twice, and none is that of a property. -/
theorem relationsFrom_eq_ok {paths taken : List String} {entries : Entries} {rs : List Relation}
    (h : relationsFrom target className paths taken entries = .ok rs) :
    List.Forall₂ (fun entry r => keyText entry.1 = .ok r.name ∧
        relation target r.name entry.2 = .ok r) entries rs ∧
      (rs.map Relation.name).Nodup ∧
      ∀ name ∈ rs.map Relation.name, name ∉ taken ∧ name ∉ paths := by
  induction entries generalizing taken rs with
  | nil =>
      cases h
      exact ⟨.nil, .nil, nofun⟩
  | cons entry entries ih =>
      obtain ⟨key, value⟩ := entry
      unfold relationsFrom at h
      obtain ⟨name, hname, h⟩ := bind_eq_ok h
      obtain ⟨r, hr, h⟩ := bind_eq_ok h
      obtain ⟨rest, hrest, h⟩ := bind_eq_ok h
      cases h
      obtain ⟨hnew, hr⟩ := guard_eq_ok (inField_eq_ok hr)
      obtain ⟨hpath, hr⟩ := guard_eq_ok hr
      obtain ⟨hall, hnodup, hfree⟩ := ih hrest
      obtain rfl := relation_eq_ok hr
      refine ⟨.cons ⟨inField_eq_ok hname, hr⟩ hall, List.nodup_cons.mpr ⟨?_, hnodup⟩, ?_⟩
      · intro hmem
        exact (hfree _ hmem).1 List.mem_cons_self
      · rw [List.map_cons, List.forall_mem_cons]
        refine ⟨⟨hnew, hpath⟩, fun s hs => ⟨?_, (hfree s hs).2⟩⟩
        intro htaken
        exact (hfree s hs).1 (List.mem_cons_of_mem _ htaken)

/-! ## The URI -/

section Uri

variable {relations properties : List String}

/-- A part is looked up among relations, then among properties, and else taken for inherited. -/
theorem uriPart_eq_ok {hasParent : Bool} {spec : UriPartSpec} {p : UriPart}
    (h : uriPart hasParent relations properties spec = .ok p) :
    (p.source = .relation ∧ p.name ∈ relations) ∨
    (p.source = .property ∧ p.name ∉ relations ∧ p.name ∈ properties) ∨
    (p.source = .inherited ∧ hasParent = true ∧ p.name ∉ relations ∧ p.name ∉ properties) := by
  unfold uriPart at h
  split at h
  · rename_i hrelation
    cases h
    exact .inl ⟨rfl, hrelation⟩
  · rename_i hrelation
    split at h
    · rename_i hproperty
      cases h
      exact .inr (.inl ⟨rfl, hrelation, hproperty⟩)
    · rename_i hproperty
      split at h
      · rename_i hparent
        cases h
        exact .inr (.inr ⟨rfl, hparent, hrelation, hproperty⟩)
      · cases h

/-- All parts of a URI have been looked up. -/
theorem uri_eq_ok {doc : Document} {u : Uri} (h : uri doc relations properties = .ok (some u))
    {p : UriPart} (hp : p ∈ u.parts) :
    ∃ spec, uriPart doc.parent.isSome relations properties spec = .ok p := by
  unfold uri at h
  split at h
  · cases h
  · obtain ⟨parts, hparts, h⟩ := bind_eq_ok h
    cases h
    obtain ⟨spec, -, hspec⟩ := exists_of_mem_mapM (inField_eq_ok hparts) hp
    exact ⟨spec, hspec⟩

end Uri

/-! ## Methods -/

section Methods

variable {method : String}

/-- A method returns nothing, or a value of some type. -/
theorem returns_eq_ok {spec : Option ReturnSpec} {r : Return} (h : returns target spec = .ok r) :
    ((r.type = none ∧ r.rendered = target.language.voidType) ∨
      ∃ t, r.type = some t ∧ Typed target t r.rendered) ∧ r.Noted := by
  unfold returns at h
  cases hspec : spec.bind ReturnSpec.type with
  | none =>
      rw [hspec] at h
      cases h
      exact ⟨.inl ⟨rfl, rfl⟩, rfl, rfl⟩
  | some expr =>
      rw [hspec] at h
      obtain ⟨type, htype, h⟩ := bind_eq_ok h
      obtain ⟨rendered, hrendered, h⟩ := bind_eq_ok h
      cases h
      exact ⟨.inr ⟨type, rfl, .of_eq_ok htype hrendered⟩, rfl, rfl⟩

/-- An argument has a name and a type, and what is noted of it fits the type. -/
theorem argument_eq_ok {spec : ArgumentSpec} {a : Argument} (h : argument target spec = .ok a) :
    a.name = spec.name ∧ Typed target a.type a.rendered ∧ a.Noted := by
  unfold argument at h
  obtain ⟨type, htype, h⟩ := bind_eq_ok h
  obtain ⟨rendered, hrendered, h⟩ := bind_eq_ok h
  obtain ⟨default, -, h⟩ := bind_eq_ok h
  cases h
  exact ⟨rfl, .of_eq_ok htype hrendered, rfl, rfl, rfl⟩

/-- Arguments are resolved one by one, and have different names. -/
theorem argumentsFrom_eq_ok {taken : List String} {specs : List ArgumentSpec}
    {as : List Argument} (h : argumentsFrom target className method taken specs = .ok as) :
    List.Forall₂ (fun spec a => argument target spec = .ok a) specs as ∧
      (as.map Argument.name).Nodup ∧ ∀ name ∈ as.map Argument.name, name ∉ taken := by
  induction specs generalizing taken as with
  | nil =>
      cases h
      exact ⟨.nil, .nil, nofun⟩
  | cons spec specs ih =>
      unfold argumentsFrom at h
      obtain ⟨a, ha, h⟩ := bind_eq_ok h
      obtain ⟨rest, hrest, h⟩ := bind_eq_ok h
      cases h
      obtain ⟨hnew, ha⟩ := guard_eq_ok (inField_eq_ok ha)
      obtain ⟨hall, hnodup, hfree⟩ := ih hrest
      have hname := (argument_eq_ok ha).1
      refine ⟨.cons ha hall, List.nodup_cons.mpr ⟨?_, hnodup⟩, ?_⟩
      · intro hmem
        exact hfree _ hmem (hname ▸ List.mem_cons_self)
      · rw [List.map_cons, List.forall_mem_cons]
        exact ⟨hname ▸ hnew, fun b hb htaken => hfree b hb (List.mem_cons_of_mem _ htaken)⟩

/-- An overload as it was read. -/
structure Read (target : Target) (o : Overload) : Prop where
  returns : (o.returns.type = none ∧ o.returns.rendered = target.language.voidType) ∨
    ∃ t, o.returns.type = some t ∧ Typed target t o.returns.rendered
  arguments : ∀ a ∈ o.arguments, Typed target a.type a.rendered
  names : (o.arguments.map Argument.name).Nodup
  noted : o.Noted

/-- An overload is read from a signature. -/
theorem overload_eq_ok {spec : MethodSpec} {o : Overload}
    (h : overload target className method spec = .ok o) : Read target o := by
  unfold overload at h
  obtain ⟨returns, hreturns, h⟩ := bind_eq_ok h
  obtain ⟨arguments, harguments, h⟩ := bind_eq_ok h
  cases h
  obtain ⟨hall, hnodup, -⟩ := argumentsFrom_eq_ok harguments
  obtain ⟨htyped, hnoted⟩ := returns_eq_ok (inField_eq_ok hreturns)
  have hargument : ∀ a ∈ arguments, Typed target a.type a.rendered ∧ a.Noted := by
    intro a ha
    obtain ⟨spec, -, hspec⟩ := exists_of_mem_right hall ha
    exact (argument_eq_ok hspec).2
  exact ⟨htyped, fun a ha => (hargument a ha).1, hnodup, hnoted, fun a ha => (hargument a ha).2,
    rfl, rfl⟩

theorem signatures_ne_nil (spec : MethodSpec) : signatures spec ≠ [] := by
  unfold signatures
  split <;> exact List.cons_ne_nil _ _

/-- A method has overloads, all of which are read from signatures. -/
theorem methodEntry_eq_ok {entry : Yaml.Value × Yaml.Value} {m : Method}
    (h : methodEntry target className entry = .ok m) :
    m.overloads ≠ [] ∧ (∀ o ∈ m.overloads, Read target o) ∧ m.Noted := by
  unfold methodEntry method at h
  obtain ⟨name, -, h⟩ := bind_eq_ok h
  obtain ⟨spec, -, h⟩ := bind_eq_ok h
  obtain ⟨overloads, hoverloads, h⟩ := bind_eq_ok h
  cases h
  have hread : ∀ o ∈ overloads, Read target o := by
    intro o ho
    obtain ⟨signature, -, hsignature⟩ := exists_of_mem_mapM hoverloads ho
    exact overload_eq_ok hsignature
  refine ⟨?_, hread, rfl, fun o ho => (hread o ho).noted⟩
  rintro rfl
  exact signatures_ne_nil spec (List.forall₂_nil_right_iff.mp (forall₂_of_mapM hoverloads))

end Methods

end Resolve

/-! ## Placeholders -/

namespace Resolve

variable {target : Target} {className : String} {defaults : List String}

/-- Also an overload that is left alone is as if its placeholders had been filled. -/
theorem instantiate_eq_ok {method : String} {o o' : Overload} (hnoted : o.Noted)
    (h : instantiate target className method defaults o = .ok o') :
    o' = { o.fill defaults with candidates := o'.candidates } := by
  unfold instantiate at h
  split at h
  · obtain ⟨candidates, -, h⟩ := bind_eq_ok h
    cases h
    rfl
  · rename_i hplain
    cases h
    rw [hnoted.fill_eq_self (Bool.eq_false_iff.mpr hplain)]

/-- The overloads of a method are filled one by one. -/
theorem instantiateMethod_eq_ok {m m' : Method} (hnoted : m.Noted)
    (h : instantiateMethod target className defaults m = .ok m') :
    m'.isOverloaded = m.isOverloaded ∧
      List.Forall₂ (fun o o' => o' = { o.fill defaults with candidates := o'.candidates })
        m.overloads m'.overloads := by
  unfold instantiateMethod at h
  obtain ⟨overloads, hoverloads, h⟩ := bind_eq_ok h
  cases h
  refine ⟨rfl, ?_⟩
  have hall := (List.forall₂_and_left m.overloads overloads).mpr
    ⟨hnoted.overloads, forall₂_of_mapM hoverloads⟩
  exact hall.imp fun _ _ h => instantiate_eq_ok h.1 h.2

/-! ## Whole documents -/

/-- The candidates of placeholders that name none, in a class where the others name `named`. -/
def defaultCandidates (named : List String) : List String :=
  if named.isEmpty then builtinCandidates else named

/-- The results of the steps of a successful resolution. -/
structure Steps (target : Target) (doc : Document) where
  properties : List Property
  relations : List Relation
  uri : Option Uri
  methods : List Method
  /-- The methods, with candidates for all placeholders. -/
  instantiated : List Method
  ofProperties : Resolve.properties target doc = .ok properties
  ofRelations : relationsFrom target doc.name (properties.map Property.path) []
    (doc.relations.getD []) = .ok relations
  ofUri : Resolve.uri doc (relations.map Relation.name) (properties.map Property.path) = .ok uri
  ofMethods : (doc.methods.getD []).mapM (methodEntry target doc.name) = .ok methods
  ofInstantiated : methods.mapM (instantiateMethod target doc.name
    (defaultCandidates (namedCandidates properties methods))) = .ok instantiated

namespace Steps

variable {doc : Document} (s : Steps target doc)

/-- The candidates that are named in the class. -/
def named : List String := namedCandidates s.properties s.methods

/-- The properties after their placeholders are filled. -/
def filled : List Property := s.properties.map (Property.fill (defaultCandidates s.named))

/-- The class that the steps give. -/
def model : ClassModel where
  name := doc.name
  ns := target.ns
  language := target.language
  parent := doc.parent
  properties := sortBy Property.path s.filled
  relations := sortBy Relation.name s.relations
  methods := s.instantiated
  referenced := mentioned s.filled s.relations s.instantiated
  uri := s.uri
  templateTypes := s.named

/-- The properties are those of the leaves. -/
theorem exists_leaves : ∃ nodes, leaves (doc.properties.getD []) = .ok nodes ∧
    propertiesFrom target doc.name [] nodes = .ok s.properties := by
  have h := s.ofProperties
  unfold Resolve.properties at h
  obtain ⟨nodes, hnodes, h⟩ := bind_eq_ok h
  exact ⟨nodes, inField_eq_ok hnodes, h⟩

theorem paths_perm :
    (s.model.properties.map Property.path).Perm (s.properties.map Property.path) := by
  have hsorted := (sortBy_perm Property.path s.filled).map Property.path
  have hfilled : s.filled.map Property.path = s.properties.map Property.path := by
    rw [filled, List.map_map]
    rfl
  exact hfilled ▸ hsorted

theorem names_perm :
    (s.model.relations.map Relation.name).Perm (s.relations.map Relation.name) :=
  (sortBy_perm Relation.name s.relations).map Relation.name

/-- The properties of a class have different paths. -/
theorem paths_nodup : (s.model.properties.map Property.path).Nodup := by
  obtain ⟨nodes, -, hnodes⟩ := s.exists_leaves
  exact s.paths_perm.nodup_iff.mpr (propertiesFrom_eq_ok hnodes).2.1

/-- Its relations have different names. -/
theorem names_nodup : (s.model.relations.map Relation.name).Nodup :=
  s.names_perm.nodup_iff.mpr (relationsFrom_eq_ok s.ofRelations).2.1

/-- No relation has the path of a property as its name. -/
theorem not_mem_paths {name : String} (h : name ∈ s.model.relations.map Relation.name) :
    name ∉ s.model.properties.map Property.path := by
  rw [s.paths_perm.mem_iff]
  exact ((relationsFrom_eq_ok s.ofRelations).2.2 name (s.names_perm.mem_iff.mp h)).2

end Steps

/-- A class that is resolved is the model of some steps. -/
theorem exists_steps {doc : Document} {c : ClassModel} (h : resolve target doc = .ok c) :
    ∃ s : Steps target doc, c = s.model := by
  unfold resolve at h
  obtain ⟨properties, hproperties, h⟩ := bind_eq_ok h
  obtain ⟨relations, hrelations, h⟩ := bind_eq_ok h
  obtain ⟨uri, huri, h⟩ := bind_eq_ok h
  obtain ⟨methods, hmethods, h⟩ := bind_eq_ok h
  obtain ⟨instantiated, hinstantiated, h⟩ := bind_eq_ok h
  cases h
  exact ⟨⟨properties, relations, uri, methods, instantiated, hproperties, hrelations, huri,
    hmethods, hinstantiated⟩, rfl⟩

end Resolve

end ClassSchema
