import ClassSchema.Artifact
import ClassSchema.Proofs.Artifact.Lines
import ClassSchema.Proofs.Resolve.Candidates

/-! # Methods in the files of a class

The header of the user's class declares the methods, its source defines them, and the bindings make
them known to Python. Each of the three files has one piece for each overload, all in the same
order, and depends on the methods in no other way. Whether an overload is a template is noted when
it is read, and it is seen from the type variables that are met in its types. As the two agree, each
overload has one body, in the header or in the source, and it is bound. -/

namespace ClassSchema

/-! ## One piece for each overload -/

/-- The overloads with their methods, in order. -/
def overloadsOf (methods : List Method) : List (Method × Overload) :=
  methods.flatMap fun m => m.overloads.map (Prod.mk m)

/-- What is made for the overloads of each method is made for all overloads in their order. -/
theorem flatMap_overloadsOf {α : Type} (f : Method → Overload → List α) (methods : List Method) :
    (methods.flatMap fun m => m.overloads.flatMap (f m))
      = (overloadsOf methods).flatMap fun p => f p.1 p.2 := by
  rw [overloadsOf, List.flatMap_assoc]
  refine List.flatMap_congr fun m _ => ?_
  rw [List.flatMap_map]

namespace Artifact

/-- The file has a piece for each overload, one behind another, and depends on the methods nowhere
else. -/
def Inserts (kind : ArtifactKind) (context : Context) (c : ClassModel)
    (piece : Method → Overload → String) : Prop :=
  ∃ before after, ∀ methods, renderClass kind context { c with methods }
    = .ok (before ++ Text.join "" ((overloadsOf methods).map fun p => piece p.1 p.2) ++ after)

/-- The text for an overload in the header of the user. -/
def declarationText (c : ClassModel) (m : Method) (o : Overload) : String :=
  Lines.text (Lines.indent 8 (overloadDeclaration c.name m o))

/-- The text for an overload in the source of the user. -/
def definitionText (c : ClassModel) (m : Method) (o : Overload) : String :=
  Lines.text (Lines.indent 4 (overloadDefinition c.name m o))

/-- The bindings stand in one chain of calls, and therefore have their line breaks in front. -/
def bindingText (c : ClassModel) (m : Method) (o : Overload) : String :=
  Text.join "" ((Lines.indent 8 (overloadBinding c.qualifiedName m o)).map ("\n" ++ ·))

section Frames

variable (context : Context) {c : ClassModel} (h : c.language = .cpp)

/-- The part that depends on the methods lies between two that do not. -/
theorem exists_frame (head : List String) (title : String) (fixed last : List String)
    (part : List Method → List String) : ∃ before after, ∀ methods,
      head ++ title :: Lines.braces (fixed ++ part methods ++ last)
        = before ++ Lines.indent 4 (part methods) ++ after := by
  refine ⟨head ++ title :: "\x7b" :: Lines.indent 4 fixed, Lines.indent 4 last ++ ["\x7d"], ?_⟩
  intro methods
  simp [Lines.braces, Lines.indent_append]

theorem indent_overloadsOf (n : Nat) (f : Method → Overload → List String) (methods : List Method) :
    Lines.indent n (methods.flatMap fun m => m.overloads.flatMap (f m))
      = (overloadsOf methods).flatMap fun p => Lines.indent n (f p.1 p.2) := by
  rw [flatMap_overloadsOf]
  exact List.map_flatMap

/-- The text of a file with such a part: one piece for each overload, in a frame. -/
theorem text_frame (n : Nat) (before after : List String) (f : Method → Overload → List String)
    (methods : List Method) :
    Lines.text (before ++ Lines.indent n (methods.flatMap fun m => m.overloads.flatMap (f m))
        ++ after)
      = Lines.text before ++ Text.join "" ((overloadsOf methods).map fun p =>
        Lines.text (Lines.indent n (f p.1 p.2))) ++ Lines.text after := by
  rw [Lines.text_append, Lines.text_append, indent_overloadsOf, Lines.text_flatMap]

/-- A class is rendered as the text of its lines if it is resolved for the language of the file. -/
theorem renderClass_eq {kind : ArtifactKind} {lines : List String}
    (hlines : classLines context c kind = some lines) (h : c.language = kind.language) :
    renderClass kind context c = .ok (Lines.text lines) := by
  rw [renderClass, hlines]
  exact if_pos h

include h

/-- The header of the user. -/
theorem inserts_declarations : Inserts .skeletonHeader context c (declarationText c) := by
  obtain ⟨before, after, hframe⟩ : ∃ before after, ∀ methods,
      skeletonHeader context { c with methods } = before ++ Lines.indent 8 (methods.flatMap fun m =>
        m.overloads.flatMap (overloadDeclaration c.name m)) ++ after := by
    simp only [skeletonHeader, ClassModel.customSetters, ClassModel.customAdders,
      ClassModel.baseName, Lines.indent_append, ← List.append_assoc]
    obtain ⟨before, after, hframe⟩ := exists_frame _ _ _ _ (fun methods => Lines.indent 4
      (methods.flatMap fun m => m.overloads.flatMap (overloadDeclaration c.name m)))
    simp only [Lines.indent_indent] at hframe
    exact ⟨before, after, hframe⟩
  refine ⟨Lines.text before, Lines.text after, fun methods => ?_⟩
  rw [renderClass_eq context rfl h, hframe, text_frame]
  rfl

/-- The source of the user. -/
theorem inserts_definitions : Inserts .skeletonSource context c (definitionText c) := by
  obtain ⟨before, after, hframe⟩ : ∃ before after, ∀ methods,
      skeletonSource context { c with methods } = before ++ Lines.indent 4 (methods.flatMap fun m =>
        m.overloads.flatMap (overloadDefinition c.name m)) ++ after := by
    simp only [skeletonSource, ClassModel.customSetters, ClassModel.customAdders,
      ClassModel.baseName]
    obtain ⟨before, after, hframe⟩ := exists_frame _ _ _ [] (fun methods =>
      methods.flatMap fun m => m.overloads.flatMap (overloadDefinition c.name m))
    simp only [List.append_nil] at hframe
    exact ⟨before, after, hframe⟩
  refine ⟨Lines.text before, Lines.text after, fun methods => ?_⟩
  rw [renderClass_eq context rfl h, hframe, text_frame]
  rfl

/-- The bindings. -/
theorem inserts_bindings : Inserts .binding context c (bindingText c) := by
  have hname (methods : List Method) :
      ({ c with methods } : ClassModel).qualifiedName = c.qualifiedName := rfl
  have hparent (methods : List Method) :
      ({ c with methods } : ClassModel).qualifiedParent = c.qualifiedParent := rfl
  obtain ⟨before, after, hframe⟩ : ∃ before after, ∀ methods,
      Lines.text (binding context { c with methods }) = before ++ Text.join "" ((Lines.indent 8
        (methods.flatMap fun m => m.overloads.flatMap (overloadBinding c.qualifiedName m))).map
          ("\n" ++ ·)) ++ after := by
    have htail (s t : String) : s ++ t ++ ";" ++ "\n" ++ "\x7d" ++ "\n" ++ ""
        = s ++ t ++ ";\n\x7d\n" := by
      simp only [String.append_assoc]
      rfl
    simp only [binding, hname, hparent, Lines.indent_append, Text.join_cons_append,
      Lines.text_append, Lines.text, ← String.append_assoc]
    exact ⟨_, _, fun methods => htail _ _⟩
  refine ⟨before, after, fun methods => ?_⟩
  rw [renderClass_eq context rfl h, hframe, indent_overloadsOf, List.map_flatMap,
    Text.join_empty_flatMap]
  rfl

end Frames

end Artifact

/-! ## Templates -/

namespace Overload

variable (o : Overload)

/-- The type variables are those of the placeholders, each where it is met first. -/
theorem firstMet_typeVariables :
    FirstMet ((o.types.flatMap TypeExpr.nodes).filterMap TypeExpr.typeVariable?)
      o.typeVariables := by
  rw [firstMet_iff, typeVariables, Artifact.typeVariables, TypeExpr.flatMap_typeVariables,
    TypeExpr.nodesIn_eq]

variable {o} (hnoted : o.Noted)

include hnoted

/-- There are type variables if and only if a template has been noted. -/
theorem typeVariables_ne_nil_iff : o.typeVariables ≠ [] ↔ o.isTemplate = true := by
  rw [hnoted.isTemplate_eq, List.any_eq_true]
  constructor
  · intro hne
    obtain ⟨v, hv⟩ := List.exists_mem_of_ne_nil _ hne
    obtain ⟨t, ht, hv⟩ := List.mem_flatMap.mp (mem_firstOccurrences.mp hv)
    refine ⟨t, ht, ?_⟩
    rw [TypeExpr.hasPlaceholder, Bool.not_eq_true', List.isEmpty_eq_false_iff_exists_mem]
    exact ⟨v, hv⟩
  · rintro ⟨t, ht, hholds⟩
    rw [TypeExpr.hasPlaceholder, Bool.not_eq_true', List.isEmpty_eq_false_iff_exists_mem] at hholds
    obtain ⟨v, hv⟩ := hholds
    exact List.ne_nil_of_mem (mem_firstOccurrences.mpr (List.mem_flatMap.mpr ⟨t, ht, hv⟩))

/-- Without type variables there is no template. -/
theorem isTemplate_of_nil (h : o.typeVariables = []) : o.isTemplate = false := by
  rw [← Bool.not_eq_true, ← typeVariables_ne_nil_iff hnoted, ne_eq, not_not]
  exact h

/-- With a type variable there is one. -/
theorem isTemplate_of_cons {v : String} {vs : List String} (h : o.typeVariables = v :: vs) :
    o.isTemplate = true := by
  rw [← typeVariables_ne_nil_iff hnoted, h]
  exact List.cons_ne_nil v vs

end Overload

/-! ## Declarations and definitions -/

namespace Artifact

/-- A signature: what stands before the name, the name, the parameters and if it is constant. -/
def signatureLine (lead name : String) (parameters : List String) (isConst : Bool) : String :=
  lead ++ name ++ "(" ++ Text.join ", " parameters ++ ")" ++ (if isConst then " const" else "")

/-- The lines declare the overload: a comment, and the signature, in which default values may stand
behind the parameters. Only the declaration of a template goes on with a body. -/
def Declares (className : String) (m : Method) (o : Overload) (lines : List String) : Prop :=
  ∃ comments parameters, (∀ line ∈ comments, Text.startsWith "///" line = true) ∧
    List.Forall₂ (fun p q => q = p ∨ ∃ value, q = p ++ " = " ++ value)
      (o.arguments.map Argument.parameter) parameters ∧
    ∃ signature, signature = signatureLine ((if o.isStatic then "static " else "")
        ++ o.returns.rendered ++ " ") m.name parameters o.isConstMember ∧
      lines = "" :: comments ++
        if o.isTemplate then
          [templateHead o.typeVariables, signature]
            ++ Lines.braces [notImplemented className m.name]
        else [signature ++ ";"]

/-- The lines define the overload, under its full name and with the parameters alone. The type of
the result is the same unless it is itself called static. -/
def Defines (className : String) (m : Method) (o : Overload) (lines : List String) : Prop :=
  ∃ lead, (Text.startsWith "static " (o.returns.rendered ++ " ") = false →
      lead = o.returns.rendered ++ " ") ∧
    lines = ["", signatureLine lead (className ++ "::" ++ m.name)
      (o.arguments.map Argument.parameter) o.isConstMember]
        ++ Lines.braces [notImplemented className m.name]

section Pieces

variable (className : String) (m : Method) (o : Overload)

/-- What stands before a signature can be put before its result. -/
theorem signatureLine_append (s t name : String) (parameters : List String) (isConst : Bool) :
    signatureLine (s ++ t) name parameters isConst
      = s ++ signatureLine t name parameters isConst := by
  simp only [signatureLine, String.append_assoc]

/-- A description is written in comments. -/
theorem startsWith_descriptionComment {description line : String}
    (h : line ∈ descriptionComment description) : Text.startsWith "///" line = true := by
  obtain ⟨l, -, rfl⟩ := List.mem_map.mp h
  rw [Text.startsWith_iff]
  dsimp only
  split
  · exact ⟨"", rfl⟩
  · exact ⟨" " ++ String.ofList (Chars.trimEnd l), by rw [← String.append_assoc]; rfl⟩

/-- Parameters are the same with defaults and without, but for the defaults. -/
theorem forall₂_parameters : List.Forall₂ (fun p q => q = p ∨ ∃ value, q = p ++ " = " ++ value)
    (o.arguments.map Argument.parameter) (o.arguments.map Argument.parameterWithDefault) := by
  rw [List.forall₂_map_left_iff, List.forall₂_map_right_iff, List.forall₂_same]
  intro a _
  rw [Argument.parameterWithDefault]
  cases a.default with
  | none => exact .inl rfl
  | some value => exact .inr ⟨value, rfl⟩

/-- The lines for the header declare the overload. -/
theorem declares_overloadDeclaration (hnoted : o.Noted) :
    Declares className m o (overloadDeclaration className m o) := by
  refine ⟨descriptionComment (o.descriptionIn m), o.arguments.map Argument.parameterWithDefault,
    fun _ => startsWith_descriptionComment, forall₂_parameters o, _, rfl, ?_⟩
  cases hvariables : o.typeVariables with
  | nil =>
      rw [Overload.isTemplate_of_nil hnoted hvariables, overloadDeclaration, hvariables]
      rfl
  | cons v vs =>
      rw [Overload.isTemplate_of_cons hnoted hvariables, overloadDeclaration, hvariables]
      rfl

/-- If a text that starts with `static` has a blank, the word ends there at the latest. -/
theorem exists_of_static {r s t : String} (h : r ++ " " ++ s = "static " ++ t) :
    ∃ rest, r ++ " " = "static " ++ rest ∧ t = rest ++ s := by
  have hlist := congrArg String.toList h
  simp only [String.toList_append] at hlist
  rcases List.append_eq_append_iff.mp hlist with ⟨rest, hstatic, hs⟩ | ⟨rest, hr, ht⟩
  · -- The blank after `r` is the one after `static`, which has no other.
    rcases List.eq_nil_or_concat rest with rfl | ⟨init, z, rfl⟩
    · refine ⟨"", ?_, ?_⟩
      · rw [← String.toList_inj]
        simpa using hstatic.symm
      · rw [← String.toList_inj]
        simpa using hs.symm
    · have hinit : "static".toList ++ [' '] = (r.toList ++ " ".toList ++ init) ++ [z] := by
        rw [List.append_assoc _ init]
        exact hstatic.trans (congrArg _ List.concat_eq_append)
      have hblank : ' ' ∈ "static".toList := by
        rw [(List.append_inj' hinit rfl).1]
        simp
      exact absurd hblank (by decide)
  · refine ⟨String.ofList rest, ?_, ?_⟩
    · rw [← String.toList_inj]
      simpa using hr
    · rw [← String.toList_inj]
      simpa using ht

/-- The lines for the source define an overload that is no template. -/
theorem defines_overloadDefinition (h : o.isTemplate = false) :
    Defines className m o (overloadDefinition className m o) := by
  have hsignature : o.signature (className ++ "::" ++ m.name) false
      = (if o.isStatic then "static " else "") ++ signatureLine (o.returns.rendered ++ " ")
        (className ++ "::" ++ m.name) (o.arguments.map Argument.parameter) o.isConstMember := by
    rw [← signatureLine_append, ← String.append_assoc]
    rfl
  rw [Defines, overloadDefinition, if_neg (h ▸ Bool.false_ne_true)]
  dsimp only
  rw [hsignature]
  generalize className ++ "::" ++ m.name = name
  by_cases hstatic : o.isStatic = true
  · refine ⟨o.returns.rendered ++ " ", fun _ => rfl, ?_⟩
    rw [if_pos hstatic, Text.stripStart?_eq_some.mpr rfl]
    rfl
  rw [if_neg hstatic, String.empty_append]
  cases hstrip : Text.stripStart? "static " (signatureLine (o.returns.rendered ++ " ") name
      (o.arguments.map Argument.parameter) o.isConstMember) with
  | none => exact ⟨o.returns.rendered ++ " ", fun _ => rfl, rfl⟩
  | some rest =>
      have hrest := Text.stripStart?_eq_some.mp hstrip
      rw [← String.append_empty (s := o.returns.rendered ++ " "), signatureLine_append] at hrest
      obtain ⟨lead, hlead, rfl⟩ := exists_of_static hrest
      refine ⟨lead, ?_, ?_⟩
      · intro hplain
        rw [Text.startsWith_iff.mpr ⟨lead, hlead⟩] at hplain
        cases hplain
      · rw [Option.getD_some, ← signatureLine_append, String.append_empty]

theorem ne_brace_of_mem {line : String} {a : Char} (h : a ∈ line.toList) (ha : a ≠ '\x7b') :
    line ≠ "\x7b" := by
  rintro rfl
  exact ha (List.mem_singleton.mp h)

/-- A body has one opening brace at its margin. -/
theorem count_braces (body : List String) : (Lines.braces body).count "\x7b" = 1 := by
  have hbody : "\x7b" ∉ Lines.indent 4 body :=
    fun h => Lines.ne_of_mem_indent (.inl rfl) h rfl
  rw [Lines.braces, List.cons_append, List.count_cons_self, List.count_append,
    List.count_eq_zero.mpr hbody]
  rfl

/-- A declaration opens a body if it is that of a template. -/
theorem count_overloadDeclaration (hnoted : o.Noted) :
    (overloadDeclaration className m o).count "\x7b" = if o.isTemplate then 1 else 0 := by
  obtain ⟨comments, parameters, hcomments, -, signature, rfl, hdeclaration⟩ :=
    declares_overloadDeclaration className m o hnoted
  have hcomment : "\x7b" ∉ comments := fun h => absurd (hcomments _ h) (by decide)
  have hsignature (lead tail : String) :
      signatureLine lead m.name parameters o.isConstMember ++ tail ≠ "\x7b" :=
    ne_brace_of_mem (a := '(') (by simp [signatureLine]) (by decide)
  have hhead : templateHead o.typeVariables ≠ "\x7b" :=
    ne_brace_of_mem (a := '<') (by simp [templateHead]) (by decide)
  rw [hdeclaration, List.cons_append, List.count_cons_of_ne (by decide), List.count_append,
    List.count_eq_zero.mpr hcomment, Nat.zero_add]
  by_cases htemplate : o.isTemplate = true
  · have hplain (lead : String) := hsignature lead ""
    simp only [String.append_empty] at hplain
    rw [if_pos htemplate, if_pos htemplate, List.count_append, List.count_cons_of_ne hhead,
      List.count_cons_of_ne (hplain _), count_braces]
    rfl
  · rw [if_neg htemplate, if_neg htemplate, List.count_cons_of_ne (hsignature _ ";")]
    rfl

/-- A body is defined in the source unless the overload is a template. -/
theorem count_overloadDefinition :
    (overloadDefinition className m o).count "\x7b" = if o.isTemplate then 0 else 1 := by
  by_cases htemplate : o.isTemplate = true
  · rw [overloadDefinition, if_pos htemplate, if_pos htemplate]
    rfl
  · obtain ⟨lead, -, hdefinition⟩ :=
      defines_overloadDefinition className m o (Bool.eq_false_iff.mpr htemplate)
    have hsignature : signatureLine lead (className ++ "::" ++ m.name)
        (o.arguments.map Argument.parameter) o.isConstMember ≠ "\x7b" :=
      ne_brace_of_mem (a := '(') (by simp [signatureLine]) (by decide)
    rw [hdefinition, if_neg htemplate, List.count_append, List.count_cons_of_ne (by decide),
      List.count_cons_of_ne hsignature, count_braces]
    rfl

/-! ## Bindings -/

/-- A template is bound once for each of its instances, all others once. -/
theorem length_overloadBinding (qualified : String) (hnoted : o.Noted) :
    (overloadBinding qualified m o).length = if o.isTemplate then o.instances.length else 1 := by
  cases hvariables : o.typeVariables with
  | nil =>
      rw [Overload.isTemplate_of_nil hnoted hvariables, overloadBinding, hvariables]
      rfl
  | cons v vs =>
      rw [Overload.isTemplate_of_cons hnoted hvariables, overloadBinding, hvariables]
      exact List.length_map _

/-- Each binding is one of the method. -/
theorem startsWith_overloadBinding {qualified line : String}
    (h : line ∈ overloadBinding qualified m o) :
    Text.startsWith ("." ++ (if o.isStatic then "def_static" else "def") ++ "(\"" ++ m.name
      ++ "\", ") line = true := by
  have hplain (define name target trailing : String) :
      s!".{define}(\"{name}\", {target}{trailing})"
        = "." ++ define ++ "(\"" ++ name ++ "\", " ++ s!"{target}{trailing})" := by
    rw [← String.toList_inj]
    simp [toString]
  have htemplate (define name arguments trailing : String) :
      s!".{define}(\"{name}\", &{qualified}::template {name}< {arguments} >{trailing})"
        = "." ++ define ++ "(\"" ++ name ++ "\", "
          ++ s!"&{qualified}::template {name}< {arguments} >{trailing})" := by
    rw [← String.toList_inj]
    simp [toString]
  rw [Text.startsWith_iff]
  cases hvariables : o.typeVariables with
  | nil =>
      rw [overloadBinding, hvariables] at h
      rw [List.mem_singleton.mp h]
      exact ⟨_, hplain _ _ _ _⟩
  | cons v vs =>
      rw [overloadBinding, hvariables] at h
      obtain ⟨type, -, rfl⟩ := List.mem_map.mp h
      exact ⟨_, htemplate _ _ _ _⟩

end Pieces

/-- What the three files have for an overload. Its declaration and its definition have the same
parameters and are both constant or not. Of the two one has a body, and there is at least one
binding. -/
structure Emitted (c : ClassModel) (m : Method) (o : Overload) : Prop where
  walk_eq : TypeExpr.walk [] o.types = o.typeVariables
  firstMet : FirstMet ((o.types.flatMap TypeExpr.nodes).filterMap TypeExpr.typeVariable?)
    o.typeVariables
  ne_nil_iff : o.typeVariables ≠ [] ↔ o.isTemplate = true
  declaration : Declares c.name m o (overloadDeclaration c.name m o)
  definition : o.isTemplate = false → Defines c.name m o (overloadDefinition c.name m o)
  inline_iff : "\x7b" ∈ overloadDeclaration c.name m o ↔ overloadDefinition c.name m o = []
  body : (overloadDeclaration c.name m o ++ overloadDefinition c.name m o).count "\x7b" = 1
  binding : ∀ line ∈ overloadBinding c.qualifiedName m o, Text.startsWith ("." ++
    (if o.isStatic then "def_static" else "def") ++ "(\"" ++ m.name ++ "\", ") line = true
  plain_binding : o.isTemplate = false → (overloadBinding c.qualifiedName m o).length = 1
  template_binding : o.isTemplate = true → 1 ≤ (overloadBinding c.qualifiedName m o).length

/-- What is written for an overload, if a template has instances. -/
theorem emitted (c : ClassModel) (m : Method) {o : Overload} (hnoted : o.Noted)
    (h : o.isTemplate = true → o.instances ≠ []) : Emitted c m o where
  walk_eq := (TypeExpr.typeVariables_eq_walk o.types).symm
  firstMet := o.firstMet_typeVariables
  ne_nil_iff := Overload.typeVariables_ne_nil_iff hnoted
  declaration := declares_overloadDeclaration c.name m o hnoted
  definition := defines_overloadDefinition c.name m o
  inline_iff := by
    have hdeclaration := count_overloadDeclaration c.name m o hnoted
    have hdefinition := count_overloadDefinition c.name m o
    by_cases htemplate : o.isTemplate = true
    · rw [if_pos htemplate] at hdeclaration
      refine iff_of_true (List.count_pos_iff.mp (hdeclaration ▸ Nat.one_pos)) ?_
      rw [overloadDefinition, if_pos htemplate]
    · rw [if_neg htemplate] at hdeclaration hdefinition
      refine iff_of_false (List.count_eq_zero.mp hdeclaration) ?_
      intro hnil
      rw [hnil] at hdefinition
      cases hdefinition
  body := by
    rw [List.count_append, count_overloadDeclaration _ _ _ hnoted, count_overloadDefinition]
    by_cases htemplate : o.isTemplate = true
    · rw [if_pos htemplate, if_pos htemplate]
    · rw [if_neg htemplate, if_neg htemplate]
  binding _ := startsWith_overloadBinding m o
  plain_binding hplain := by
    rw [length_overloadBinding _ _ _ hnoted, hplain]
    rfl
  template_binding htemplate := by
    rw [length_overloadBinding _ _ _ hnoted, if_pos htemplate]
    exact List.length_pos_of_ne_nil (h htemplate)

end Artifact

/-- The template flag as it is known from the texts of the types. -/
theorem Resolve.Written.isTemplate_iff {target : Target} {named : List String} {spec : MethodSpec}
    {o : Overload} (h : Written target named spec o) : o.isTemplate = true ↔
      ∃ text ∈ spec.typeTexts, ∃ t, TypeExpr.parse text = .ok t ∧ t.HoldsPlaceholder := by
  rw [h.noted.isTemplate_eq, List.any_eq_true]
  refine (exists_mem_iff_of_forall₂ ?_ h.types).symm
  rintro text _ ⟨u, hu, rfl⟩
  rw [TypeExpr.hasPlaceholder_fill, TypeExpr.hasPlaceholder_iff, hu]
  constructor
  · rintro ⟨t, ht, hholds⟩
    cases ht
    exact hholds
  · intro hholds
    exact ⟨u, rfl, hholds⟩

/-- The files of a class that is resolved: a template is a method with a placeholder in its
signature, each file has its pieces in the order of the overloads, and the pieces of an overload
agree. -/
theorem emitted_of_resolve {ns : String} {doc : Document} {c : ClassModel}
    (h : resolve ⟨ns, .cpp⟩ doc = .ok c) (context : Artifact.Context) :
    List.Forall₂ (fun spec o => o.isTemplate = true ↔ ∃ text ∈ spec.typeTexts, ∃ t,
        TypeExpr.parse text = .ok t ∧ t.HoldsPlaceholder) doc.signatures c.overloads ∧
      Artifact.Inserts .skeletonHeader context c (Artifact.declarationText c) ∧
      Artifact.Inserts .skeletonSource context c (Artifact.definitionText c) ∧
      Artifact.Inserts .binding context c (Artifact.bindingText c) ∧
      ∀ m ∈ c.methods, ∀ o ∈ m.overloads, Artifact.Emitted c m o := by
  obtain ⟨s, rfl⟩ := Resolve.exists_steps h
  refine ⟨s.written.imp fun _ _ hwritten => hwritten.isTemplate_iff,
    Artifact.inserts_declarations context rfl, Artifact.inserts_definitions context rfl,
    Artifact.inserts_bindings context rfl, ?_⟩
  intro m hm o ho
  obtain ⟨spec, -, hwritten⟩ :=
    exists_of_mem_right s.written (List.mem_flatMap.mpr ⟨m, hm, ho⟩)
  exact Artifact.emitted s.model m hwritten.noted hwritten.instances_ne_nil

/-- A method with two overloads, of which the second is a template without candidates of its own. -/
def storeDocument : Document where
  name := "Store"
  methods := some [(.string "put", .mapping [(.string "overrides", .sequence [
    .mapping [(.string "static", .bool true), (.string "arguments", .sequence [
      .mapping [(.string "name", .string "key"), (.string "type", .string "STRING"),
        (.string "default", .string "none")]])],
    .mapping [(.string "arguments", .sequence [
      .mapping [(.string "name", .string "values"),
        (.string "type", .string "MAP(TEMPLATE:2, VECTOR(TEMPLATE:1))")],
      .mapping [(.string "name", .string "last"), (.string "type", .string "TEMPLATE:2")]])]])])]

/-- A plain overload, and a template over two variables with its instances. -/
theorem emitted_storeDocument : ∃ c, resolve ⟨"robot", .cpp⟩ storeDocument = .ok c ∧
    c.overloads.map Overload.typeVariables = [[], ["T2", "T1"]] ∧
    c.overloads.map (·.instances.length) = [0, 5] ∧
    ∀ m ∈ c.methods, ∀ o ∈ m.overloads, Artifact.Emitted c m o := by
  obtain ⟨c, hc, hvariables, hinstances⟩ :
      ∃ c, resolve ⟨"robot", .cpp⟩ storeDocument = .ok c ∧
        c.overloads.map Overload.typeVariables = [[], ["T2", "T1"]] ∧
        c.overloads.map (·.instances.length) = [0, 5] := by
    decide +kernel
  exact ⟨c, hc, hvariables, hinstances, (emitted_of_resolve hc ⟨"robot", ""⟩).2.2.2.2⟩

end ClassSchema
