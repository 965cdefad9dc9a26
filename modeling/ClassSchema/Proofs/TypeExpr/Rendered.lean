import ClassSchema.Proofs.ClassName
import ClassSchema.Proofs.Computation
import ClassSchema.Proofs.Text.Substitute
import ClassSchema.Proofs.TypeExpr.Fill
import ClassSchema.TypeExpr.Parser

/-! # Containers with their arguments

A type can be written if each of its containers has as many arguments as parameters. The arguments
are put in for one parameter after the other, and what was put in is searched for the next
parameters. So they only come to stand in their places if none of them brings a token along. -/

namespace ClassSchema

namespace Container

/-- The name of a container in a type. -/
def name : Container → String
  | .vector => "VECTOR"
  | .set => "SET"
  | .unorderedSet => "UNORDERED_SET"
  | .map => "MAP"
  | .unorderedMap => "UNORDERED_MAP"
  | .pair => "PAIR"

/-- A container is found by its name and no other. -/
theorem ofName?_eq_some_iff {base : String} {container : Container} :
    ofName? base = some container ↔ base = container.name := by
  constructor
  · intro h
    unfold ofName? at h
    split at h <;> cases h <;> rfl
  · rintro rfl
    cases container <;> rfl

/-- How a parameter is spelled in a template. -/
def token (param : String) : String := "@" ++ param ++ "@"

/-- A token is the same for texts and for their characters. -/
theorem toList_token (param : String) : (token param).toList = Chars.token param.toList := by
  rw [token, String.toList_append, String.toList_append]
  rfl

/-! ## The frame of a template -/

/-- What ends a container. -/
def closing : Language → List Char
  | .cpp => " >".toList
  | .python => "]".toList

section Frame

variable (language : Language) (container : Container)

/-- What stands before the first argument. -/
def opening : List Char := (container.template language).toList.takeWhile (· != '@')

/-- What stands behind each of the arguments. -/
def gaps : List (List Char) :=
  container.params.tail.map (fun _ => ", ".toList) ++ [closing language]

/-- A template is its frame, with the tokens of the parameters in it. -/
theorem template_eq :
    (container.template language).toList = Chars.weave (container.opening language)
      (container.gaps language) ((container.params.map String.toList).map Chars.token) := by
  cases language <;> cases container <;> rfl

/-- There is no token in what stands before the first argument. -/
theorem not_mem_opening : '@' ∉ container.opening language := by
  intro h
  exact absurd (List.mem_takeWhile_imp h) (by simp)

/-- The tokens of a template are kept apart by what stands between them. -/
theorem apart_gaps :
    Chars.Apart (container.params.map String.toList) (container.gaps language) := by
  cases language <;> cases container <;> decide

end Frame

/-- Arguments without tokens come to stand where the tokens of their parameters were. -/
theorem toList_instantiate {first : List Char} {gaps : List (List Char)}
    {params texts : List String} {text : String}
    (htext : text.toList = Chars.weave first gaps ((params.map String.toList).map Chars.token))
    (hfirst : '@' ∉ first) (happart : Chars.Apart (params.map String.toList) gaps)
    (hlength : texts.length = params.length) (hfree : ∀ text ∈ texts, '@' ∉ text.toList) :
    (instantiate text params texts).toList = Chars.weave first gaps (texts.map String.toList) := by
  -- What stands before the next token grows by an argument in each step, and holds no token as long
  -- as no argument does.
  induction params generalizing first gaps texts text with
  | nil =>
      obtain rfl := List.length_eq_zero_iff.mp hlength
      exact htext
  | cons param params ih =>
      cases gaps with
      | nil => cases happart
      | cons gap gaps =>
          cases texts with
          | nil => cases hlength
          | cons arg args =>
              obtain ⟨-, hgap, -, hbehind, happart⟩ := happart
              rw [List.forall_mem_cons] at hfree
              have hreplace : (Text.replace (token param) arg text).toList
                  = Chars.weave (first ++ arg.toList ++ gap) gaps
                      ((params.map String.toList).map Chars.token) := by
                rw [Text.replace, String.toList_ofList, toList_token, htext, Chars.weave_append]
                exact (Chars.replace_append _ _ hfirst).trans
                  (congrArg _ (Chars.replace_eq_self hbehind))
              have hnext : '@' ∉ first ++ arg.toList ++ gap := by
                simp [hfirst, hfree.1, hgap]
              show (instantiate (Text.replace (token param) arg text) params args).toList = _
              rw [ih hreplace hnext happart (Nat.succ.inj hlength) hfree.2, Chars.weave_append]
              rfl

section Instantiate

variable {language : Language} {container : Container} {texts : List String}
variable (hlength : texts.length = container.params.length)
variable (hfree : ∀ text ∈ texts, '@' ∉ text.toList)

include hlength hfree

/-- So it is for the template of each container. -/
theorem toList_instantiate_template :
    (instantiate (container.template language) container.params texts).toList
      = Chars.weave (container.opening language) (container.gaps language)
          (texts.map String.toList) :=
  toList_instantiate (template_eq language container) (not_mem_opening language container)
    (apart_gaps language container) hlength hfree

/-- Nothing is left that may be taken for a token. -/
theorem not_mem_instantiate :
    '@' ∉ (instantiate (container.template language) container.params texts).toList := by
  rw [toList_instantiate_template hlength hfree]
  apply Chars.not_mem_weave (not_mem_opening language container)
    (apart_gaps language container).not_mem_gap
  rw [List.forall_mem_map]
  exact hfree

end Instantiate

end Container

namespace TypeExpr

/-- Every composite type is a container with an argument for each of its parameters. -/
def Saturated (t : TypeExpr) : Prop :=
  ∀ base args source, (composite base args source).Within t →
    ∃ container : Container, base = container.name ∧ args.length = container.params.length

/-- What a leaf has from the user: the name of a type that is not built in, the name of a class, or
the signature of a function. -/
def leafText? : TypeExpr → Option String
  | .primitive s => if (Primitive.ofName? (Text.upper s)).isNone then some s else none
  | .reference className .. => some className
  | .function signature _ => some signature
  | _ => none

/-- No leaf has the delimiter of the tokens in it. -/
def Undelimited (t : TypeExpr) : Prop :=
  ∀ (s : TypeExpr) (text : String), s.Within t → s.leafText? = some text → '@' ∉ text.toList

/-- A container is saturated if it has its number of arguments, and they are saturated. -/
theorem saturated_composite {base source : String} {args : List TypeExpr} :
    (composite base args source).Saturated ↔
      (∃ container : Container, base = container.name ∧ args.length = container.params.length) ∧
        ∀ t ∈ args, t.Saturated := by
  constructor
  · intro h
    exact ⟨h base args source .self, fun t ht b as s hs => h b as s (.argument ht hs)⟩
  · rintro ⟨hself, hargs⟩ b as s hs
    rcases within_composite.mp hs with heq | ⟨t, ht, hs⟩
    · cases heq
      exact hself
    · exact hargs t ht b as s hs

/-- What stands in a saturated type is saturated. -/
theorem Saturated.within {s t : TypeExpr} (h : t.Saturated) (hs : s.Within t) : s.Saturated :=
  fun base args source hwithin => h base args source (hwithin.trans hs)

/-- What stands in a type has its leaves from there. -/
theorem Undelimited.within {s t : TypeExpr} (h : t.Undelimited) (hs : s.Within t) : s.Undelimited :=
  fun u text hu => h u text (hu.trans hs)

/-- The leaves of a container are those of its arguments. -/
theorem undelimited_composite {base source : String} {args : List TypeExpr} :
    (composite base args source).Undelimited ↔ ∀ t ∈ args, t.Undelimited := by
  constructor
  · intro h t ht
    exact h.within (.argument ht .self)
  · intro h s text hs htext
    rcases within_composite.mp hs with rfl | ⟨t, ht, hs⟩
    · cases htext
    · exact h t ht s text hs htext

section Render

variable {language : Language} {ns : String}

/-- Types are written one by one. -/
theorem renderAll_eq_ok_iff {ts : List TypeExpr} {texts : List String} :
    renderAll language ns ts = .ok texts ↔
      List.Forall₂ (fun t text => t.render language ns = .ok text) ts texts := by
  induction ts generalizing texts with
  | nil =>
      rw [renderAll, List.forall₂_nil_left_iff]
      exact ⟨fun h => (Except.ok.inj h).symm, fun h => congrArg _ h.symm⟩
  | cons t ts ih =>
      rw [renderAll, List.forall₂_cons_left_iff]
      constructor
      · intro h
        split at h
        · cases h
        · rename_i text htext
          split at h
          · cases h
          · rename_i rest hrest
            cases h
            exact ⟨text, rest, htext, ih.mp hrest, rfl⟩
      · rintro ⟨text, rest, htext, hrest, rfl⟩
        simp only [htext, ih.mpr hrest]

/-- A composite type is written if it is a container with as many arguments as parameters, all of
which are written. -/
theorem render_composite_eq_ok_iff {base source text : String} {args : List TypeExpr} :
    (composite base args source).render language ns = .ok text ↔
      ∃ (container : Container) (texts : List String),
        base = container.name ∧ args.length = container.params.length ∧
        List.Forall₂ (fun t text => t.render language ns = .ok text) args texts ∧
        text = Container.instantiate (container.template language) container.params texts := by
  rw [render]
  constructor
  · intro h
    split at h
    · cases h
    · rename_i container hname
      obtain ⟨harity, h⟩ := guard_eq_ok h
      split at h
      · cases h
      · rename_i texts htexts
        cases h
        exact ⟨container, texts, Container.ofName?_eq_some_iff.mp hname, (not_not.mp harity).symm,
          renderAll_eq_ok_iff.mp htexts, rfl⟩
  · rintro ⟨container, texts, hname, harity, htexts, rfl⟩
    simp only [Container.ofName?_eq_some_iff.mpr hname, harity, renderAll_eq_ok_iff.mpr htexts,
      ne_eq, not_true_eq_false, if_false]

mutual

/-- A type can be written if it is saturated, and only then. -/
theorem exists_render_iff (t : TypeExpr) :
    (∃ text, t.render language ns = .ok text) ↔ t.Saturated := by
  cases t with
  | composite base args source =>
      rw [saturated_composite, ← exists_renderAll_iff args]
      constructor
      · rintro ⟨text, h⟩
        obtain ⟨container, texts, hname, harity, htexts, -⟩ := render_composite_eq_ok_iff.mp h
        exact ⟨⟨container, hname, harity⟩, texts, renderAll_eq_ok_iff.mpr htexts⟩
      · rintro ⟨⟨container, hname, harity⟩, texts, htexts⟩
        exact ⟨_, render_composite_eq_ok_iff.mpr
          ⟨container, texts, hname, harity, renderAll_eq_ok_iff.mp htexts, rfl⟩⟩
  | _ =>
      refine iff_of_true ⟨_, rfl⟩ fun base args source h => ?_
      cases h.eq_of_leaf nofun

/-- So it is for several types. -/
theorem exists_renderAll_iff (ts : List TypeExpr) :
    (∃ texts, renderAll language ns ts = .ok texts) ↔ ∀ t ∈ ts, t.Saturated := by
  cases ts with
  | nil => exact iff_of_true ⟨[], rfl⟩ nofun
  | cons t ts =>
      rw [List.forall_mem_cons, ← exists_render_iff t, ← exists_renderAll_iff ts]
      simp only [renderAll_eq_ok_iff, List.forall₂_cons_left_iff]
      constructor
      · rintro ⟨_, text, texts, htext, htexts, rfl⟩
        exact ⟨⟨text, htext⟩, texts, htexts⟩
      · rintro ⟨⟨text, htext⟩, texts, htexts⟩
        exact ⟨_, text, texts, htext, htexts, rfl⟩

end

/-! ## Texts without the delimiter -/

/-- Type variables do not have the character of tokens. -/
theorem not_mem_variableName (index : Option Nat) : '@' ∉ (variableName index).toList := by
  cases index with
  | none => decide
  | some i =>
      have hdigits : (String.ofList (Nat.toDigits 10 i)).toList = Nat.toDigits 10 i :=
        String.toList_ofList
      rw [variableName, String.toList_append, hdigits, List.mem_append, not_or]
      refine ⟨by decide, fun h => ?_⟩
      have hdigit : '@'.isDigit = true := Nat.isDigit_of_mem_toDigits (by simp) (by simp) h
      cases hdigit

/-- Neither do the types of values. -/
theorem not_mem_render_primitive (language : Language) (p : Primitive) :
    '@' ∉ (p.render language).toList := by
  cases language <;> cases p <;> decide

/-- A class name gets none from its namespace. -/
theorem not_mem_qualify {className : String} (hns : '@' ∉ ns.toList) (h : '@' ∉ className.toList) :
    '@' ∉ (ClassName.qualify className ns).toList := by
  unfold ClassName.qualify
  split
  · exact h
  · split
    · decide
    · rw [String.toList_append, String.toList_append]
      simp [h, hns]

/-- Nor does a reference from its marks. -/
theorem not_mem_renderReference {className : String} {isConst : Bool} {pointer : Pointer}
    (hns : '@' ∉ ns.toList) (h : '@' ∉ className.toList) :
    '@' ∉ (renderReference ns className isConst pointer language).toList := by
  have hqualified := not_mem_qualify hns h
  cases language with
  | cpp =>
      have hconst : '@' ∉ (if isConst then "const " else "").toList := by cases isConst <;> decide
      have hsuffix : '@' ∉ pointer.suffix.toList := by cases pointer <;> decide
      rw [renderReference, String.toList_append, String.toList_append]
      simp [hconst, hqualified, hsuffix]
  | python =>
      unfold renderReference
      simp only
      split
      · decide
      · split
        · rename_i bare hbare
          rw [Text.stripStart?_eq_some.mp hbare, String.toList_append] at hqualified
          exact fun hmem => hqualified (List.mem_append_right _ hmem)
        · rw [Text.replace, String.toList_ofList]
          intro hmem
          rcases Chars.mem_replaceFrom hmem with hdot | hmem
          · revert hdot
            decide
          · exact hqualified hmem

-- A container brings no delimiter of its own, as its tokens are all replaced. So what is put into
-- the template around it is free of tokens again.

mutual

/-- The text of a type has none if neither its leaves nor the namespace do. -/
theorem not_mem_render (t : TypeExpr) {text : String} (hns : '@' ∉ ns.toList)
    (hleaves : t.Undelimited) (h : t.render language ns = .ok text) : '@' ∉ text.toList := by
  cases t with
  | primitive s =>
      cases hname : Primitive.ofName? (Text.upper s) with
      | none =>
          simp only [render, hname, Except.ok.injEq] at h
          have hopaque : (primitive s).leafText? = some s := by
            rw [leafText?, hname]
            rfl
          exact h ▸ hleaves _ s .self hopaque
      | some p =>
          simp only [render, hname] at h
          cases h
          exact not_mem_render_primitive language p
  | reference className isConst pointer source =>
      cases h
      exact not_mem_renderReference hns (hleaves _ className .self rfl)
  | placeholder index candidates source =>
      cases h
      exact not_mem_variableName index
  | function signature source =>
      have hsignature := hleaves _ signature .self rfl
      cases h
      cases language with
      | cpp =>
          show '@' ∉ ("std::function< " ++ signature ++ " >").toList
          simp [hsignature]
      | python =>
          show '@' ∉ "Callable[..., Any]".toList
          decide
  | composite base args source =>
      obtain ⟨container, texts, -, harity, htexts, rfl⟩ := render_composite_eq_ok_iff.mp h
      exact Container.not_mem_instantiate (htexts.length_eq.symm.trans harity)
        (not_mem_renderAll args hns (undelimited_composite.mp hleaves) htexts)

theorem not_mem_renderAll (ts : List TypeExpr) {texts : List String} (hns : '@' ∉ ns.toList)
    (hleaves : ∀ t ∈ ts, t.Undelimited)
    (h : List.Forall₂ (fun t text => t.render language ns = .ok text) ts texts) :
    ∀ text ∈ texts, '@' ∉ text.toList := by
  cases ts with
  | nil =>
      cases h
      nofun
  | cons t ts =>
      rw [List.forall_mem_cons] at hleaves
      cases h with
      | cons htext htexts =>
          exact List.forall_mem_cons.mpr
            ⟨not_mem_render t hns hleaves.1 htext, not_mem_renderAll ts hns hleaves.2 htexts⟩

end

end Render

-- With a token in a name of the user, the second argument comes to stand in both places.
example : render .python "robot" (.composite "MAP" [.primitive "@V@", .primitive "STRING"]
    "MAP(@V@;STRING)") = .ok "Dict[str, str]" := by
  cbv

end TypeExpr

end ClassSchema
