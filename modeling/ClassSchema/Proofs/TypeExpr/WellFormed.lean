import ClassSchema.Proofs.ClassName
import ClassSchema.Proofs.TypeExpr.Accepted
import ClassSchema.Proofs.TypeExpr.Nodes

/-! # Well-formed types

What holds of every node of a type that was read, whatever the text it was read from. The text of a
node is again accepted, as that node. Texts in which the parentheses do not match are refused. -/

namespace ClassSchema

/-- A mark on a class reference. -/
inductive Qualifier where
  | const
  | pointer
  | constPointer
deriving DecidableEq

/-- The mark for a pointer, if any. -/
def Pointer.qualifiers : Pointer → List Qualifier
  | .absent => []
  | .plain => [.pointer]
  | .const => [.constPointer]

namespace TypeExpr

/-- What a node of a type is. -/
inductive Kind where
  | primitive
  | reference
  | placeholder
  | function
  | composite
deriving DecidableEq

/-- How many arguments a type of that kind may have. -/
def Kind.Takes : Kind → Nat → Prop
  | .primitive, n | .reference, n | .placeholder, n => n = 0
  | .function, n => n = 1
  | .composite, n => 0 < n

/-- The kind of a node. -/
def kind : TypeExpr → Kind
  | .primitive _ => .primitive
  | .reference .. => .reference
  | .placeholder .. => .placeholder
  | .function .. => .function
  | .composite .. => .composite

/-- The marks of a node, which only references have. -/
def qualifiers : TypeExpr → List Qualifier
  | .reference _ isConst pointer _ => (if isConst then [.const] else []) ++ pointer.qualifiers
  | _ => []

/-- The index that a placeholder has itself. -/
def ownIndex? : TypeExpr → Option Nat
  | .placeholder index _ _ => index
  | _ => none

/-- The texts of the arguments. The only argument of a function is its signature. -/
def argumentTexts : TypeExpr → List String
  | .function signature _ => [signature]
  | .composite _ args _ => args.map source
  | _ => []

/-- What holds of a node of a type that was read. -/
structure WellFormed (t : TypeExpr) : Prop where
  trimmed : Chars.Trimmed t.source.toList
  ne_empty : t.source ≠ ""
  balanced : Matched t.source.toList
  reads : parse t.source = .ok t
  qualifiers_reference : t.qualifiers ≠ [] → t.kind = .reference
  one_pointer : ¬ (Qualifier.pointer ∈ t.qualifiers ∧ Qualifier.constPointer ∈ t.qualifiers)
  index_placeholder : t.ownIndex? ≠ none → t.kind = .placeholder
  candidates_placeholder : t.ownCandidates ≠ [] → t.kind = .placeholder
  candidates_plain : ∀ c ∈ t.ownCandidates, c ≠ "" ∧ ';' ∉ c.toList
  arity : t.kind.Takes t.argumentTexts.length
  upper : t.kind = .primitive ∨ t.kind = .composite →
    t.base = Text.upper (Text.trim (Text.upTo '(' t.source))
  values : t.kind = .composite → Container.isSetLike t.base = true →
    ∀ arg ∈ t.arguments, arg.kind ≠ .reference

/-- The candidates are the pieces between semicolons, without blanks and empty ones. -/
theorem mem_candidateList {inner : List Char} {c : String} : c ∈ candidateList inner ↔
    ∃ piece ∈ Chars.split (· == ';') inner, Chars.trim piece ≠ [] ∧
      c = String.ofList (Chars.trim piece) := by
  simp only [candidateList, List.mem_map, List.mem_filter, Bool.not_eq_true',
    List.isEmpty_eq_false_iff]
  constructor
  · rintro ⟨_, ⟨⟨piece, hpiece, rfl⟩, hne⟩, rfl⟩
    exact ⟨piece, hpiece, hne, rfl⟩
  · rintro ⟨piece, hpiece, hne, rfl⟩
    exact ⟨_, ⟨⟨piece, hpiece, rfl⟩, hne⟩, rfl⟩

/-- So no candidate is empty or has a semicolon in it. -/
theorem plain_of_mem_candidateList {inner : List Char} {c : String} (h : c ∈ candidateList inner) :
    c ≠ "" ∧ ';' ∉ c.toList := by
  obtain ⟨piece, hpiece, hne, rfl⟩ := mem_candidateList.mp h
  rw [Ne, ← String.toList_inj, String.toList_ofList]
  refine ⟨hne, fun hmem => ?_⟩
  have hsep := Chars.forall_mem_split hpiece ';' ((Chars.trim_infix piece).subset hmem)
  exact absurd hsep (by decide)

section ReadAs

variable {source : List Char} {t : TypeExpr}

/-- A type that was read has the arguments that its kind may have. -/
theorem ReadAs.arity (h : ReadAs source t) : t.kind.Takes t.argumentTexts.length := by
  cases h with
  | composite _ _ hsplit hread _ =>
      show 0 < (List.map _ _).length
      rw [List.length_map, ← hread.length_eq]
      exact List.length_pos_of_ne_nil (pieces_of_splitTop hsplit).1
  | _ => rfl

/-- The candidates of a type that was read are not empty and have no semicolon. -/
theorem ReadAs.candidates_plain (h : ReadAs source t) :
    ∀ c ∈ t.ownCandidates, c ≠ "" ∧ ';' ∉ c.toList := by
  cases h with
  | choice => exact fun c hc => plain_of_mem_candidateList hc
  | _ => exact List.forall_mem_nil _

/-- The base is what stands before the first parenthesis, in upper case. -/
theorem ReadAs.upper (h : ReadAs source t) (htrim : Chars.Trimmed source)
    (hkind : t.kind = .primitive ∨ t.kind = .composite) :
    t.base = Text.upper (Text.trim (Text.upTo '(' t.source)) := by
  cases h with
  | name hopen =>
      have hupTo : Text.upTo '(' (String.ofList source) = String.ofList source :=
        Text.upTo_of_not_mem (by rwa [String.toList_ofList])
      show Text.upper (String.ofList source) = Text.upper (Text.trim (Text.upTo '(' _))
      rw [TypeExpr.source, hupTo, Text.trim, String.toList_ofList, htrim.trim_eq_self]
  | @composite before inner pieces args htext hfirst _ _ _ =>
      have hupTo : Text.upTo '(' (String.ofList source) = String.ofList before := by
        rw [htext, String.ofList_append]
        exact Text.upTo_append (by rwa [String.toList_ofList]) String.toList_ofList
      show Text.upper (String.ofList (Chars.trim before)) = Text.upper (Text.trim (Text.upTo '(' _))
      rw [TypeExpr.source, hupTo, Text.trim, String.toList_ofList]
  | _ => simp [kind] at hkind

/-- The kind says whether a type is a reference. -/
theorem kind_eq_reference_iff : t.kind = .reference ↔ t.isReference = true := by
  cases t <;> simp [kind, isReference]

/-- A set that was read has no reference as argument. -/
theorem ReadAs.values (h : ReadAs source t) (hkind : t.kind = .composite)
    (hset : Container.isSetLike t.base = true) : ∀ arg ∈ t.arguments, arg.kind ≠ .reference := by
  cases h with
  | composite _ _ _ _ hvalues =>
      intro arg harg hreference
      have hno := hvalues hset arg harg
      rw [kind_eq_reference_iff.mp hreference] at hno
      cases hno
  | _ => cases hkind

end ReadAs

theorem wellFormed_of_parse {expr : String} {t : TypeExpr} (h : parse expr = .ok t) :
    t.WellFormed := by
  obtain ⟨hne, hbalanced, -⟩ := parse_eq_ok h
  have hsource := source_of_parse h
  have hread := readAs_of_parse h
  have htrim := Chars.trimmed_trim expr.toList
  exact {
    trimmed := by rwa [hsource]
    ne_empty := by rwa [Ne, ← String.toList_inj, hsource]
    balanced := by rwa [hsource]
    reads := parse_source h
    qualifiers_reference := by cases t <;> simp [qualifiers, kind]
    one_pointer := by
      cases t with
      | reference className isConst pointer source =>
          cases isConst <;> cases pointer <;> simp [qualifiers, Pointer.qualifiers]
      | _ => simp [qualifiers]
    index_placeholder := by cases t <;> simp [ownIndex?, kind]
    candidates_placeholder := by cases t <;> simp [ownCandidates, kind]
    candidates_plain := hread.candidates_plain
    arity := hread.arity
    upper := hread.upper htrim
    values := hread.values }

/-- Every node of a type that was read is well formed. A text whose parentheses do not match is
malformed. -/
theorem parse_wellFormed (expr : String) :
    (∀ t, parse expr = .ok t → ∀ s : TypeExpr, s.Within t → s.WellFormed) ∧
    (¬ Matched expr.toList →
      ∃ flaw, parse expr = .error (.malformed (Text.trim expr) flaw) ∧
        (flaw = .unexpectedClose ∨ flaw = .unbalanced)) := by
  constructor
  · intro t h s hs
    obtain ⟨expr', h'⟩ := exists_parse_of_within h hs
    exact wellFormed_of_parse h'
  · intro hunbalanced
    rw [← matched_trim] at hunbalanced
    have hne : Chars.trim expr.toList ≠ [] := by
      intro hnil
      rw [hnil] at hunbalanced
      exact hunbalanced ⟨by simp, rfl⟩
    obtain ⟨flaw, hcheck, herror⟩ := parse_of_not_balanced hne hunbalanced
    exact ⟨flaw, herror, flaw_of_checkBalance hcheck⟩

theorem parse_wellFormed_pair :
    (∃ t, parse " Pair( TEMPLATE:7[A; B ;],XTYPE( a::ConstFooPtr))" = .ok t ∧ t.WellFormed ∧
      t.source = "Pair( TEMPLATE:7[A; B ;],XTYPE( a::ConstFooPtr))" ∧
      ∀ arg ∈ t.arguments, arg.WellFormed) ∧
    ¬ Matched " )(".toList ∧
    ∃ flaw, parse " )(" = .error (.malformed ")(" flaw) ∧
      (flaw = .unexpectedClose ∨ flaw = .unbalanced) := by
  have hpair : parse " Pair( TEMPLATE:7[A; B ;],XTYPE( a::ConstFooPtr))" = .ok (.composite "PAIR"
      [.placeholder (some 7) ["A", "B"] "TEMPLATE:7[A; B ;]",
        .reference "a::Foo" true .plain "XTYPE( a::ConstFooPtr)"]
      "Pair( TEMPLATE:7[A; B ;],XTYPE( a::ConstFooPtr))") := rfl
  have hnodes := (parse_wellFormed _).1 _ hpair
  have hcrossed : ¬ Matched " )(".toList := by
    intro h
    exact absurd (h.closes_le " )".toList (by decide)) (by decide)
  refine ⟨⟨_, hpair, hnodes _ .self, rfl, ?_⟩, hcrossed, (parse_wellFormed " )(").2 hcrossed⟩
  intro arg harg
  exact hnodes arg (.argument harg .self)

end TypeExpr

end ClassSchema
