import ClassSchema.Proofs.Literal.RawString

/-! # Which values have a literal

A literal exists for all values but the tagged ones and the aggregates with a key that has no text.
Neither the type nor the target language nor what the value is given for makes a difference. -/

namespace ClassSchema.Literal

/-! ## Keys -/

/-- The keys without a text. -/
inductive Refused : Yaml.Value → Prop
  | null : Refused .null
  | float {x : Binary64} (not_finite : x.isFinite = false) : Refused (.number (.float x))
  | sequence (items : List Yaml.Value) : Refused (.sequence items)
  | mapping (entries : List (Yaml.Value × Yaml.Value)) : Refused (.mapping entries)
  | tagged (tag : String) (v : Yaml.Value) : Refused (.tagged tag v)

/-- These are the keys that are refused. -/
theorem keyText?_eq_none_iff {k : Yaml.Value} : keyText? k = none ↔ Refused k := by
  constructor
  · intro h
    cases k with
    | null => exact .null
    | bool b => cases h
    | number n =>
        cases n with
        | integer i => cases h
        | float x =>
            refine .float ?_
            by_contra hfinite
            simp [keyText?, hfinite] at h
    | string s => cases h
    | sequence items => exact .sequence items
    | mapping entries => exact .mapping entries
    | tagged tag v => exact .tagged tag v
  · intro h
    cases h with
    | float hfinite => simp [keyText?, hfinite]
    | _ => rfl

/-- A mapping in the value, at whatever depth, has the key `k`. -/
inductive HasKey (k : Yaml.Value) : Yaml.Value → Prop
  | key {entries : List (Yaml.Value × Yaml.Value)} {v : Yaml.Value} (mem : (k, v) ∈ entries) :
      HasKey k (.mapping entries)
  | entry {entries : List (Yaml.Value × Yaml.Value)} {k' v : Yaml.Value}
      (mem : (k', v) ∈ entries) (below : HasKey k v) : HasKey k (.mapping entries)
  | item {items : List Yaml.Value} {v : Yaml.Value} (mem : v ∈ items) (below : HasKey k v) :
      HasKey k (.sequence items)
  | tagged {tag : String} {v : Yaml.Value} (below : HasKey k v) : HasKey k (.tagged tag v)

/-- A mapping in the value has a key without a text. -/
def HasRefusedKey (v : Yaml.Value) : Prop := ∃ k, HasKey k v ∧ Refused k

namespace HasRefusedKey

variable {v : Yaml.Value} {items : List Yaml.Value} {entries : List (Yaml.Value × Yaml.Value)}

/-- A sequence has the keys of its items. -/
theorem sequence_iff : HasRefusedKey (.sequence items) ↔ ∃ v ∈ items, HasRefusedKey v := by
  constructor
  · rintro ⟨k, hk, hrefused⟩
    cases hk with
    | item hmem hk => exact ⟨_, hmem, k, hk, hrefused⟩
  · rintro ⟨v, hmem, k, hk, hrefused⟩
    exact ⟨k, .item hmem hk, hrefused⟩

/-- A mapping has its own keys, and those of its values. -/
theorem mapping_iff : HasRefusedKey (.mapping entries) ↔
    ∃ e ∈ entries, Refused e.1 ∨ HasRefusedKey e.2 := by
  constructor
  · rintro ⟨k, hk, hrefused⟩
    cases hk with
    | key hmem => exact ⟨_, hmem, .inl hrefused⟩
    | entry hmem hk => exact ⟨_, hmem, .inr ⟨k, hk, hrefused⟩⟩
  · rintro ⟨⟨k', v⟩, hmem, hrefused | ⟨k, hk, hrefused⟩⟩
    · exact ⟨k', .key hmem, hrefused⟩
    · exact ⟨k, .entry hmem hk, hrefused⟩

/-- A tag has no keys. -/
theorem tagged_iff {tag : String} : HasRefusedKey (.tagged tag v) ↔ HasRefusedKey v := by
  constructor
  · rintro ⟨k, hk, hrefused⟩
    cases hk with
    | tagged hk => exact ⟨k, hk, hrefused⟩
  · rintro ⟨k, hk, hrefused⟩
    exact ⟨k, .tagged hk, hrefused⟩

end HasRefusedKey

/-! ## Aggregates -/

mutual

/-- The only thing that can go wrong in an aggregate is a key. -/
theorem aggregate?_eq_none_iff (v : Yaml.Value) : aggregate? v = none ↔ HasRefusedKey v := by
  have hscalar (hsome : ∃ j, aggregate? v = some j) (hkey : ∀ k, ¬ HasKey k v) :
      aggregate? v = none ↔ HasRefusedKey v := by
    obtain ⟨j, hj⟩ := hsome
    rw [hj]
    exact iff_of_false nofun fun ⟨k, hk, _⟩ => hkey k hk
  cases v with
  | null => exact hscalar ⟨_, rfl⟩ nofun
  | bool b => exact hscalar ⟨_, rfl⟩ nofun
  | number n => exact hscalar ⟨_, rfl⟩ nofun
  | string s => exact hscalar ⟨_, rfl⟩ nofun
  | sequence items =>
      rw [aggregate?, Option.map_eq_none_iff, aggregates?_eq_none_iff items,
        HasRefusedKey.sequence_iff]
  | mapping entries =>
      rw [aggregate?, Option.map_eq_none_iff, fields?_eq_none_iff entries [],
        HasRefusedKey.mapping_iff]
  | tagged tag v =>
      rw [aggregate?, Option.map_eq_none_iff, aggregate?_eq_none_iff v, HasRefusedKey.tagged_iff]

/-- So it is in the items of a sequence. -/
theorem aggregates?_eq_none_iff (vs : List Yaml.Value) :
    aggregates? vs = none ↔ ∃ v ∈ vs, HasRefusedKey v := by
  cases vs with
  | nil => simp [aggregates?]
  | cons v vs =>
      rw [aggregates?, List.exists_mem_cons_iff, ← aggregate?_eq_none_iff v,
        ← aggregates?_eq_none_iff vs]
      cases aggregate? v <;> simp

/-- And so it is in the entries of a mapping. -/
theorem fields?_eq_none_iff (es : List (Yaml.Value × Yaml.Value)) (fields : List (String × Json)) :
    fields? es fields = none ↔ ∃ e ∈ es, Refused e.1 ∨ HasRefusedKey e.2 := by
  cases es with
  | nil => simp [fields?]
  | cons e es =>
      obtain ⟨k, v⟩ := e
      rw [fields?, List.exists_mem_cons_iff, ← keyText?_eq_none_iff, ← aggregate?_eq_none_iff v]
      cases keyText? k with
      | none => simp
      | some key =>
          cases aggregate? v with
          | none => simp
          | some j => simp [fields?_eq_none_iff es]

end

/-! ## Literals -/

/-- A tagged value, or an aggregate with a key that has no text. -/
def Unsupported (v : Yaml.Value) : Prop :=
  (∃ tag w, v = .tagged tag w) ∨ IsAggregate v ∧ HasRefusedKey v

/-- The results that a value may have: whether there is a literal depends on the value alone. -/
inductive Decided (v : Yaml.Value) : Except Error String → Prop
  | fails (h : Unsupported v) : Decided v (unsupported v)
  | gives (h : ¬ Unsupported v) (literal : String) : Decided v (.ok literal)

variable {v : Yaml.Value}

/-- A scalar without tag has a literal. -/
theorem Decided.scalar (v : Yaml.Value) (htag : ∀ tag w, v ≠ .tagged tag w) (hv : ¬ IsAggregate v)
    (literal : String) : Decided v (.ok literal) := by
  refine .gives ?_ literal
  rintro (⟨tag, w, h⟩ | ⟨h, -⟩)
  · exact htag tag w h
  · exact hv h

/-- An aggregate is not supported if it has no text. -/
theorem IsAggregate.unsupported_iff (hv : IsAggregate v) : Unsupported v ↔ aggregate? v = none := by
  rw [aggregate?_eq_none_iff]
  constructor
  · rintro (⟨tag, w, rfl⟩ | ⟨-, hkey⟩)
    · cases hv
    · exact hkey
  · exact fun hkey => .inr ⟨hv, hkey⟩

theorem IsAggregate.not_unsupported {j : Json} (hv : IsAggregate v) (h : aggregate? v = some j) :
    ¬ Unsupported v := by
  rw [hv.unsupported_iff, h]
  exact nofun

/-- An aggregate has a literal if it is supported. -/
theorem IsAggregate.decided_untyped (language : Language) (hv : IsAggregate v) :
    Decided v (untyped language v) := by
  cases hj : aggregate? v with
  | none =>
      rw [hv.untyped_of_none language hj]
      exact .fails (hv.unsupported_iff.mpr hj)
  | some j =>
      rw [hv.untyped_of_some language hj]
      exact .gives (hv.not_unsupported hj) _

/-- So has any other value, whatever the language. -/
theorem decided_untyped (language : Language) (v : Yaml.Value) :
    Decided v (untyped language v) := by
  cases v with
  | null => exact .scalar .null nofun nofun _
  | bool b => exact .scalar (.bool b) nofun nofun _
  | number n => exact .scalar (.number n) nofun nofun _
  | string s => exact .scalar (.string s) nofun nofun _
  | sequence items => exact (IsAggregate.sequence items).decided_untyped language
  | mapping entries => exact (IsAggregate.mapping entries).decided_untyped language
  | tagged tag w => exact .fails (.inl ⟨tag, w, rfl⟩)

/-- What is taken for an empty object is none of the values without literal. -/
theorem decided_emptyObject (literal : String) (h : isEmptyObject v = true) :
    Decided v (.ok literal) := by
  cases v with
  | string s => exact .scalar (.string s) nofun nofun literal
  | mapping entries =>
      rw [(IsAggregate.mapping entries).eq_of_isEmptyObject h]
      exact .gives ((IsAggregate.mapping []).not_unsupported rfl) literal
  | _ => cases h

/-- The type makes no difference to this. -/
theorem decided_typed (language : Language) (t : TypeExpr) (role : Role) (v : Yaml.Value) :
    Decided v (typed language t role v) := by
  unfold typed
  split
  · rename_i hempty
    rw [Bool.and_eq_true] at hempty
    exact decided_emptyObject _ hempty.2
  · cases v with
    | string s =>
        dsimp only
        split <;> exact .scalar (.string s) nofun nofun _
    | _ => exact decided_untyped language _

/-- There is no literal exactly for tagged values and for aggregates with a key that has no text,
whatever the type, the language and the role. -/
theorem typed_eq_unsupported_iff (language : Language) (t : TypeExpr) (role : Role)
    (v : Yaml.Value) :
    (typed language t role v = unsupported v ↔ Unsupported v) ∧
      ((∃ literal, typed language t role v = .ok literal) ↔ ¬ Unsupported v) := by
  have hdecided := decided_typed language t role v
  generalize typed language t role v = result at hdecided
  cases hdecided with
  | fails h => exact ⟨iff_of_true rfl h, iff_of_false nofun (not_not_intro h)⟩
  | gives h literal => exact ⟨iff_of_false nofun h, iff_of_true ⟨literal, rfl⟩ h⟩

end ClassSchema.Literal
