import Mathlib.Data.List.Perm.Basic
import ClassSchema.Document.Decode
import ClassSchema.Proofs.Computation

/-! # The order of the sections of a document

A record is read entry by entry. Fields with different names put their values into different places,
so it does not matter in which order they stand in the text. -/

namespace ClassSchema

namespace Shape

variable {α : Type} {fields : Fields α}

/-- An entry is read: from the names of the fields that were met before and the record so far, to
the names and the record after it. -/
inductive Reads (fields : Fields α) (entry : Yaml.Value × Yaml.Value) :
    List String × α → List String × α → Prop
  | ignored {name : String} {s : List String × α} (key : entry.1.untagged = .string name)
      (unknown : fields name = none) : Reads fields entry s s
  | field {name : String} {set : Yaml.Value → α → Except Error α} {seen : List String} {a b : α}
      (key : entry.1.untagged = .string name) (known : fields name = some set)
      (new : name ∉ seen) (value : set entry.2 a = .ok b) :
      Reads fields entry (seen, a) (name :: seen, b)

/-- The same record, with the same fields met in some order. -/
def Same (s t : List String × α) : Prop := s.1.Perm t.1 ∧ s.2 = t.2

/-- Two fields with different names can also be read the other way round. -/
def Independent (fields : Fields α) : Prop :=
  ∀ m n set set', m ≠ n → fields m = some set → fields n = some set' →
    ∀ v w a b c, set v a = .ok b → set' w b = .ok c → ∃ b', set' w a = .ok b' ∧ set v b' = .ok c

theorem Same.refl (s : List String × α) : Same s s := ⟨.refl _, rfl⟩

theorem Same.trans {s t u : List String × α} (h : Same s t) (h' : Same t u) : Same s u :=
  ⟨h.1.trans h'.1, h.2.trans h'.2⟩

/-- A record is read entry by entry. -/
theorem recordFrom_cons_eq_ok {entry : Yaml.Value × Yaml.Value}
    {es : List (Yaml.Value × Yaml.Value)} {s r : List String × α} :
    recordFrom fields s.1 s.2 (entry :: es) = .ok r ↔
      ∃ t, Reads fields entry s t ∧ recordFrom fields t.1 t.2 es = .ok r := by
  obtain ⟨seen, a⟩ := s
  constructor
  · intro h
    cases hkey : entry.1.untagged with
    | string name =>
        cases hfield : fields name with
        | none =>
            simp only [recordFrom, hkey, hfield] at h
            exact ⟨(seen, a), .ignored hkey hfield, h⟩
        | some set =>
            simp only [recordFrom, hkey, hfield] at h
            obtain ⟨hnew, h⟩ := guard_eq_ok h
            cases hvalue : set entry.2 a with
            | error e =>
                rw [hvalue] at h
                cases h
            | ok b =>
                rw [hvalue] at h
                exact ⟨(name :: seen, b), .field hkey hfield hnew hvalue, h⟩
    | _ =>
        simp only [recordFrom, hkey] at h
        cases h
  · rintro ⟨t, hreads, h⟩
    cases hreads with
    | ignored key unknown =>
        simp only [recordFrom, key, unknown]
        exact h
    | field key known new value =>
        simp only [recordFrom, key, known, if_neg new, value]
        exact h

/-- What an entry does is the same from states that are the same. -/
theorem Reads.of_same {entry : Yaml.Value × Yaml.Value} {s s' t : List String × α}
    (h : Reads fields entry s t) (hsame : Same s s') :
    ∃ t', Reads fields entry s' t' ∧ Same t t' := by
  cases h with
  | ignored key unknown => exact ⟨s', .ignored key unknown, hsame⟩
  | @field name set seen a b key known new value =>
      obtain ⟨seen', a'⟩ := s'
      obtain ⟨hperm, rfl⟩ := hsame
      exact ⟨(name :: seen', b), .field key known (mt hperm.mem_iff.mpr new) value,
        hperm.cons name, rfl⟩

/-- Two entries of different fields can be read in either order. -/
theorem Reads.swap (independent : Independent fields) {x y : Yaml.Value × Yaml.Value}
    {s t u : List String × α} (hx : Reads fields x s t) (hy : Reads fields y t u) :
    ∃ t' u', Reads fields y s t' ∧ Reads fields x t' u' ∧ Same u u' := by
  cases hx with
  | ignored key unknown => exact ⟨u, u, hy, .ignored key unknown, .refl _, rfl⟩
  | @field m set seen a b key known new value =>
      cases hy with
      | ignored key' unknown =>
          exact ⟨_, _, .ignored key' unknown, .field key known new value, .refl _, rfl⟩
      | @field n set' _ _ c key' known' new' value' =>
          obtain ⟨hne, new'⟩ := not_or.mp (mt List.mem_cons.mpr new')
          obtain ⟨b', hb', hc⟩ :=
            independent m n set set' (Ne.symm hne) known known' _ _ _ _ _ value value'
          have hnew : m ∉ n :: seen := mt List.mem_cons.mp (not_or.mpr ⟨Ne.symm hne, new⟩)
          exact ⟨_, _, .field key' known' new' hb', .field key known hnew hc, .swap _ _ _, rfl⟩

/-- So a record can be read in any order. -/
theorem recordFrom_perm (independent : Independent fields)
    {es es' : List (Yaml.Value × Yaml.Value)} (hperm : es.Perm es') {s s' r : List String × α}
    (hsame : Same s s') (h : recordFrom fields s.1 s.2 es = .ok r) :
    ∃ r', recordFrom fields s'.1 s'.2 es' = .ok r' ∧ Same r r' := by
  induction hperm using List.Perm.recOnSwap' generalizing s s' r with
  | nil =>
      cases h
      exact ⟨s', rfl, hsame⟩
  | cons x _ ih =>
      obtain ⟨t, hx, h⟩ := recordFrom_cons_eq_ok.mp h
      obtain ⟨t', hx', hsame'⟩ := hx.of_same hsame
      obtain ⟨r', hr', hsame''⟩ := ih hsame' h
      exact ⟨r', recordFrom_cons_eq_ok.mpr ⟨t', hx', hr'⟩, hsame''⟩
  | swap' x y _ ih =>
      obtain ⟨t, hy, h⟩ := recordFrom_cons_eq_ok.mp h
      obtain ⟨u, hx, h⟩ := recordFrom_cons_eq_ok.mp h
      obtain ⟨t', u', hx, hy, hu⟩ := hy.swap independent hx
      obtain ⟨t'', hx, ht⟩ := hx.of_same hsame
      obtain ⟨u'', hy, hu'⟩ := hy.of_same ht
      obtain ⟨r', hr', hsame'⟩ := ih (hu.trans hu') h
      refine ⟨r', recordFrom_cons_eq_ok.mpr ⟨t'', hx, ?_⟩, hsame'⟩
      exact recordFrom_cons_eq_ok.mpr ⟨u'', hy, hr'⟩
  | trans _ _ ih ih' =>
      obtain ⟨r', hr', hsame'⟩ := ih hsame h
      obtain ⟨r'', hr'', hsame''⟩ := ih' (.refl _) hr'
      exact ⟨r'', hr'', hsame'.trans hsame''⟩

/-- A mapping is read as the same record whatever the order of its entries. -/
theorem record_perm [Inhabited α] (independent : Independent fields) {wanted : String}
    {required : List String} {es es' : List (Yaml.Value × Yaml.Value)} (hperm : es.Perm es') {a : α}
    (h : record wanted required fields (.mapping es) = .ok a) :
    record wanted required fields (.mapping es') = .ok a := by
  obtain ⟨_, hes, h⟩ := bind_eq_ok h
  cases hes
  obtain ⟨⟨seen, record⟩, hread, h⟩ := bind_eq_ok h
  obtain ⟨⟨seen', record'⟩, hread', hseen, rfl⟩ :=
    @recordFrom_perm _ _ independent _ _ hperm ([], default) ([], default) _ (.refl _) hread
  change (recordFrom fields [] default es' >>= _) = _
  rw [hread', ← h]
  simp only [hseen.mem_iff]
  rfl

/-- Fields that put their values into different places are independent. -/
theorem field_swap {β γ : Type} {read : Yaml.Value → Except Error β} {put : α → β → α}
    {read' : Yaml.Value → Except Error γ} {put' : α → γ → α}
    (hput : ∀ a x y, put' (put a x) y = put (put' a y) x)
    {set set' : Yaml.Value → α → Except Error α} (hset : field read put = some set)
    (hset' : field read' put' = some set') (v w : Yaml.Value) (a b c : α) (hb : set v a = .ok b)
    (hc : set' w b = .ok c) : ∃ b', set' w a = .ok b' ∧ set v b' = .ok c := by
  cases hset
  cases hset'
  obtain ⟨x, hx, rfl⟩ := map_eq_ok hb
  obtain ⟨y, hy, rfl⟩ := map_eq_ok hc
  refine ⟨put' a y, ?_, ?_⟩
  · change (read' w).map (put' a) = _
    rw [hy]
    rfl
  · change (read v).map (put (put' a y)) = _
    rw [hx, hput]
    rfl

end Shape

open Shape in
/-- The sections of a document may stand in any order. -/
theorem Document.ofValue_perm {es es' : List (Yaml.Value × Yaml.Value)} (hperm : es.Perm es')
    {doc : Document} (h : Document.ofValue (.mapping es) = .ok doc) :
    Document.ofValue (.mapping es') = .ok doc := by
  refine record_perm ?_ hperm h
  intro m n set set' hne hset hset'
  dsimp only at hset hset'
  -- unknown fields and equal names aside, each pair of fields changes two places of the record
  split at hset <;> split at hset' <;> try contradiction
  all_goals exact field_swap (fun _ _ _ => rfl) hset hset'

end ClassSchema
