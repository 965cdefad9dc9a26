import Mathlib.Data.String.Basic
import Mathlib.Data.Set.Finite.List
import Mathlib.Order.WellFoundedSet
import ClassSchema.Batch

/-! # Placing names pass by pass

A pass runs through the names in increasing order and places those whose parent has been placed,
also by the pass itself. `PlacedIn k n` says, without running anything, that the `k`-th pass places
the name `n`. The passes place exactly the names for which there is such a `k`, by increasing `k`
and then by increasing name; what is left when they stop has none. -/

namespace ClassSchema.Batch

section Pass

variable {parent : String → String} {placed ns : List String}

/-- What a pass places keeps its order. -/
theorem pass_fst_sublist : (pass parent placed ns).1.Sublist ns := by
  induction ns generalizing placed with
  | nil => exact .slnil
  | cons m ms ih =>
      unfold pass
      split
      · exact ih.cons_cons m
      · exact ih.cons m

/-- So does what it leaves. -/
theorem pass_snd_sublist : (pass parent placed ns).2.Sublist ns := by
  induction ns generalizing placed with
  | nil => exact .slnil
  | cons m ms ih =>
      unfold pass
      split
      · exact ih.cons m
      · exact ih.cons_cons m

/-- Each name is placed or left. -/
theorem pass_perm : ((pass parent placed ns).1 ++ (pass parent placed ns).2).Perm ns := by
  induction ns generalizing placed with
  | nil => exact .nil
  | cons m ms ih =>
      unfold pass
      split
      · exact ih.cons m
      · exact List.perm_middle.trans (ih.cons m)

theorem length_pass (parent : String → String) (placed ns : List String) :
    (pass parent placed ns).1.length + (pass parent placed ns).2.length = ns.length := by
  rw [← List.length_append]
  exact pass_perm.length_eq

/-- What is left has not been placed. -/
theorem mem_pass_snd (increasing : ns.Pairwise (· < ·)) {n : String} :
    n ∈ (pass parent placed ns).2 ↔ n ∈ ns ∧ n ∉ (pass parent placed ns).1 := by
  have hperm : ((pass parent placed ns).1 ++ (pass parent placed ns).2).Perm ns := pass_perm
  have hnodup : ((pass parent placed ns).1 ++ (pass parent placed ns).2).Nodup :=
    hperm.nodup_iff.mpr (increasing.imp ne_of_lt)
  constructor
  · intro h
    exact ⟨pass_snd_sublist.subset h, fun h' => List.disjoint_of_nodup_append hnodup h' h⟩
  · rintro ⟨h, hn⟩
    exact (List.mem_append.mp (hperm.mem_iff.mpr h)).resolve_left hn

/-- A pass places a name iff it finds the parent placed, or has placed it at a smaller name. -/
theorem mem_pass_fst (increasing : ns.Pairwise (· < ·)) {n : String} :
    n ∈ (pass parent placed ns).1 ↔ n ∈ ns ∧ (ClassName.isRoot (parent n) ∨ parent n ∈ placed ∨
      parent n ∈ (pass parent placed ns).1 ∧ parent n < n) := by
  induction ns generalizing placed with
  | nil => simp [pass]
  | cons m ms ih =>
      obtain ⟨hm, hms⟩ := List.pairwise_cons.mp increasing
      by_cases ready : (ClassName.isRoot (parent m) || parent m ∈ placed) = true
      · have hfst : (pass parent placed (m :: ms)).1 = m :: (pass parent (m :: placed) ms).1 := by
          rw [pass, if_pos ready]
        rw [hfst, List.mem_cons, List.mem_cons, ih hms]
        constructor
        · rintro (rfl | ⟨hn, h⟩)
          · exact ⟨.inl rfl, by simpa [or_assoc] using Or.inl ready⟩
          · refine ⟨.inr hn, ?_⟩
            rcases h with h | h | ⟨h, hlt⟩
            · exact .inl h
            · rcases List.mem_cons.mp h with h | h
              · exact .inr (.inr ⟨h ▸ List.mem_cons_self, h ▸ hm n hn⟩)
              · exact .inr (.inl h)
            · exact .inr (.inr ⟨List.mem_cons_of_mem _ h, hlt⟩)
        · rintro ⟨rfl | hn, h⟩
          · exact .inl rfl
          · refine .inr ⟨hn, ?_⟩
            rcases h with h | h | ⟨h, hlt⟩
            · exact .inl h
            · exact .inr (.inl (List.mem_cons_of_mem _ h))
            · rcases List.mem_cons.mp h with h | h
              · exact .inr (.inl (h ▸ List.mem_cons_self))
              · exact .inr (.inr ⟨h, hlt⟩)
      · have hfst : (pass parent placed (m :: ms)).1 = (pass parent placed ms).1 := by
          rw [pass, if_neg ready]
        rw [hfst, ih hms, List.mem_cons]
        constructor
        · rintro ⟨hn, h⟩
          exact ⟨.inr hn, h⟩
        · rintro ⟨rfl | hn, h⟩
          · -- The parent of a name that is passed over could only be placed after it.
            rcases h with h | h | ⟨h, hlt⟩
            · simp [h] at ready
            · simp [h] at ready
            · exact absurd hlt (lt_asymm (hm _ (pass_fst_sublist.subset h)))
          · exact ⟨hn, h⟩

/-- A pass that places nothing leaves all. -/
theorem pass_snd_of_idle (idle : (pass parent placed ns).1 = []) :
    (pass parent placed ns).2 = ns := by
  have hlength := length_pass parent placed ns
  rw [idle, List.length_nil, Nat.zero_add] at hlength
  exact pass_snd_sublist.eq_of_length hlength

/-- A pass that places something leaves less. -/
theorem length_pass_snd_lt (busy : (pass parent placed ns).1 ≠ []) :
    (pass parent placed ns).2.length < ns.length := by
  have hlength := length_pass parent placed ns
  have hpos := List.length_pos_iff.mpr busy
  omega

/-- The passes end with one that places nothing. -/
theorem passes_succ_of_idle (fuel : Nat) (idle : (pass parent placed ns).1 = []) :
    passes parent (fuel + 1) placed ns = ([], ns) := by
  have hpass : pass parent placed ns = ([], ns) := Prod.ext idle (pass_snd_of_idle idle)
  rw [passes, hpass]

/-- After a pass that places something, there is another one for the rest. -/
theorem passes_succ_of_busy (fuel : Nat) (busy : (pass parent placed ns).1 ≠ []) :
    passes parent (fuel + 1) placed ns =
      let run := passes parent fuel ((pass parent placed ns).1 ++ placed) (pass parent placed ns).2
      ((pass parent placed ns).1 ++ run.1, run.2) := by
  rw [passes]
  split
  · rename_i hpass
    exact absurd (congrArg Prod.fst hpass) busy
  · rename_i hpass
    rw [hpass]

/-- Every pass but the last one places a name, so a limit on their number cuts nothing short unless
it is less than the number of names. -/
theorem passes_eq_of_length_le {a b : Nat} (ha : ns.length ≤ a) (hb : ns.length ≤ b) :
    passes parent a placed ns = passes parent b placed ns := by
  induction a generalizing b placed ns with
  | zero =>
      obtain rfl := List.length_eq_zero_iff.mp (Nat.le_zero.mp ha)
      cases b with
      | zero => rfl
      | succ b => exact (passes_succ_of_idle b rfl).symm
  | succ a ih =>
      by_cases idle : (pass parent placed ns).1 = []
      · cases b with
        | zero =>
            obtain rfl := List.length_eq_zero_iff.mp (Nat.le_zero.mp hb)
            exact passes_succ_of_idle a rfl
        | succ b => rw [passes_succ_of_idle a idle, passes_succ_of_idle b idle]
      · have hlt := length_pass_snd_lt idle
        cases b with
        | zero => omega
        | succ b =>
            have ha' : (pass parent placed ns).2.length ≤ a := by omega
            have hb' : (pass parent placed ns).2.length ≤ b := by omega
            rw [passes_succ_of_busy a idle, passes_succ_of_busy b idle, ih ha' hb']

end Pass

section Numbers

variable (parent : String → String) (seeds rest : List String)

/-- A name waits for no other one of the rest. -/
def Direct (n : String) : Prop := ClassName.isRoot (parent n) = true ∨ parent n ∈ seeds

/-- The pass that places a name: the first one if it waits for none, and otherwise the one that
places its parent if that has the smaller name, and the one after it if not. -/
inductive PlacedIn : Nat → String → Prop
  | first {n : String} (mem : n ∈ rest) (direct : Direct parent seeds n) : PlacedIn 1 n
  | same {k : Nat} {n : String} (mem : n ∈ rest) (waits : ¬ Direct parent seeds n)
      (above : PlacedIn k (parent n)) (lt : parent n < n) : PlacedIn k n
  | next {k : Nat} {n : String} (mem : n ∈ rest) (waits : ¬ Direct parent seeds n)
      (above : PlacedIn k (parent n)) (lt : n < parent n) : PlacedIn (k + 1) n

end Numbers

namespace PlacedIn

variable {parent : String → String} {seeds rest : List String} {j k : Nat} {n : String}

theorem mem (h : PlacedIn parent seeds rest k n) : n ∈ rest := by
  cases h with
  | first mem => exact mem
  | same mem => exact mem
  | next mem => exact mem

theorem pos (h : PlacedIn parent seeds rest k n) : 0 < k := by
  induction h with
  | first => exact Nat.one_pos
  | same _ _ _ _ ih => exact ih
  | next _ _ _ _ ih => exact Nat.succ_pos _

/-- No two passes place the same name. -/
theorem unique (h : PlacedIn parent seeds rest j n) (h' : PlacedIn parent seeds rest k n) :
    j = k := by
  induction h generalizing k with
  | first _ direct =>
      cases h' with
      | first => rfl
      | same _ waits => exact absurd direct waits
      | next _ waits => exact absurd direct waits
  | same _ waits _ lt ih =>
      cases h' with
      | first _ direct => exact absurd direct waits
      | same _ _ above => exact ih above
      | next _ _ _ gt => exact absurd gt (lt_asymm lt)
  | next _ waits _ gt ih =>
      cases h' with
      | first _ direct => exact absurd direct waits
      | same _ _ _ lt => exact absurd lt (lt_asymm gt)
      | next _ _ above => exact congrArg (· + 1) (ih above)

/-- There is no gap: if a pass places something, so does every earlier one. -/
theorem exists_of_le (h : PlacedIn parent seeds rest k n) (hj : 0 < j) (hjk : j ≤ k) :
    ∃ m, PlacedIn parent seeds rest j m := by
  induction h generalizing j with
  | first mem direct =>
      obtain rfl : j = 1 := by omega
      exact ⟨_, .first mem direct⟩
  | same _ _ _ _ ih => exact ih hj hjk
  | next mem waits above lt ih =>
      rcases Nat.lt_or_ge _ j with hlt | hge
      · obtain rfl : j = _ := Nat.le_antisymm hjk hlt
        exact ⟨_, .next mem waits above lt⟩
      · exact ih hj hge

/-- Names can be numbered by their passes. -/
theorem exists_number (parent : String → String) (seeds rest : List String) :
    ∃ number : String → Nat, ∀ k n, PlacedIn parent seeds rest k n → number n = k := by
  classical
  refine ⟨fun n => if h : ∃ k, PlacedIn parent seeds rest k n then h.choose else 0, ?_⟩
  intro k n hn
  have hex : ∃ k, PlacedIn parent seeds rest k n := ⟨k, hn⟩
  simp only [hex, ↓reduceDIte]
  exact hex.choose_spec.unique hn

end PlacedIn

section Run

variable {parent : String → String} {seeds rest : List String}

/-- What holds after `k` passes: the names that they place are placed, the others are left. -/
structure After (parent : String → String) (seeds rest : List String) (k : Nat)
    (placed left : List String) : Prop where
  mem_placed : ∀ n, n ∈ placed ↔ n ∈ seeds ∨ ∃ j ≤ k, PlacedIn parent seeds rest j n
  mem_left : ∀ n, n ∈ left ↔ n ∈ rest ∧ ¬ ∃ j ≤ k, PlacedIn parent seeds rest j n
  increasing : left.Pairwise (· < ·)

/-- Before the first pass only the seeds are placed. -/
theorem After.zero (h : rest.Pairwise (· < ·)) : After parent seeds rest 0 seeds rest where
  mem_placed n := by
    refine ⟨.inl, ?_⟩
    rintro (h | ⟨j, hj, h⟩)
    · exact h
    · exact absurd h.pos (by omega)
  mem_left n := by
    refine ⟨fun hn => ⟨hn, ?_⟩, And.left⟩
    rintro ⟨j, hj, h⟩
    exact absurd h.pos (by omega)
  increasing := h

variable {k : Nat} {placed left : List String}

/-- What is placed later is left now. -/
theorem After.mem_left_of_lt (h : After parent seeds rest k placed left) {j : Nat} {n : String}
    (hn : PlacedIn parent seeds rest j n) (hj : k < j) : n ∈ left := by
  refine (h.mem_left n).mpr ⟨hn.mem, ?_⟩
  rintro ⟨i, hi, hn'⟩
  have := hn.unique hn'
  omega

/-- The names that the next pass places are those with the next number. -/
theorem After.mem_pass_fst (h : After parent seeds rest k placed left) {n : String} :
    n ∈ (pass parent placed left).1 ↔ PlacedIn parent seeds rest (k + 1) n := by
  have key (m : String) : m ∈ (pass parent placed left).1 ↔ _ := Batch.mem_pass_fst h.increasing
  constructor
  · intro hn
    -- A pass follows parents to smaller names only, of which there are finitely many.
    have hwf : {m | m ∈ (pass parent placed left).1}.WellFoundedOn (· < ·) :=
      (List.finite_toSet _).wellFoundedOn
    refine hwf.induction hn ?_
    intro m hm ih
    obtain ⟨hleft, hm⟩ := (key m).mp hm
    obtain ⟨hrest, hnot⟩ := (h.mem_left m).mp hleft
    by_cases direct : Direct parent seeds m
    · have hfirst := PlacedIn.first hrest direct
      obtain rfl : k = 0 := by
        by_contra hk
        exact hnot ⟨1, by omega, hfirst⟩
      exact hfirst
    · rcases hm with hroot | hplaced | ⟨hdone, hlt⟩
      · exact absurd (.inl hroot) direct
      · rcases (h.mem_placed _).mp hplaced with hseed | ⟨j, hj, above⟩
        · exact absurd (.inr hseed) direct
        · rcases lt_trichotomy (parent m) m with hlt | heq | hlt
          · exact absurd ⟨j, hj, .same hrest direct above hlt⟩ hnot
          · exact absurd ⟨j, hj, heq ▸ above⟩ hnot
          · have hnext := PlacedIn.next hrest direct above hlt
            obtain rfl : j = k := by
              by_contra hne
              exact hnot ⟨j + 1, by omega, hnext⟩
            exact hnext
      · exact .same hrest direct (ih _ hdone hlt) hlt
  · intro hn
    have hleft := h.mem_left_of_lt hn (Nat.lt_succ_self k)
    generalize hi : k + 1 = i at hn
    induction hn with
    | first mem direct =>
        refine (key _).mpr ⟨hleft, ?_⟩
        rcases direct with hroot | hseed
        · exact .inl hroot
        · exact .inr (.inl ((h.mem_placed _).mpr (.inl hseed)))
    | same mem waits above lt ih =>
        have habove := ih (h.mem_left_of_lt above (by omega)) hi
        exact (key _).mpr ⟨hleft, .inr (.inr ⟨habove, lt⟩)⟩
    | next mem waits above lt =>
        have hplaced := (h.mem_placed _).mpr (.inr ⟨_, by omega, above⟩)
        exact (key _).mpr ⟨hleft, .inr (.inl hplaced)⟩

/-- One more pass places the names of the next number. -/
theorem After.succ (h : After parent seeds rest k placed left) :
    After parent seeds rest (k + 1) ((pass parent placed left).1 ++ placed)
      (pass parent placed left).2 where
  mem_placed n := by
    simp only [List.mem_append, h.mem_pass_fst, h.mem_placed, Nat.le_succ_iff]
    grind
  mem_left n := by
    simp only [mem_pass_snd h.increasing, h.mem_pass_fst, h.mem_left, Nat.le_succ_iff]
    grind
  increasing := h.increasing.sublist pass_snd_sublist

/-- A pass that places nothing is the last one that could. -/
theorem After.placedIn_le (h : After parent seeds rest k placed left)
    (idle : (pass parent placed left).1 = []) {j : Nat} {n : String}
    (hn : PlacedIn parent seeds rest j n) : j ≤ k := by
  by_contra hj
  obtain ⟨m, hm⟩ := hn.exists_of_le (Nat.succ_pos k) (by omega)
  have := h.mem_pass_fst.mpr hm
  rw [idle] at this
  exact List.not_mem_nil this

/-- One name is placed before another: by an earlier pass, or by the same one at a smaller name. -/
def Before (parent : String → String) (seeds rest : List String) (m n : String) : Prop :=
  ∃ i j, PlacedIn parent seeds rest i m ∧ PlacedIn parent seeds rest j n ∧ (i < j ∨ i = j ∧ m < n)

/-- No two names are placed before each other. -/
theorem Before.asymm {m n : String} (h : Before parent seeds rest m n) :
    ¬ Before parent seeds rest n m := by
  rintro ⟨i', j', hn', hm', h'⟩
  obtain ⟨i, j, hm, hn, h⟩ := h
  obtain rfl := hm.unique hm'
  obtain rfl := hn.unique hn'
  rcases h with h | ⟨rfl, h⟩
  · omega
  · rcases h' with h' | ⟨-, h'⟩
    · omega
    · exact lt_asymm h h'

/-- What the passes place and leave from where `k` of them have come. -/
structure Completes (parent : String → String) (seeds rest : List String) (k : Nat)
    (run : List String × List String) : Prop where
  mem_fst : ∀ n, n ∈ run.1 ↔ ∃ j > k, PlacedIn parent seeds rest j n
  mem_snd : ∀ n, n ∈ run.2 ↔ n ∈ rest ∧ ¬ ∃ j, PlacedIn parent seeds rest j n
  before : run.1.Pairwise (Before parent seeds rest)
  increasing : run.2.Pairwise (· < ·)

/-- If there are no later names, what is left is stuck. -/
theorem After.completes_of_le (h : After parent seeds rest k placed left)
    (hle : ∀ j n, PlacedIn parent seeds rest j n → j ≤ k) :
    Completes parent seeds rest k ([], left) where
  mem_fst n := by
    refine ⟨fun hn => absurd hn List.not_mem_nil, ?_⟩
    rintro ⟨j, hj, hn⟩
    exact absurd (hle j n hn) (by omega)
  mem_snd n := by
    rw [h.mem_left]
    refine and_congr_right fun _ => not_congr ⟨?_, ?_⟩
    · rintro ⟨j, _, hn⟩
      exact ⟨j, hn⟩
    · rintro ⟨j, hn⟩
      exact ⟨j, hle j n hn, hn⟩
  before := .nil
  increasing := h.increasing

/-- A pass and all that follow it complete the placement. -/
theorem After.completes_cons (h : After parent seeds rest k placed left)
    {run : List String × List String} (hrun : Completes parent seeds rest (k + 1) run) :
    Completes parent seeds rest k ((pass parent placed left).1 ++ run.1, run.2) where
  mem_fst n := by
    simp only [List.mem_append, h.mem_pass_fst, hrun.mem_fst]
    constructor
    · rintro (hn | ⟨j, hj, hn⟩)
      · exact ⟨k + 1, Nat.lt_succ_self k, hn⟩
      · exact ⟨j, by omega, hn⟩
    · rintro ⟨j, hj, hn⟩
      rcases Nat.lt_or_ge (k + 1) j with hlt | hge
      · exact .inr ⟨j, hlt, hn⟩
      · obtain rfl : j = k + 1 := by omega
        exact .inl hn
  mem_snd := hrun.mem_snd
  before := by
    refine List.pairwise_append.mpr ⟨?_, hrun.before, ?_⟩
    · refine (h.increasing.sublist pass_fst_sublist).imp_of_mem fun hm hn hlt => ?_
      exact ⟨k + 1, k + 1, h.mem_pass_fst.mp hm, h.mem_pass_fst.mp hn, .inr ⟨rfl, hlt⟩⟩
    · intro m hm n hn
      obtain ⟨j, hj, hn⟩ := (hrun.mem_fst n).mp hn
      exact ⟨k + 1, j, h.mem_pass_fst.mp hm, hn, .inl hj⟩
  increasing := hrun.increasing

/-- As many passes as there are names left are enough. -/
theorem After.passes (h : After parent seeds rest k placed left) {fuel : Nat}
    (hfuel : left.length ≤ fuel) :
    Completes parent seeds rest k (passes parent fuel placed left) := by
  induction fuel generalizing k placed left with
  | zero =>
      obtain rfl : left = [] := List.length_eq_zero_iff.mp (Nat.le_zero.mp hfuel)
      refine h.completes_of_le fun j n hn => ?_
      by_contra hj
      exact List.not_mem_nil (h.mem_left_of_lt hn (by omega))
  | succ fuel ih =>
      by_cases idle : (pass parent placed left).1 = []
      · rw [passes_succ_of_idle fuel idle]
        exact h.completes_of_le fun j n hn => h.placedIn_le idle hn
      · rw [passes_succ_of_busy fuel idle]
        have hlt := length_pass_snd_lt idle
        exact h.completes_cons (ih h.succ (by omega))

end Run

end ClassSchema.Batch
