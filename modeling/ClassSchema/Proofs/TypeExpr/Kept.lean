import ClassSchema.Proofs.TypeExpr.WellFormed

/-! # The texts that types keep

A function keeps its signature and a placeholder its candidates, as texts that are not read any
further. Only the parentheses of the whole type are checked, and the texts are cut out of it at the
last parenthesis and at semicolons. So the parentheses of what is kept match if the cuts are where
those of the type are closed, and only then. -/

namespace ClassSchema.TypeExpr

/-- The texts that a node keeps for later use. -/
def kept : TypeExpr → List String
  | .function signature _ => [signature]
  | .placeholder _ candidates _ => candidates
  | _ => []

/-- The kept texts are cut out where no parenthesis is open: the first parenthesis of a function is
closed by its last character, and those before a semicolon in a placeholder are closed. -/
def CutOutside : TypeExpr → Prop
  | .function _ source => ∀ start, "FUNCTION(".toList <+: start → start <+: source.toList →
      Matched start → start = source.toList
  | .placeholder _ _ source => ∀ start rest, source.toList = start ++ ';' :: rest → Matched start
  | _ => True

/-! ## Signatures -/

/-- The parentheses of a signature match if the first one of the function is closed by the last. -/
theorem matched_signature_iff {source inner : List Char}
    (htext : source = "FUNCTION(".toList ++ (inner ++ [')'])) (h : Matched source) :
    Matched inner ↔ ∀ start, "FUNCTION(".toList <+: start → start <+: source → Matched start →
      start = source := by
  subst htext
  have hopen : "FUNCTION(".toList.countP (· == '(') = 1 := rfl
  have hclose : "FUNCTION(".toList.countP (· == ')') = 0 := rfl
  constructor
  · rintro hinner _ ⟨start, rfl⟩ hprefix hstart
    rw [List.prefix_append_right_inj, List.prefix_concat_iff] at hprefix
    rcases hprefix with rfl | hprefix
    · rfl
    · have hle := hinner.closes_le start ((List.mem_inits _ _).mpr hprefix)
      have htotal := hstart.total
      rw [List.countP_append, List.countP_append] at htotal
      omega
  · intro hcut
    refine ⟨fun start hstart => ?_, ?_⟩
    -- Were a parenthesis closed too often in the signature, the text up to there would be matched
    -- with the parenthesis before it.
    · rw [List.mem_inits] at hstart
      have hprefix : "FUNCTION(".toList ++ start <+: "FUNCTION(".toList ++ (inner ++ [')']) :=
        (List.prefix_append_right_inj _).mpr (hstart.trans (List.prefix_append _ _))
      have hle := h.closes_le _ ((List.mem_inits _ _).mpr hprefix)
      by_contra hlt
      have hmatched : Matched ("FUNCTION(".toList ++ start) := by
        apply h.of_prefix hprefix
        rw [List.countP_append, List.countP_append] at hle ⊢
        omega
      have heq := List.append_cancel_left (hcut _ (List.prefix_append _ _) hprefix hmatched)
      have hlength := hstart.length_le
      rw [heq, List.length_append, List.length_singleton] at hlength
      omega
    · have htotal := h.total
      simp only [List.countP_append, hopen, hclose] at htotal
      simp at htotal
      omega

/-! ## Candidates -/

section Semicolon

variable {c : Char} {opening closing text start rest : List Char}

/-- A character that does not occur in the first part of a text is found in the second. -/
theorem exists_of_append_left (hopening : c ∉ opening)
    (h : opening ++ text = start ++ c :: rest) :
    ∃ before, start = opening ++ before ∧ text = before ++ c :: rest := by
  rcases List.append_eq_append_iff.mp h with ⟨before, rfl, htext⟩ | ⟨between, rfl, hbetween⟩
  · exact ⟨before, rfl, htext⟩
  · cases between with
    | nil => exact ⟨[], by simp, hbetween.symm⟩
    | cons d between =>
        obtain ⟨rfl, -⟩ := List.cons.inj hbetween
        simp at hopening

/-- One that does not occur in the second part is found in the first. -/
theorem exists_of_append_right (hclosing : c ∉ closing)
    (h : text ++ closing = start ++ c :: rest) : ∃ after, text = start ++ c :: after := by
  rcases List.append_eq_append_iff.mp h with ⟨between, rfl, rfl⟩ | ⟨after, rfl, hafter⟩
  · simp at hclosing
  · cases after with
    | nil =>
        rw [List.nil_append] at hafter
        simp [← hafter] at hclosing
    | cons d after =>
        obtain ⟨rfl, -⟩ := List.cons.inj hafter
        exact ⟨after, rfl⟩

/-- A matched text and a semicolon in front make no difference. -/
theorem Matched.append_semicolon_iff (h : Matched opening) :
    Matched (opening ++ ';' :: text) ↔ Matched text := by
  have hsemicolon : Matched [';'] := ⟨by decide, rfl⟩
  rw [h.append_iff]
  exact hsemicolon.append_iff

end Semicolon

/-- A text falls apart at the semicolons into texts whose parentheses match just if all parentheses
are closed before each of them. -/
theorem forall_split_matched_iff {text : List Char} (h : Matched text) :
    (∀ piece ∈ Chars.split (· == ';') text, Matched piece) ↔
      ∀ start rest, text = start ++ ';' :: rest → Matched start := by
  have hfree {piece : List Char} (hpiece : ';' ∉ piece) : ∀ c ∈ piece, (c == ';') = false := by
    intro c hc
    rw [beq_eq_false_iff_ne]
    exact fun heq => hpiece (heq ▸ hc)
  by_cases hmem : ';' ∈ text
  · obtain ⟨piece, tail, rfl, hpiece⟩ := List.eq_append_cons_of_mem hmem
    have htail (hfirst : Matched piece) :=
      forall_split_matched_iff (hfirst.append_semicolon_iff.mp h)
    rw [Chars.split_append_cons rfl (hfree hpiece), List.forall_mem_cons]
    constructor
    · rintro ⟨hfirst, hrest⟩ start rest heq
      obtain ⟨between, rfl, hbetween⟩ := exists_of_append_left hpiece heq
      cases between with
      | nil => rwa [List.append_nil]
      | cons c later =>
          obtain ⟨rfl, hlater⟩ := List.cons.inj hbetween
          exact hfirst.append_semicolon_iff.mpr ((htail hfirst).mp hrest later rest hlater)
    · intro hstarts
      have hfirst := hstarts piece tail rfl
      refine ⟨hfirst, (htail hfirst).mpr ?_⟩
      rintro start rest rfl
      rw [← hfirst.append_semicolon_iff]
      exact hstarts _ rest (by simp)
  · rw [Chars.split_eq_singleton (hfree hmem), List.forall_mem_singleton]
    refine iff_of_true h ?_
    rintro start rest rfl
    simp at hmem
termination_by text.length

/-- The parentheses of the candidates match if those before each semicolon do. -/
theorem matched_candidates_iff {source head inner : List Char} (hhead : Plain head)
    (htext : source = head ++ ('[' :: inner ++ [']'])) (h : Matched source) :
    (∀ c ∈ candidateList inner, Matched c.toList) ↔
      ∀ start rest, source = start ++ ';' :: rest → Matched start := by
  have hframe : source = (head ++ ['[']) ++ (inner ++ [']']) := by simp [htext]
  have hopening : Matched (head ++ ['[']) := by
    have hplain : Matched head := matched_of_unmarked fun c hc => (hhead c hc).2
    rw [hplain.append_iff]
    exact ⟨by decide, rfl⟩
  have hsemicolon : ';' ∉ head ++ ['['] := by
    rw [List.mem_append, not_or]
    exact ⟨fun hmem => Bool.noConfusion (hhead _ hmem).2, by decide⟩
  rw [hframe, hopening.append_iff] at h
  have hinner : Matched inner := by
    apply h.of_prefix (List.prefix_append inner [']'])
    simpa [List.countP_append] using h.total
  have hpieces : (∀ c ∈ candidateList inner, Matched c.toList) ↔
      ∀ piece ∈ Chars.split (· == ';') inner, Matched piece := by
    constructor
    · intro hcandidates piece hpiece
      by_cases hblank : Chars.trim piece = []
      · rw [← matched_trim, hblank]
        exact ⟨by simp, rfl⟩
      · have hc := hcandidates _ (mem_candidateList.mpr ⟨piece, hpiece, hblank, rfl⟩)
        rwa [String.toList_ofList, matched_trim] at hc
    · intro hsplit c hc
      obtain ⟨piece, hpiece, -, rfl⟩ := mem_candidateList.mp hc
      rw [String.toList_ofList, matched_trim]
      exact hsplit piece hpiece
  rw [hpieces, forall_split_matched_iff hinner, hframe]
  constructor
  · intro hstarts start rest heq
    obtain ⟨before, rfl, hbefore⟩ := exists_of_append_left hsemicolon heq
    obtain ⟨after, rfl⟩ := exists_of_append_right (by decide) hbefore
    exact hopening.append_iff.mpr (hstarts before after rfl)
  · rintro hstarts start rest rfl
    rw [← hopening.append_iff]
    exact hstarts _ (rest ++ [']']) (by simp)

/-! ## All nodes -/

/-- So it is for all that a node keeps. -/
theorem ReadAs.kept_iff {source : List Char} {t : TypeExpr} (h : ReadAs source t)
    (hmatched : Matched source) : (∀ text ∈ t.kept, Matched text.toList) ↔ t.CutOutside := by
  have hsource : (String.ofList source).toList = source := String.toList_ofList
  cases h with
  | placeholder hplain =>
      refine iff_of_true (List.forall_mem_nil _) ?_
      intro start rest htext
      rw [hsource] at htext
      have hmark := (hplain ';' (by simp [htext])).2
      cases hmark
  | choice hplain htext =>
      rw [CutOutside, hsource]
      exact matched_candidates_iff hplain htext hmatched
  | function htext =>
      rw [CutOutside, hsource, ← matched_signature_iff htext hmatched, kept,
        List.forall_mem_singleton, String.toList_ofList, matched_trim]
  | _ => exact iff_of_true (List.forall_mem_nil _) trivial

/-- The parentheses of what a node of a type keeps match if and only if it is cut out where no
parenthesis is open. -/
theorem matched_kept_iff {expr : String} {t : TypeExpr} (h : parse expr = .ok t) :
    ∀ s : TypeExpr, s.Within t → ((∀ text ∈ s.kept, Matched text.toList) ↔ s.CutOutside) := by
  intro s hs
  obtain ⟨expr', h'⟩ := exists_parse_of_within h hs
  exact (readAs_of_parse h').kept_iff (parse_eq_ok h').2.1

/-- Texts with parentheses of their own are kept, below a constructor as well. -/
theorem matched_kept_nested :
    ∃ t, parse "PAIR(FUNCTION(f(x)(y)), TEMPLATE[MAP(A); B])" = .ok t ∧
      t.arguments.map kept = [["f(x)(y)"], ["MAP(A)", "B"]] ∧
      ∀ arg ∈ t.arguments, (∀ text ∈ arg.kept, Matched text.toList) ∧ arg.CutOutside := by
  have hpair : parse "PAIR(FUNCTION(f(x)(y)), TEMPLATE[MAP(A); B])" = .ok (.composite "PAIR"
      [.function "f(x)(y)" "FUNCTION(f(x)(y))",
        .placeholder none ["MAP(A)", "B"] "TEMPLATE[MAP(A); B]"]
      "PAIR(FUNCTION(f(x)(y)), TEMPLATE[MAP(A); B])") := rfl
  refine ⟨_, hpair, rfl, ?_⟩
  intro arg harg
  rw [← matched_kept_iff hpair arg (.argument harg .self), and_self]
  rcases List.mem_pair.mp harg with rfl | rfl
  · exact List.forall_mem_singleton.mpr ⟨by decide, rfl⟩
  · rw [kept, List.forall_mem_cons, List.forall_mem_singleton]
    exact ⟨⟨by decide, rfl⟩, ⟨by decide, rfl⟩⟩

/-- A function whose first parenthesis is not closed by its last character, and a placeholder with a
semicolon in parentheses. -/
theorem kept_unmatched :
    parse "FUNCTION(a)(b)" = .ok (.function "a)(b" "FUNCTION(a)(b)") ∧ ¬ Matched "a)(b".toList ∧
    parse "TEMPLATE[MAP(A;B)]" = .ok (.placeholder none ["MAP(A", "B)"] "TEMPLATE[MAP(A;B)]") ∧
    ¬ Matched "MAP(A".toList := by
  refine ⟨rfl, fun h => ?_, rfl, fun h => ?_⟩
  · exact absurd (h.closes_le "a)".toList (by decide)) (by decide)
  · exact absurd h.total (by decide)

end ClassSchema.TypeExpr
