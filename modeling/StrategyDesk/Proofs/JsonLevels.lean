import StrategyDesk.Proofs.JsonTexts

set_option autoImplicit false

namespace StrategyDesk.Json
open Text

mutual
/-- More arrays and objects than there are levels open in one another at the front of a text,
before anything in it is wrong. -/
inductive Overruns : Nat → List CodePoint → Prop where
  | array {r : List CodePoint} : Overruns 0 (.char '[' :: r)
  | object {r : List CodePoint} : Overruns 0 (.char '{' :: r)
  | inArray {n : Nat} {g r : List CodePoint} (hg : IsGaps g) (h : ItemsOverrun n r) :
    Overruns (n + 1) (.char '[' :: (g ++ r))
  | inObject {n : Nat} {g r : List CodePoint} (hg : IsGaps g) (h : MembersOverrun n r) :
    Overruns (n + 1) (.char '{' :: (g ++ r))
inductive ItemsOverrun : Nat → List CodePoint → Prop where
  | first {n : Nat} {r : List CodePoint} (h : Overruns n r) : ItemsOverrun n r
  | later {n : Nat} {t g g' r : List CodePoint} {j : Json} (ht : Spells t j) (hg : IsGaps g)
    (hg' : IsGaps g') (h : ItemsOverrun n r) : ItemsOverrun n (t ++ (g ++ .char ',' :: (g' ++ r)))
inductive MembersOverrun : Nat → List CodePoint → Prop where
  | first {n : Nat} {m r : List CodePoint} {name : Text} (hm : Named m name) (h : Overruns n r) :
    MembersOverrun n (m ++ r)
  | later {n : Nat} {m t g g' r : List CodePoint} {name : Text} {j : Json} (hm : Named m name)
    (ht : Spells t j) (hg : IsGaps g) (hg' : IsGaps g') (h : MembersOverrun n r) :
    MembersOverrun n (m ++ (t ++ (g ++ .char ',' :: (g' ++ r))))
end

mutual
theorem overruns_of_value {n : Nat} {s : List CodePoint} (h : bare (value n s) = .error .tooDeep) :
    Overruns n s := by
  obtain ⟨r, hs⟩ | ⟨r, hs⟩ | ⟨r, hs⟩ | hscalar := value_front n s
  · rw [hs, value_quote, map_eq_error_iff] at h
    exact absurd (map_eq_error_iff.1 h) (stringBody_ne_tooDeep _ r)
  · obtain ⟨g, hg, hr⟩ := exists_gaps r
    have hlen := length_skipGaps_le r
    rw [hs] at h
    cases n with
    | zero =>
      rw [hs]
      exact .array
    | succ n =>
      by_cases hempty : ∃ u, skipGaps r = .char ']' :: u
      · obtain ⟨u, hu⟩ := hempty
        rw [value_bracket_empty hu] at h
        cases h
      · rw [value_bracket_items fun u hu => hempty ⟨u, hu⟩, map_eq_error_iff] at h
        have hitems := itemsOverrun_of_items h
        rw [hs, hr]
        exact .inArray hg hitems
  · obtain ⟨g, hg, hr⟩ := exists_gaps r
    have hlen := length_skipGaps_le r
    rw [hs] at h
    cases n with
    | zero =>
      rw [hs]
      exact .object
    | succ n =>
      by_cases hempty : ∃ u, skipGaps r = .char '}' :: u
      · obtain ⟨u, hu⟩ := hempty
        rw [value_brace_empty hu] at h
        cases h
      · rw [value_brace_members fun u hu => hempty ⟨u, hu⟩, map_eq_error_iff] at h
        have hmembers := membersOverrun_of_members h
        rw [hs, hr]
        exact .inObject hg hmembers
  · rw [hscalar] at h
    exact absurd h (scalar_ne_tooDeep s)
termination_by 2 * s.length
decreasing_by all_goals (simp only [hs, List.length_cons]; omega)
theorem itemsOverrun_of_items {n : Nat} {s : List CodePoint}
    (h : bare (items n s) = .error .tooDeep) : ItemsOverrun n s := by
  rw [items_eq] at h
  cases hread : bare (value n s) with
  | error e =>
    rw [hread] at h
    cases h
    exact .first (overruns_of_value hread)
  | ok x =>
    obtain ⟨j, r⟩ := x
    obtain ⟨t, hs, hj⟩ := spells_of_value hread
    obtain ⟨g, hg, hr⟩ := exists_gaps r
    have hlen := congrArg List.length hs
    simp only [hread] at h
    split at h
    · cases h
    · rename_i u hu
      have hlater := length_lt_of_skipGaps hu
      obtain ⟨g', hg', hr'⟩ := exists_gaps u
      have hitems := itemsOverrun_of_items (map_eq_error_iff.1 h)
      rw [hs, hr, hu, hr']
      exact .later hj hg hg' hitems
    · cases h
termination_by 2 * s.length + 1
decreasing_by
  · omega
  · simp only [List.length_append] at hlen
    omega
theorem membersOverrun_of_members {n : Nat} {seen : Members} {s : List CodePoint}
    (h : bare (members n seen s) = .error .tooDeep) : MembersOverrun n s := by
  rw [members_eq] at h
  cases hname : memberName s with
  | error e =>
    rw [hname] at h
    cases h
    exact absurd hname (memberName_ne_tooDeep s)
  | ok x =>
    obtain ⟨name, s'⟩ := x
    obtain ⟨-, m, hm, hs⟩ := named_of_memberName hname
    have hlen := congrArg List.length hs
    have hpos := hm.length_pos
    simp only [hname] at h
    cases hread : bare (value n s') with
    | error e =>
      rw [hread] at h
      cases h
      rw [hs]
      exact .first hm (overruns_of_value hread)
    | ok x =>
      obtain ⟨j, r⟩ := x
      obtain ⟨t, ht, hj⟩ := spells_of_value hread
      obtain ⟨g, hg, hr⟩ := exists_gaps r
      have hlenTail := congrArg List.length ht
      simp only [hread] at h
      split at h
      · cases h
      · rename_i u hu
        have hlater := length_lt_of_skipGaps hu
        obtain ⟨g', hg', hr'⟩ := exists_gaps u
        have hmembers := membersOverrun_of_members h
        rw [hs, ht, hr, hu, hr']
        exact .later hm hj hg hg' hmembers
      · cases h
termination_by 2 * s.length + 1
decreasing_by
  · simp only [List.length_append] at hlen
    omega
  · simp only [List.length_append] at hlen hlenTail
    omega
end

theorem Overruns.opens {n : Nat} {s : List CodePoint} (h : Overruns n s) : Opens s := by
  cases h <;> exact ⟨_, _, rfl, by decide, by decide, by decide⟩

theorem ItemsOverrun.opens {n : Nat} {s : List CodePoint} (h : ItemsOverrun n s) : Opens s := by
  cases h with
  | first h => exact h.opens
  | later ht => exact ht.opens.append _

theorem MembersOverrun.opens {n : Nat} {s : List CodePoint} (h : MembersOverrun n s) : Opens s := by
  cases h with
  | first hm => exact hm.opens.append _
  | later hm => exact hm.opens.append _

mutual
theorem Overruns.tooDeep {n : Nat} {s : List CodePoint} (h : Overruns n s) :
    bare (value n s) = .error .tooDeep := by
  cases h with
  | array =>
    rw [value_bracket_zero]
    rfl
  | object =>
    rw [value_brace_zero]
    rfl
  | @inArray n g r hg h =>
    have hskip : skipGaps (g ++ r) = r := skipGaps_append h.opens.startsOutside hg
    rw [value_bracket_items (by rw [hskip]; exact h.opens.ne_bracket), hskip, h.tooDeep]
    rfl
  | @inObject n g r hg h =>
    have hskip : skipGaps (g ++ r) = r := skipGaps_append h.opens.startsOutside hg
    rw [value_brace_members (by rw [hskip]; exact h.opens.ne_brace), hskip, h.tooDeep []]
    rfl
termination_by 2 * s.length
decreasing_by all_goals (subst_vars; simp only [List.length_cons, List.length_append]; omega)
theorem ItemsOverrun.tooDeep {n : Nat} {s : List CodePoint} (h : ItemsOverrun n s) :
    bare (items n s) = .error .tooDeep := by
  rw [items_eq]
  cases h with
  | first h => rw [h.tooDeep]
  | @later n t g g' r j ht hg hg' h =>
    have hcomma : skipGaps (g ++ .char ',' :: (g' ++ r)) = .char ',' :: (g' ++ r) :=
      skipGaps_append (startsOutside_cons (by decide) _) hg
    have hskip : skipGaps (g' ++ r) = r := skipGaps_append h.opens.startsOutside hg'
    obtain hread | hread := ht.reads n ((ends_comma (g' ++ r)).append hg)
    · rw [hread]
      simp only [hcomma]
      rw [hskip, h.tooDeep]
      rfl
    · rw [hread]
termination_by 2 * s.length + 1
decreasing_by
  · subst_vars
    omega
  · simp only [List.length_cons, List.length_append]
    omega
theorem MembersOverrun.tooDeep {n : Nat} {s : List CodePoint} (h : MembersOverrun n s)
    (seen : Members) : bare (members n seen s) = .error .tooDeep := by
  rw [members_eq]
  cases h with
  | @first n m r name hm h =>
    rw [memberName_append hm h.opens.startsOutside]
    simp only
    rw [h.tooDeep]
  | @later n m t g g' r name j hm ht hg hg' h =>
    have hcomma : skipGaps (g ++ .char ',' :: (g' ++ r)) = .char ',' :: (g' ++ r) :=
      skipGaps_append (startsOutside_cons (by decide) _) hg
    have hskip : skipGaps (g' ++ r) = r := skipGaps_append h.opens.startsOutside hg'
    rw [memberName_append hm (ht.opens.append _).startsOutside]
    simp only
    obtain hread | hread := ht.reads n ((ends_comma (g' ++ r)).append hg)
    · rw [hread]
      simp only [hcomma]
      rw [hskip, h.tooDeep]
    · rw [hread]
termination_by 2 * s.length + 1
decreasing_by all_goals (subst_vars; simp only [List.length_cons, List.length_append]; omega)
end

/-! ### Whole texts -/

/-- A value with gaps around it. -/
inductive IsText : List CodePoint → Json → Prop where
  | intro {g t g' : List CodePoint} {j : Json} (hg : IsGaps g) (ht : Spells t j) (hg' : IsGaps g') :
    IsText (g ++ (t ++ g')) j

theorem IsText.brace_mem {s : List CodePoint} {ms : Members} (h : IsText s (.obj ms)) :
    .char '{' ∈ s := by
  obtain ⟨-, ht, -⟩ := h
  have hunsigned {negative : Bool} {t : List CodePoint} (h : Unsigned negative t (.obj ms)) :
      False := by
    cases h
  cases ht with
  | scalar h =>
    cases h with
    | word h => cases h
    | positive h => exact (hunsigned h).elim
    | negative h => exact (hunsigned h).elim
  | noMembers => simp
  | object => simp

theorem readPoints_eq (levels : Nat) (s : List CodePoint) : readPoints levels s =
    match bare (value levels (skipGaps s)) with
    | .error e => .error e
    | .ok (j, rest) =>
      match skipGaps rest with
      | [] => .ok j
      | t => .error (.mistake t.length) := by
  unfold readPoints
  cases value levels (skipGaps s) <;> rfl

theorem readPoints_eq_tooDeep_iff {levels : Nat} {s : List CodePoint} :
    readPoints levels s = .error .tooDeep ↔ Overruns levels (skipGaps s) := by
  rw [readPoints_eq]
  constructor
  · intro h
    split at h
    · rename_i e hread
      cases h
      exact overruns_of_value hread
    · split at h <;> cases h
  · intro h
    rw [h.tooDeep]

/-- A text that does not go too deep is read exactly if it is a JSON text, as what it holds. -/
theorem readPoints_eq_ok_iff {levels : Nat} {s : List CodePoint} {j : Json} :
    readPoints levels s = .ok j ↔ IsText s j ∧ ¬ Overruns levels (skipGaps s) := by
  constructor
  · intro h
    refine ⟨?_, fun hdeep => ?_⟩
    · rw [readPoints_eq] at h
      split at h
      · cases h
      · rename_i v rest hread
        obtain ⟨t, ht, hv⟩ := spells_of_value hread
        obtain ⟨g, hg, hs⟩ := exists_gaps s
        obtain ⟨g', hg', hrest⟩ := exists_gaps rest
        split at h
        · rename_i hnil
          cases h
          rw [hnil, List.append_nil] at hrest
          rw [hs, ht, hrest]
          exact .intro hg hv hg'
        · cases h
    · rw [readPoints_eq_tooDeep_iff.2 hdeep] at h
      cases h
  · rintro ⟨⟨hg, ht, hg'⟩, hdeep⟩
    rename_i g t g'
    have hskip : skipGaps (g ++ (t ++ g')) = t ++ g' :=
      skipGaps_append (ht.opens.append g').startsOutside hg
    have hends : Ends g' := by
      have := ends_nil.append hg'
      rwa [List.append_nil] at this
    have hafter : skipGaps g' = [] := List.dropWhile_eq_nil_iff.2 hg'
    rw [hskip] at hdeep
    rw [readPoints_eq, hskip]
    obtain hread | hread := ht.reads levels hends
    · rw [hread]
      simp only [hafter]
    · exact absurd (overruns_of_value hread) hdeep

end StrategyDesk.Json
