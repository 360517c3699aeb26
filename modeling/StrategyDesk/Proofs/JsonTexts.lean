import StrategyDesk.Proofs.JsonStrings

set_option autoImplicit false

namespace StrategyDesk.Json
open Text

def IsGaps (g : List CodePoint) : Prop := ∀ c ∈ g, isGap c = true

/-- What a list of names and values comes to as members: a name keeps its first place and its last
value. -/
def gathered (seen : Members) (pairs : List (Text × Json)) : Members :=
  pairs.foldl (fun ms p => put ms p.1 p.2) seen

/-- The name of a member with its colon and the gaps around that. -/
inductive Named : List CodePoint → Text → Prop where
  | intro {q g g' : List CodePoint} {ps : List Piece} (hq : Quoted q ps) (hg : IsGaps g)
    (hg' : IsGaps g') : Named (.char '"' :: (q ++ (g ++ .char ':' :: g'))) (.ofPoints (joined ps))

mutual
/-- A JSON value as it is written, from its first character to its last. -/
inductive Spells : List CodePoint → Json → Prop where
  | scalar {t : List CodePoint} {v : Json} (h : Scalar t v) : Spells t v
  | string {q : List CodePoint} {ps : List Piece} (h : Quoted q ps) :
    Spells (.char '"' :: q) (.str (.ofPoints (joined ps)))
  | noItems {g : List CodePoint} (hg : IsGaps g) :
      Spells (.char '[' :: (g ++ [.char ']'])) (.arr [])
  | array {g t : List CodePoint} {js : List Json} (hg : IsGaps g) (h : SpellsItems t js) :
    Spells (.char '[' :: (g ++ t)) (.arr js)
  | noMembers {g : List CodePoint} (hg : IsGaps g) :
      Spells (.char '{' :: (g ++ [.char '}'])) (.obj [])
  | object {g t : List CodePoint} {pairs : List (Text × Json)} (hg : IsGaps g)
    (h : SpellsMembers t pairs) : Spells (.char '{' :: (g ++ t)) (.obj (gathered [] pairs))
inductive SpellsItems : List CodePoint → List Json → Prop where
  | last {t g : List CodePoint} {j : Json} (ht : Spells t j) (hg : IsGaps g) :
    SpellsItems (t ++ (g ++ [.char ']'])) [j]
  | more {t g g' u : List CodePoint} {j : Json} {js : List Json} (ht : Spells t j) (hg : IsGaps g)
    (hg' : IsGaps g') (hu : SpellsItems u js) :
    SpellsItems (t ++ (g ++ .char ',' :: (g' ++ u))) (j :: js)
inductive SpellsMembers : List CodePoint → List (Text × Json) → Prop where
  | last {m t g : List CodePoint} {name : Text} {j : Json} (hm : Named m name) (ht : Spells t j)
    (hg : IsGaps g) : SpellsMembers (m ++ (t ++ (g ++ [.char '}']))) [(name, j)]
  | more {m t g g' u : List CodePoint} {name : Text} {j : Json} {pairs : List (Text × Json)}
    (hm : Named m name) (ht : Spells t j) (hg : IsGaps g) (hg' : IsGaps g')
    (hu : SpellsMembers u pairs) :
    SpellsMembers (m ++ (t ++ (g ++ .char ',' :: (g' ++ u)))) ((name, j) :: pairs)
end

/-! ### The reader, one step at a time -/

theorem value_quote (n : Nat) (r : List CodePoint) : bare (value n (.char '"' :: r)) =
    (bare (stringBody (r.length + 1) r)).map fun x => (.str (.ofPoints x.1), x.2) := by
  unfold value
  simp only
  split
  · rename_i e he
    rw [he]
    rfl
  · rename_i cs rest hr hx
    rw [hx]
    rfl

theorem value_bracket_zero (r : List CodePoint) : value 0 (.char '[' :: r) = .error .tooDeep := by
  unfold value
  rfl

theorem value_brace_zero (r : List CodePoint) : value 0 (.char '{' :: r) = .error .tooDeep := by
  unfold value
  rfl

theorem value_bracket_empty {n : Nat} {r u : List CodePoint} (h : skipGaps r = .char ']' :: u) :
    bare (value (n + 1) (.char '[' :: r)) = .ok (.arr [], u) := by
  unfold value
  simp only [Nat.add_one_ne_zero, if_false]
  split
  · rename_i v hv
    rw [h] at hv
    cases hv
    rfl
  · rename_i hne
    exact (hne u h).elim

theorem value_brace_empty {n : Nat} {r u : List CodePoint} (h : skipGaps r = .char '}' :: u) :
    bare (value (n + 1) (.char '{' :: r)) = .ok (.obj [], u) := by
  unfold value
  simp only [Nat.add_one_ne_zero, if_false]
  split
  · rename_i v hv
    rw [h] at hv
    cases hv
    rfl
  · rename_i hne
    exact (hne u h).elim

theorem value_bracket_items {n : Nat} {r : List CodePoint} (h : ∀ u, skipGaps r ≠ .char ']' :: u) :
    bare (value (n + 1) (.char '[' :: r)) =
      (bare (items n (skipGaps r))).map fun x => (.arr x.1, x.2) := by
  unfold value
  simp only [Nat.add_one_ne_zero, if_false, Nat.add_sub_cancel]
  cases items n (skipGaps r) <;> rfl

theorem value_brace_members {n : Nat} {r : List CodePoint} (h : ∀ u, skipGaps r ≠ .char '}' :: u) :
    bare (value (n + 1) (.char '{' :: r)) =
      (bare (members n [] (skipGaps r))).map fun x => (.obj x.1, x.2) := by
  unfold value
  simp only [Nat.add_one_ne_zero, if_false, Nat.add_sub_cancel]
  cases members n [] (skipGaps r) <;> rfl

theorem value_scalar {n : Nat} {s : List CodePoint} (hq : ∀ r, s ≠ .char '"' :: r)
    (hb : ∀ r, s ≠ .char '[' :: r) (hc : ∀ r, s ≠ .char '{' :: r) : value n s = scalar s := by
  unfold value
  split
  · exact absurd rfl (hq _)
  · exact absurd rfl (hb _)
  · exact absurd rfl (hc _)
  · rfl

theorem value_front (n : Nat) (s : List CodePoint) :
    (∃ r, s = .char '"' :: r) ∨ (∃ r, s = .char '[' :: r) ∨ (∃ r, s = .char '{' :: r) ∨
      value n s = scalar s := by
  by_cases hquote : ∃ r, s = .char '"' :: r
  · exact Or.inl hquote
  by_cases hbracket : ∃ r, s = .char '[' :: r
  · exact Or.inr (Or.inl hbracket)
  by_cases hbrace : ∃ r, s = .char '{' :: r
  · exact Or.inr (Or.inr (Or.inl hbrace))
  · exact Or.inr (Or.inr (Or.inr (value_scalar (fun r hr => hquote ⟨r, hr⟩)
      (fun r hr => hbracket ⟨r, hr⟩) fun r hr => hbrace ⟨r, hr⟩)))

theorem items_eq (n : Nat) (s : List CodePoint) : bare (items n s) =
    match bare (value n s) with
    | .error e => .error e
    | .ok (j, rest) =>
      match skipGaps rest with
      | .char ']' :: u => .ok ([j], u)
      | .char ',' :: u => (bare (items n (skipGaps u))).map fun x => (j :: x.1, x.2)
      | t => .error (.mistake t.length) := by
  conv => lhs; unfold items
  cases value n s with
  | error e => rfl
  | ok x =>
    obtain ⟨j, rest, hr⟩ := x
    simp only
    split
    · rename_i u hu
      simp only [bare, Except.map, hu]
    · rename_i u hu
      simp only [bare, Except.map, hu]
      cases items n (skipGaps u) <;> rfl
    · simp only [bare, Except.map]

def memberName (s : List CodePoint) : Except ReadError (Text × List CodePoint) :=
  match s with
  | .char '"' :: r =>
    match bare (stringBody (r.length + 1) r) with
    | .error e => .error e
    | .ok (cs, rest) =>
      match skipGaps rest with
      | .char ':' :: t => .ok (.ofPoints cs, skipGaps t)
      | t => .error (.mistake t.length)
  | t => .error (.mistake t.length)

theorem members_eq (n : Nat) (seen : Members) (s : List CodePoint) : bare (members n seen s) =
    match memberName s with
    | .error e => .error e
    | .ok (name, t) =>
      match bare (value n t) with
      | .error e => .error e
      | .ok (j, rest) =>
        match skipGaps rest with
        | .char '}' :: u => .ok (put seen name j, u)
        | .char ',' :: u => bare (members n (put seen name j) (skipGaps u))
        | t => .error (.mistake t.length) := by
  conv => lhs; unfold members
  split
  · rename_i r
    simp only
    cases hread : stringBody (r.length + 1) r with
    | error e => simp only [memberName, hread, bare, Except.map]
    | ok x =>
      obtain ⟨cs, afterName, hn⟩ := x
      simp only
      split
      · rename_i t ht
        have hname : memberName (.char '"' :: r) = .ok (.ofPoints cs, skipGaps t) := by
          simp only [memberName, hread, bare, Except.map, ht]
        simp only [hname]
        cases hvalue : value n (skipGaps t) with
        | error e => rfl
        | ok y =>
          obtain ⟨j, rest, hr⟩ := y
          have hbare : bare (.ok (j, ⟨rest, hr⟩) : Except ReadError (Json × Rest (skipGaps t))) =
            .ok (j, rest) := rfl
          simp only [hbare]
          split
          · rename_i u hu
            simp only [hu]
            rfl
          · rename_i u hu
            simp only [hu]
            cases members n (put seen (.ofPoints cs) j) (skipGaps u) <;> rfl
          · simp only [bare, Except.map]
      · rename_i ht
        simp only [memberName, hread, bare, Except.map]
  · rename_i hquote
    have hname : memberName s = .error (.mistake s.length) := by
      unfold memberName
      split
      · exact (hquote _ rfl).elim
      · rfl
    rw [hname]
    rfl

/-! ### Gaps -/

theorem skipGaps_append {g rest : List CodePoint} (h : StartsOutside isGap rest) (hg : IsGaps g) :
    skipGaps (g ++ rest) = rest := h.dropWhile_append hg

theorem exists_gaps (s : List CodePoint) : ∃ g, IsGaps g ∧ s = g ++ skipGaps s :=
  ⟨s.takeWhile isGap, fun _ hc => List.mem_takeWhile_imp hc, List.takeWhile_append_dropWhile.symm⟩

theorem length_lt_of_skipGaps {r u : List CodePoint} {c : CodePoint} (h : skipGaps r = c :: u) :
    (skipGaps u).length < r.length := by
  have hfirst := length_skipGaps_le r
  have hsecond := length_skipGaps_le u
  rw [h, List.length_cons] at hfirst
  omega

theorem Ends.append {g rest : List CodePoint} (h : Ends rest) (hg : IsGaps g) :
    Ends (g ++ rest) := by
  cases g with
  | nil => exact h
  | cons c g => exact fun d hd => by cases hd; exact Or.inl (hg c List.mem_cons_self)

theorem ends_nil : Ends [] := fun _ h => nomatch h

theorem ends_comma (s : List CodePoint) : Ends (.char ',' :: s) := fun c h => by cases h; simp

theorem ends_bracket (s : List CodePoint) : Ends (.char ']' :: s) := fun c h => by cases h; simp

theorem ends_brace (s : List CodePoint) : Ends (.char '}' :: s) := fun c h => by cases h; simp

/-! ### Names -/

theorem memberName_append {m t : List CodePoint} {name : Text} (h : Named m name)
    (ht : StartsOutside isGap t) : memberName (m ++ t) = .ok (name, t) := by
  cases h with
  | @intro q g g' ps hq hg hg' =>
    have hcolon : skipGaps (g ++ .char ':' :: (g' ++ t)) = .char ':' :: (g' ++ t) :=
      skipGaps_append (startsOutside_cons (by decide) _) hg
    simp only [List.cons_append, List.append_assoc, memberName]
    rw [stringBody_append hq]
    simp only [hcolon, skipGaps_append ht hg']

theorem named_of_memberName {s t : List CodePoint} {name : Text}
    (h : memberName s = .ok (name, t)) :
    StartsOutside isGap t ∧ ∃ m, Named m name ∧ s = m ++ t := by
  unfold memberName at h
  split at h
  · rename_i r
    cases hread : bare (stringBody (r.length + 1) r) with
    | error e =>
      rw [hread] at h
      cases h
    | ok x =>
      obtain ⟨cs, rest⟩ := x
      obtain ⟨q, ps, rfl, hq, rfl⟩ := quoted_of_stringBody hread
      simp only [hread] at h
      split at h
      · rename_i u hu
        cases h
        obtain ⟨g, hg, hrest⟩ := exists_gaps rest
        obtain ⟨g', hg', hafter⟩ := exists_gaps u
        refine ⟨fun _ hc => head?_dropWhile hc, _, .intro hq hg hg', ?_⟩
        rw [hrest, hu]
        conv => lhs; rw [hafter]
        simp only [List.cons_append, List.append_assoc]
      · cases h
  · cases h

theorem memberName_ne_tooDeep (s : List CodePoint) : memberName s ≠ .error .tooDeep := by
  unfold memberName
  split
  · rename_i r
    cases hread : bare (stringBody (r.length + 1) r) with
    | error e =>
      rintro h
      cases h
      exact stringBody_ne_tooDeep _ r (map_eq_error_iff.1 hread)
    | ok x =>
      simp only
      split <;> (intro h; cases h)
  · intro h
    cases h

/-! ### Whatever is a JSON text is read -/

def Opens (t : List CodePoint) : Prop := ∃ c cs, t = c :: cs ∧ isGap c = false ∧ c ≠ ']' ∧ c ≠ '}'

theorem Opens.append {t : List CodePoint} (h : Opens t) (rest : List CodePoint) :
    Opens (t ++ rest) := by
  obtain ⟨c, cs, rfl, hc⟩ := h
  exact ⟨c, cs ++ rest, rfl, hc⟩

theorem Opens.startsOutside {t : List CodePoint} (h : Opens t) : StartsOutside isGap t := by
  obtain ⟨c, cs, rfl, hc, -⟩ := h
  exact startsOutside_cons hc cs

theorem Opens.ne_bracket {t : List CodePoint} (h : Opens t) (u : List CodePoint) :
    t ≠ .char ']' :: u := by
  obtain ⟨c, cs, rfl, -, hc, -⟩ := h
  exact fun heq => hc (List.cons.inj heq).1

theorem Opens.ne_brace {t : List CodePoint} (h : Opens t) (u : List CodePoint) :
    t ≠ .char '}' :: u := by
  obtain ⟨c, cs, rfl, -, -, hc⟩ := h
  exact fun heq => hc (List.cons.inj heq).1

theorem Named.opens {m : List CodePoint} {name : Text} (h : Named m name) : Opens m := by
  cases h
  exact ⟨_, _, rfl, by decide, by decide, by decide⟩

theorem Spells.opens {t : List CodePoint} {v : Json} (h : Spells t v) : Opens t := by
  cases h with
  | scalar h =>
    obtain ⟨c, cs, ht, hgap, hother⟩ := h.exists_cons
    exact ⟨c, cs, ht, hgap, by rintro rfl; exact hother (by decide),
      by rintro rfl; exact hother (by decide)⟩
  | _ => exact ⟨_, _, rfl, by decide, by decide, by decide⟩

theorem SpellsItems.opens {t : List CodePoint} {js : List Json} (h : SpellsItems t js) :
    Opens t := by
  cases h with
  | last ht => exact ht.opens.append _
  | more ht => exact ht.opens.append _

theorem SpellsMembers.opens {t : List CodePoint} {pairs : List (Text × Json)}
    (h : SpellsMembers t pairs) : Opens t := by
  cases h with
  | last hm => exact hm.opens.append _
  | more hm => exact hm.opens.append _

/-- What is read, unless the levels do not last. -/
def ReadsOrOverruns {α : Type} (x : Except ReadError α) (a : α) : Prop :=
  x = .ok a ∨ x = .error .tooDeep

theorem ReadsOrOverruns.map {α β : Type} {x : Except ReadError α} {a : α}
    (h : ReadsOrOverruns x a) (f : α → β) : ReadsOrOverruns (x.map f) (f a) := by
  obtain rfl | rfl := h
  · exact Or.inl rfl
  · exact Or.inr rfl

theorem reads_bracket {r rest : List CodePoint} {v : Json}
    (h : ∀ n, ReadsOrOverruns (bare (value (n + 1) (.char '[' :: r))) (v, rest)) (n : Nat) :
    ReadsOrOverruns (bare (value n (.char '[' :: r))) (v, rest) := by
  cases n with
  | zero =>
    rw [value_bracket_zero]
    exact Or.inr rfl
  | succ n => exact h n

theorem reads_brace {r rest : List CodePoint} {v : Json}
    (h : ∀ n, ReadsOrOverruns (bare (value (n + 1) (.char '{' :: r))) (v, rest)) (n : Nat) :
    ReadsOrOverruns (bare (value n (.char '{' :: r))) (v, rest) := by
  cases n with
  | zero =>
    rw [value_brace_zero]
    exact Or.inr rfl
  | succ n => exact h n

mutual
theorem Spells.reads {t : List CodePoint} {v : Json} (h : Spells t v) (n : Nat)
    {rest : List CodePoint}
    (hrest : Ends rest) : ReadsOrOverruns (bare (value n (t ++ rest))) (v, rest) := by
  cases h with
  | scalar h =>
    have hread := scalar_append h hrest
    obtain ⟨c, cs, rfl, -, hc⟩ := h.exists_cons
    simp only [List.mem_cons, not_or] at hc
    have hvalue : value n (c :: cs ++ rest) = scalar (c :: cs ++ rest) :=
      value_scalar (fun r hr => hc.1 (List.cons.inj hr).1)
        (fun r hr => hc.2.1 (List.cons.inj hr).1) fun r hr => hc.2.2.2.1 (List.cons.inj hr).1
    rw [hvalue]
    exact Or.inl hread
  | string h =>
    rw [List.cons_append, value_quote, stringBody_append h]
    exact Or.inl rfl
  | @noItems g hg =>
    have hskip : skipGaps (g ++ [.char ']'] ++ rest) = .char ']' :: rest := by
      rw [List.append_assoc]
      exact skipGaps_append (startsOutside_cons (by decide) _) hg
    exact reads_bracket (fun n => Or.inl (value_bracket_empty hskip)) n
  | @array g t js hg h =>
    have hskip : skipGaps (g ++ t ++ rest) = t ++ rest := by
      rw [List.append_assoc]
      exact skipGaps_append (h.opens.append rest).startsOutside hg
    have hitems : ∀ u, skipGaps (g ++ t ++ rest) ≠ .char ']' :: u := by
      rw [hskip]
      exact (h.opens.append rest).ne_bracket
    rw [List.cons_append]
    refine reads_bracket (fun n => ?_) n
    rw [value_bracket_items hitems, hskip]
    exact (h.reads n rest).map _
  | @noMembers g hg =>
    have hskip : skipGaps (g ++ [.char '}'] ++ rest) = .char '}' :: rest := by
      rw [List.append_assoc]
      exact skipGaps_append (startsOutside_cons (by decide) _) hg
    exact reads_brace (fun n => Or.inl (value_brace_empty hskip)) n
  | @object g t pairs hg h =>
    have hskip : skipGaps (g ++ t ++ rest) = t ++ rest := by
      rw [List.append_assoc]
      exact skipGaps_append (h.opens.append rest).startsOutside hg
    have hmembers : ∀ u, skipGaps (g ++ t ++ rest) ≠ .char '}' :: u := by
      rw [hskip]
      exact (h.opens.append rest).ne_brace
    rw [List.cons_append]
    refine reads_brace (fun n => ?_) n
    rw [value_brace_members hmembers, hskip]
    exact (h.reads n [] rest).map _
termination_by t.length
theorem SpellsItems.reads {t : List CodePoint} {js : List Json} (h : SpellsItems t js) (n : Nat)
    (rest : List CodePoint) : ReadsOrOverruns (bare (items n (t ++ rest))) (js, rest) := by
  cases h with
  | @last t g j ht hg =>
    have hskip : skipGaps (g ++ .char ']' :: rest) = .char ']' :: rest :=
      skipGaps_append (startsOutside_cons (by decide) _) hg
    rw [List.append_assoc, List.append_assoc, List.singleton_append, items_eq]
    obtain hread | hread := ht.reads n ((ends_bracket rest).append hg)
    · rw [hread]
      simp only [hskip]
      exact Or.inl rfl
    · rw [hread]
      exact Or.inr rfl
  | @more t g g' u j js ht hg hg' hu =>
    have hskip : skipGaps (g ++ .char ',' :: (g' ++ (u ++ rest))) =
        .char ',' :: (g' ++ (u ++ rest)) :=
      skipGaps_append (startsOutside_cons (by decide) _) hg
    rw [List.append_assoc, List.append_assoc, List.cons_append, List.append_assoc, items_eq]
    obtain hread | hread := ht.reads n ((ends_comma (g' ++ (u ++ rest))).append hg)
    · rw [hread]
      simp only [hskip]
      rw [skipGaps_append (hu.opens.append rest).startsOutside hg']
      exact (hu.reads n rest).map _
    · rw [hread]
      exact Or.inr rfl
termination_by t.length
theorem SpellsMembers.reads {t : List CodePoint} {pairs : List (Text × Json)}
    (h : SpellsMembers t pairs) (n : Nat) (seen : Members) (rest : List CodePoint) :
    ReadsOrOverruns (bare (members n seen (t ++ rest))) (gathered seen pairs, rest) := by
  cases h with
  | @last m t g name j hm ht hg =>
    have hskip : skipGaps (g ++ .char '}' :: rest) = .char '}' :: rest :=
      skipGaps_append (startsOutside_cons (by decide) _) hg
    rw [List.append_assoc, List.append_assoc, List.append_assoc, List.singleton_append, members_eq,
      memberName_append hm (ht.opens.append _).startsOutside]
    simp only
    obtain hread | hread := ht.reads n ((ends_brace rest).append hg)
    · rw [hread]
      simp only [hskip]
      exact Or.inl rfl
    · rw [hread]
      exact Or.inr rfl
  | @more m t g g' u name j pairs hm ht hg hg' hu =>
    have hskip : skipGaps (g ++ .char ',' :: (g' ++ (u ++ rest))) =
        .char ',' :: (g' ++ (u ++ rest)) :=
      skipGaps_append (startsOutside_cons (by decide) _) hg
    rw [List.append_assoc, List.append_assoc, List.append_assoc, List.cons_append,
      List.append_assoc, members_eq, memberName_append hm (ht.opens.append _).startsOutside]
    simp only
    obtain hread | hread := ht.reads n ((ends_comma (g' ++ (u ++ rest))).append hg)
    · rw [hread]
      simp only [hskip]
      rw [skipGaps_append (hu.opens.append rest).startsOutside hg']
      exact hu.reads n (put seen name j) rest
    · rw [hread]
      exact Or.inr rfl
termination_by t.length
end

/-! ### Only JSON texts are read

The recursion is the reader's own: on the length of the text, and at one length a value comes before
the items and members that start with it. -/

theorem Named.length_pos {m : List CodePoint} {name : Text} (h : Named m name) : 0 < m.length := by
  cases h
  simp

mutual
theorem spells_of_value {n : Nat} {s rest : List CodePoint} {v : Json}
    (h : bare (value n s) = .ok (v, rest)) : ∃ t, s = t ++ rest ∧ Spells t v := by
  obtain ⟨r, hs⟩ | ⟨r, hs⟩ | ⟨r, hs⟩ | hscalar := value_front n s
  · rw [hs, value_quote, map_eq_ok_iff] at h
    obtain ⟨⟨cs, rest⟩, hread, hv⟩ := h
    obtain ⟨q, ps, rfl, hq, rfl⟩ := quoted_of_stringBody hread
    cases hv
    exact ⟨_, hs, .string hq⟩
  · obtain ⟨g, hg, hr⟩ := exists_gaps r
    have hlen := length_skipGaps_le r
    rw [hs] at h
    cases n with
    | zero =>
      rw [value_bracket_zero] at h
      cases h
    | succ n =>
      by_cases hempty : ∃ u, skipGaps r = .char ']' :: u
      · obtain ⟨u, hu⟩ := hempty
        rw [value_bracket_empty hu] at h
        cases h
        refine ⟨_, ?_, .noItems hg⟩
        rw [hs, hr, hu]
        simp only [List.cons_append, List.append_assoc, List.nil_append]
      · rw [value_bracket_items fun u hu => hempty ⟨u, hu⟩, map_eq_ok_iff] at h
        obtain ⟨⟨js, rest⟩, hread, hv⟩ := h
        obtain ⟨t, ht, hjs⟩ := spellsItems_of_items hread
        cases hv
        refine ⟨_, ?_, .array hg hjs⟩
        rw [hs, hr, ht]
        simp only [List.cons_append, List.append_assoc]
  · obtain ⟨g, hg, hr⟩ := exists_gaps r
    have hlen := length_skipGaps_le r
    rw [hs] at h
    cases n with
    | zero =>
      rw [value_brace_zero] at h
      cases h
    | succ n =>
      by_cases hempty : ∃ u, skipGaps r = .char '}' :: u
      · obtain ⟨u, hu⟩ := hempty
        rw [value_brace_empty hu] at h
        cases h
        refine ⟨_, ?_, .noMembers hg⟩
        rw [hs, hr, hu]
        simp only [List.cons_append, List.append_assoc, List.nil_append]
      · rw [value_brace_members fun u hu => hempty ⟨u, hu⟩, map_eq_ok_iff] at h
        obtain ⟨⟨ms, rest⟩, hread, hv⟩ := h
        obtain ⟨t, pairs, ht, hpairs, rfl⟩ := spellsMembers_of_members hread
        cases hv
        refine ⟨_, ?_, .object hg hpairs⟩
        rw [hs, hr, ht]
        simp only [List.cons_append, List.append_assoc]
  · rw [hscalar] at h
    obtain ⟨t, ht, hv⟩ := scalar_of_bare h
    exact ⟨t, ht, .scalar hv⟩
termination_by 2 * s.length
decreasing_by all_goals (simp only [hs, List.length_cons]; omega)
theorem spellsItems_of_items {n : Nat} {s rest : List CodePoint} {js : List Json}
    (h : bare (items n s) = .ok (js, rest)) : ∃ t, s = t ++ rest ∧ SpellsItems t js := by
  rw [items_eq] at h
  cases hread : bare (value n s) with
  | error e =>
    rw [hread] at h
    cases h
  | ok x =>
    obtain ⟨j, r⟩ := x
    obtain ⟨t, hs, hj⟩ := spells_of_value hread
    obtain ⟨g, hg, hr⟩ := exists_gaps r
    simp only [hread] at h
    split at h
    · rename_i u hu
      cases h
      refine ⟨_, ?_, .last hj hg⟩
      rw [hs, hr, hu]
      simp only [List.append_assoc, List.singleton_append]
    · rename_i u hu
      obtain ⟨⟨js, rest⟩, hread, hv⟩ := map_eq_ok_iff.1 h
      obtain ⟨g', hg', hr'⟩ := exists_gaps u
      have hlen := congrArg List.length hs
      have hlater := length_lt_of_skipGaps hu
      obtain ⟨t', ht', hjs⟩ := spellsItems_of_items hread
      cases hv
      refine ⟨_, ?_, .more hj hg hg' hjs⟩
      rw [hs, hr, hu, hr', ht']
      simp only [List.append_assoc, List.cons_append]
    · cases h
termination_by 2 * s.length + 1
decreasing_by
  · omega
  · simp only [List.length_append] at hlen
    omega
theorem spellsMembers_of_members {n : Nat} {seen ms : Members} {s rest : List CodePoint}
    (h : bare (members n seen s) = .ok (ms, rest)) :
    ∃ t pairs, s = t ++ rest ∧ SpellsMembers t pairs ∧ ms = gathered seen pairs := by
  rw [members_eq] at h
  cases hname : memberName s with
  | error e =>
    rw [hname] at h
    cases h
  | ok x =>
    obtain ⟨name, s'⟩ := x
    obtain ⟨-, m, hm, hs⟩ := named_of_memberName hname
    have hlen := congrArg List.length hs
    have hpos := hm.length_pos
    simp only [hname] at h
    cases hread : bare (value n s') with
    | error e =>
      rw [hread] at h
      cases h
    | ok x =>
      obtain ⟨j, r⟩ := x
      obtain ⟨t, ht, hj⟩ := spells_of_value hread
      obtain ⟨g, hg, hr⟩ := exists_gaps r
      simp only [hread] at h
      split at h
      · rename_i u hu
        cases h
        refine ⟨_, _, ?_, .last hm hj hg, rfl⟩
        rw [hs, ht, hr, hu]
        simp only [List.append_assoc, List.singleton_append]
      · rename_i u hu
        obtain ⟨g', hg', hr'⟩ := exists_gaps u
        have hlenTail := congrArg List.length ht
        have hlater := length_lt_of_skipGaps hu
        obtain ⟨t', pairs, ht', hpairs, hms⟩ := spellsMembers_of_members h
        refine ⟨_, _, ?_, .more hm hj hg hg' hpairs, hms⟩
        rw [hs, ht, hr, hu, hr', ht']
        simp only [List.append_assoc, List.cons_append]
      · cases h
termination_by 2 * s.length + 1
decreasing_by
  · simp only [List.length_append] at hlen
    omega
  · simp only [List.length_append] at hlen hlenTail
    omega
end

end StrategyDesk.Json
