import StrategyDesk.Proofs.JsonScalars

set_option autoImplicit false

namespace StrategyDesk.Json
open Text

inductive IsUnit : List CodePoint → Nat → Prop where
  | digits {a b c d : CodePoint} {w x y z : Nat} (ha : hexDigit? a = some w)
      (hb : hexDigit? b = some x)
    (hc : hexDigit? c = some y) (hd : hexDigit? d = some z) :
    IsUnit [a, b, c, d] (((w * 16 + x) * 16 + y) * 16 + z)

/-- A piece of a string: a code point, or the code unit that an escape writes. -/
inductive Piece where
  | char (c : CodePoint)
  | unit (n : Nat)

/-- The code points that pieces write. Two code units may write one character. -/
def joined : List Piece → List CodePoint
  | [] => []
  | .char c :: ps => c :: joined ps
  | .unit n :: .unit low :: ps =>
    if highSurrogate n && lowSurrogate low then .char (pairChar n low) :: joined ps
    else .ofNat n :: joined (.unit low :: ps)
  | .unit n :: ps => .ofNat n :: joined ps

/-- A string from after its opening quote, and its pieces. -/
inductive Quoted : List CodePoint → List Piece → Prop where
  | close : Quoted ['"'] []
  | plain {c : CodePoint} {t : List CodePoint} {ps : List Piece}
      (hquote : c ≠ '"') (hslash : c ≠ '\\')
    (hcontrol : 0x20 ≤ c.toNat) (h : Quoted t ps) : Quoted (c :: t) (.char c :: ps)
  | escape {e : CodePoint} {c : Char} {t : List CodePoint} {ps : List Piece}
      (he : plainEscape? e = some c)
    (h : Quoted t ps) : Quoted ('\\' :: e :: t) (.char (.char c) :: ps)
  | unit {u t : List CodePoint} {n : Nat} {ps : List Piece} (hu : IsUnit u n) (h : Quoted t ps) :
    Quoted (.char '\\' :: .char 'u' :: (u ++ t)) (.unit n :: ps)

theorem Quoted.ne_nil {t : List CodePoint} {ps : List Piece} (h : Quoted t ps) : t ≠ [] := by
  cases h <;> simp

theorem unit?_append {u t : List CodePoint} {n : Nat} (h : IsUnit u n) (ht : t ≠ []) :
    unit? (u ++ t) = some (n, t) := by
  obtain ⟨e, t, rfl⟩ := List.exists_cons_of_ne_nil ht
  cases h with
  | digits ha hb hc hd => simp [unit?, ha, hb, hc, hd]

theorem isUnit_of_unit? {s t : List CodePoint} {n : Nat} (h : unit? s = some (n, t)) :
    ∃ u, IsUnit u n ∧ s = u ++ t ∧ t ≠ [] := by
  unfold unit? at h
  split at h
  · simp only [Option.bind_eq_bind, Option.bind_eq_some_iff, Option.some.injEq,
      Prod.mk.injEq] at h
    obtain ⟨w, ha, x, hb, y, hc, z, hd, rfl, rfl⟩ := h
    exact ⟨_, .digits ha hb hc hd, rfl, by simp⟩
  · cases h

theorem IsUnit.length_eq {u : List CodePoint} {n : Nat} (h : IsUnit u n) : u.length = 4 := by
  cases h
  rfl

theorem unicodeEscape_eq_mistake {s : List CodePoint} (h : unit? s = none) :
    bare (unicodeEscape s) = .error (.mistake (s.length + 1)) := by
  unfold unicodeEscape
  split
  · rfl
  · rename_i hs
    rw [h] at hs
    cases hs

theorem unicodeEscape_alone {s t : List CodePoint} {n : Nat} (h : unit? s = some (n, t))
    (halone : ∀ more, t = .char '\\' :: .char 'u' :: more → highSurrogate n = true →
      more.length ≤ 4) :
    bare (unicodeEscape s) = .ok (CodePoint.ofNat n, t) := by
  unfold unicodeEscape
  split
  · rename_i hs
    rw [h] at hs
    cases hs
  · rename_i hs
    rw [h] at hs
    cases hs
    simp only
    split
    · rename_i more _ _ _ _
      have hmore := halone more rfl
      rw [if_neg fun h => absurd (hmore h.1) (Nat.not_le.2 h.2)]
      rfl
    · rfl

theorem unicodeEscape_next {s more : List CodePoint} {n : Nat}
    (h : unit? s = some (n, .char '\\' :: .char 'u' :: more))
    (hn : highSurrogate n = true) (hmore : more.length > 4) : bare (unicodeEscape s) =
      match unit? more with
      | none => .error (.mistake (more.length + 1))
      | some (low, t) =>
        if lowSurrogate low then .ok (CodePoint.char (pairChar n low), t)
        else .ok (CodePoint.ofNat n, .char '\\' :: .char 'u' :: more) := by
  unfold unicodeEscape
  split
  · rename_i hs
    rw [h] at hs
    cases hs
  · rename_i hs
    rw [h] at hs
    cases hs
    simp only [if_pos (And.intro hn hmore)]
    split
    · rename_i hm
      simp only [hm]
      rfl
    · rename_i hm
      simp only [hm]
      split
      · simp only [bare, Except.map]
      · simp only [bare, Except.map]

theorem unit_of_unicodeEscape {s t : List CodePoint} {c : CodePoint}
    (h : bare (unicodeEscape s) = .ok (c, t)) : ∃ u n, IsUnit u n ∧
      ((s = u ++ t ∧ t ≠ [] ∧ c = CodePoint.ofNat n ∧ ∀ u' low r, IsUnit u' low → r ≠ [] →
        t = .char '\\' :: .char 'u' :: (u' ++ r) → (highSurrogate n && lowSurrogate low) = false) ∨
      ∃ u' low, IsUnit u' low ∧ (highSurrogate n && lowSurrogate low) = true ∧
        s = u ++ .char '\\' :: .char 'u' :: (u' ++ t) ∧ c = CodePoint.char (pairChar n low)) := by
  cases hs : unit? s with
  | none =>
    rw [unicodeEscape_eq_mistake hs] at h
    cases h
  | some x =>
    obtain ⟨n, t'⟩ := x
    obtain ⟨u, hu, hsu, hne⟩ := isUnit_of_unit? hs
    refine ⟨u, n, hu, ?_⟩
    by_cases hnext : ∃ more, t' = .char '\\' :: .char 'u' :: more ∧ highSurrogate n = true ∧
      more.length > 4
    · obtain ⟨more, rfl, hn, hmore⟩ := hnext
      rw [unicodeEscape_next hs hn hmore] at h
      cases hlow : unit? more with
      | none =>
        rw [hlow] at h
        cases h
      | some y =>
        obtain ⟨low, r⟩ := y
        obtain ⟨u', hu', hmore', hr⟩ := isUnit_of_unit? hlow
        simp only [hlow] at h
        split at h
        · rename_i hpair
          simp only [Except.ok.injEq, Prod.mk.injEq] at h
          obtain ⟨rfl, rfl⟩ := h
          exact Or.inr ⟨u', low, hu', by rw [hn, hpair]; rfl, by rw [hsu, hmore'], rfl⟩
        · rename_i hpair
          cases h
          refine Or.inl ⟨hsu, hne, rfl, fun u'' low' r' hu'' hr' ht => ?_⟩
          simp only [List.cons.injEq, true_and] at ht
          rw [ht, unit?_append hu'' hr'] at hlow
          cases hlow
          rw [Bool.not_eq_true] at hpair
          rw [hpair, Bool.and_false]
    · have hshort (more : List CodePoint) (ht : t' = .char '\\' :: .char 'u' :: more)
          (hn : highSurrogate n = true) : more.length ≤ 4 :=
        Nat.not_lt.1 fun hmore => hnext ⟨more, ht, hn, hmore⟩
      rw [unicodeEscape_alone hs hshort] at h
      cases h
      refine Or.inl ⟨hsu, hne, rfl, fun u' low r hu' hr ht => ?_⟩
      cases hn : highSurrogate n with
      | false => rfl
      | true =>
        have := hshort _ ht hn
        have := List.length_pos_iff.2 hr
        simp only [List.length_append, hu'.length_eq] at *
        omega

theorem unicodeEscape_pair {u u' t : List CodePoint} {n low : Nat} (hu : IsUnit u n)
    (hu' : IsUnit u' low) (ht : t ≠ []) (hpair : (highSurrogate n && lowSurrogate low) = true) :
    bare (unicodeEscape (u ++ .char '\\' :: .char 'u' :: (u' ++ t))) =
      .ok (CodePoint.char (pairChar n low), t) := by
  rw [Bool.and_eq_true] at hpair
  have hmore : (u' ++ t).length > 4 := by
    have := List.length_pos_iff.2 ht
    simp only [List.length_append, hu'.length_eq]
    omega
  rw [unicodeEscape_next (unit?_append hu (by simp)) hpair.1 hmore, unit?_append hu' ht]
  simp only [hpair.2, if_true]

theorem unicodeEscape_append {u t : List CodePoint} {n : Nat} (hu : IsUnit u n) (ht : t ≠ [])
    (halone : ∀ more, t = .char '\\' :: .char 'u' :: more → ∃ u' low r, IsUnit u' low ∧ r ≠ [] ∧
      more = u' ++ r ∧ (highSurrogate n && lowSurrogate low) = false) :
    bare (unicodeEscape (u ++ t)) = .ok (CodePoint.ofNat n, t) := by
  have hunit := unit?_append hu ht
  by_cases hnext : ∃ more, t = .char '\\' :: .char 'u' :: more ∧ highSurrogate n = true ∧
    more.length > 4
  · obtain ⟨more, rfl, hn, hmore⟩ := hnext
    obtain ⟨u', low, r, hu', hr, rfl, hpair⟩ := halone more rfl
    rw [hn, Bool.true_and] at hpair
    rw [unicodeEscape_next hunit hn hmore, unit?_append hu' hr]
    simp only [hpair, Bool.false_eq_true, if_false]
  · exact unicodeEscape_alone hunit fun more hmore hn =>
      Nat.not_lt.1 fun hlen => hnext ⟨more, hmore, hn, hlen⟩

theorem stringBody_unit (quote : Nat) (r : List CodePoint) :
    bare (stringBody quote (.char '\\' :: .char 'u' :: r)) = match bare (unicodeEscape r) with
    | .error e => .error e
    | .ok (c, rest) => (bare (stringBody quote rest)).map fun x => (c :: x.1, x.2) := by
  rw [stringBody]
  cases unicodeEscape r with
  | error e => rfl
  | ok x =>
    obtain ⟨c, rest, hr⟩ := x
    simp only [bare, Except.map]
    cases stringBody quote rest <;> rfl

theorem stringBody_escape (quote : Nat) {e : CodePoint} (he : e ≠ .char 'u') (r : List CodePoint) :
    bare (stringBody quote (.char '\\' :: e :: r)) =
      match plainEscape? e with
      | none => .error (.mistake (r.length + 2))
      | some c => (bare (stringBody quote r)).map fun x => (c :: x.1, x.2) := by
  rw [stringBody]
  · cases plainEscape? e with
    | none => rfl
    | some c =>
      simp only
      cases stringBody quote r <;> rfl
  · exact fun h => he h

theorem stringBody_plain (quote : Nat) {c : CodePoint} (hquote : c ≠ '"') (hslash : c ≠ '\\')
    (r : List CodePoint) : bare (stringBody quote (c :: r)) =
      if c.toNat < 0x20 then .error (.mistake (r.length + 1))
      else (bare (stringBody quote r)).map fun x => (c :: x.1, x.2) := by
  rw [stringBody]
  · split
    · rfl
    · cases stringBody quote r <;> rfl
  · exact hquote
  · exact fun h => absurd h hslash
  · exact fun r h => absurd h hslash
  · exact fun e r h => absurd h hslash

theorem joined_pair {n low : Nat} (h : (highSurrogate n && lowSurrogate low) = true)
    (ps : List Piece) :
    joined (.unit n :: .unit low :: ps) = CodePoint.char (pairChar n low) :: joined ps := by
  simp [joined, h]

theorem joined_alone {n : Nat} {ps : List Piece} (h : ∀ low ps', ps = .unit low :: ps' →
    (highSurrogate n && lowSurrogate low) = false) :
    joined (.unit n :: ps) = CodePoint.ofNat n :: joined ps := by
  match ps with
  | [] => rfl
  | .char c :: ps => simp [joined]
  | .unit low :: ps => simp [joined, h low ps rfl]

theorem Quoted.of_unit {t : List CodePoint} {n : Nat} {ps : List Piece}
    (h : Quoted t (.unit n :: ps)) :
    ∃ u t', IsUnit u n ∧ Quoted t' ps ∧ t = .char '\\' :: .char 'u' :: (u ++ t') := by
  cases h with
  | unit hu h => exact ⟨_, _, hu, h, rfl⟩

theorem Quoted.exists_unit {t rest more : List CodePoint} {ps : List Piece} (h : Quoted t ps)
    (ht : t ++ rest = .char '\\' :: .char 'u' :: more) : ∃ n ps', ps = .unit n :: ps' := by
  cases h with
  | close => cases ht
  | plain hquote hslash => exact absurd (List.cons.inj ht).1 hslash
  | escape he =>
    rw [(List.cons.inj (List.cons.inj ht).2).1] at he
    cases he
  | unit hu h => exact ⟨_, _, rfl⟩

theorem IsUnit.unique {u u' t t' : List CodePoint} {n n' : Nat} (h : IsUnit u n) (h' : IsUnit u' n')
    (heq : u ++ t = u' ++ t') : n = n' := by
  obtain ⟨rfl, -⟩ := List.append_inj heq (by rw [h.length_eq, h'.length_eq])
  cases h
  cases h'
  simp_all

theorem stringBody_append {t : List CodePoint} {ps : List Piece} (h : Quoted t ps) (quote : Nat)
    (rest : List CodePoint) : bare (stringBody quote (t ++ rest)) = .ok (joined ps, rest) := by
  cases h with
  | close =>
    rw [List.singleton_append, stringBody]
    rfl
  | plain hquote hslash hcontrol h =>
    rw [List.cons_append, stringBody_plain quote hquote hslash, if_neg (Nat.not_lt.2 hcontrol),
      stringBody_append h]
    rfl
  | @escape e c t ps he h =>
    have hu : e ≠ 'u' := by
      rintro rfl
      cases he
    rw [List.cons_append, List.cons_append, stringBody_escape quote hu, he]
    simp only [stringBody_append h]
    rfl
  | @unit u t n ps hu h =>
    have hne : t ++ rest ≠ [] := fun h0 => h.ne_nil (List.append_eq_nil_iff.1 h0).1
    rw [List.cons_append, List.cons_append, List.append_assoc, stringBody_unit]
    -- A pair is read in one step but written in two pieces: what is left is two pieces shorter.
    by_cases hpair : ∃ low ps', ps = .unit low :: ps' ∧
        (highSurrogate n && lowSurrogate low) = true
    · obtain ⟨low, ps, rfl, hpair⟩ := hpair
      obtain ⟨u', t', hu', ht', rfl⟩ := h.of_unit
      have hne' : t' ++ rest ≠ [] := fun h0 => ht'.ne_nil (List.append_eq_nil_iff.1 h0).1
      rw [List.cons_append, List.cons_append, List.append_assoc,
        unicodeEscape_pair hu hu' hne' hpair, joined_pair hpair]
      simp only [stringBody_append ht']
      rfl
    · have hnopair (low : Nat) (ps' : List Piece) (hps : ps = .unit low :: ps') :
          (highSurrogate n && lowSurrogate low) = false := by
        rw [← Bool.not_eq_true]
        exact fun h => hpair ⟨low, ps', hps, h⟩
      have hread := unicodeEscape_append hu hne fun more hmore => by
        obtain ⟨low, ps', rfl⟩ := h.exists_unit hmore
        obtain ⟨u', t', hu', ht', rfl⟩ := h.of_unit
        simp only [List.cons_append, List.append_assoc, List.cons.injEq, true_and] at hmore
        have hne' : t' ++ rest ≠ [] := fun h0 => ht'.ne_nil (List.append_eq_nil_iff.1 h0).1
        exact ⟨u', low, t' ++ rest, hu', hne', hmore.symm, hnopair low ps' rfl⟩
      rw [hread, joined_alone hnopair]
      simp only [stringBody_append h]
      rfl
termination_by t.length
decreasing_by all_goals (subst_vars; simp only [List.length_cons, List.length_append]; omega)

theorem quoted_of_stringBody {s t cs : List CodePoint} {quote : Nat}
    (h : bare (stringBody quote s) = .ok (cs, t)) :
    ∃ q ps, s = q ++ t ∧ Quoted q ps ∧ cs = joined ps := by
  have hlater {r : List CodePoint} {c : CodePoint} (hr : r.length < s.length)
      (h : (bare (stringBody quote r)).map (fun x => (c :: x.1, x.2)) = .ok (cs, t)) :
      ∃ q ps, r = q ++ t ∧ Quoted q ps ∧ cs = c :: joined ps := by
    cases hread : bare (stringBody quote r) with
    | error e =>
      rw [hread] at h
      cases h
    | ok x =>
      rw [hread] at h
      cases h
      obtain ⟨q, ps, hq, hps, hcs⟩ := quoted_of_stringBody hread
      exact ⟨q, ps, hq, hps, by rw [hcs]⟩
  cases s with
  | nil =>
    rw [stringBody] at h
    cases h
  | cons c r =>
    by_cases hquote : c = '"'
    · subst hquote
      rw [stringBody] at h
      cases h
      exact ⟨['"'], [], rfl, .close, rfl⟩
    by_cases hslash : c = '\\'
    · subst hslash
      cases r with
      | nil =>
        rw [stringBody] at h
        cases h
      | cons e r =>
        by_cases he : e = 'u'
        · subst he
          rw [stringBody_unit] at h
          cases hescape : bare (unicodeEscape r) with
          | error e =>
            rw [hescape] at h
            cases h
          | ok x =>
            obtain ⟨c, r'⟩ := x
            simp only [hescape] at h
            obtain ⟨u, n, hu, ⟨rfl, -, hc, halone⟩ | ⟨u', low, hu', hpair, rfl, hc⟩⟩ :=
              unit_of_unicodeEscape hescape
            · obtain ⟨q, ps, rfl, hq, hcs⟩ := hlater
                (by simp only [List.length_cons, List.length_append]; omega) h
              refine ⟨.char '\\' :: .char 'u' :: (u ++ q), .unit n :: ps, by simp, .unit hu hq, ?_⟩
              rw [hcs, hc, joined_alone]
              rintro low ps' rfl
              obtain ⟨u', q', hu', hq', rfl⟩ := hq.of_unit
              exact halone u' low (q' ++ t) hu' (by simp [hq'.ne_nil]) (by simp)
            · obtain ⟨q, ps, rfl, hq, hcs⟩ := hlater
                (by simp only [List.length_cons, List.length_append]; omega) h
              refine ⟨.char '\\' :: .char 'u' :: (u ++ .char '\\' :: .char 'u' :: (u' ++ q)),
                .unit n :: .unit low :: ps, by simp, .unit hu (.unit hu' hq), ?_⟩
              rw [hcs, hc, joined_pair hpair]
        · rw [stringBody_escape quote he] at h
          cases hplain : plainEscape? e with
          | none =>
            rw [hplain] at h
            cases h
          | some c =>
            simp only [hplain] at h
            obtain ⟨q, ps, rfl, hq, hcs⟩ := hlater (by simp only [List.length_cons]; omega) h
            exact ⟨.char '\\' :: e :: q, .char c :: ps, rfl, .escape hplain hq, hcs⟩
    · rw [stringBody_plain quote hquote hslash] at h
      split at h
      · cases h
      · rename_i hcontrol
        obtain ⟨q, ps, rfl, hq, hcs⟩ := hlater (by simp) h
        exact ⟨c :: q, .char c :: ps, rfl, .plain hquote hslash (Nat.not_lt.1 hcontrol) hq, hcs⟩
termination_by s.length

theorem unicodeEscape_ne_tooDeep (s : List CodePoint) : unicodeEscape s ≠ .error .tooDeep := by
  unfold unicodeEscape
  split
  · exact fun h => nomatch h
  · simp only
    split
    · split
      · split
        · exact fun h => nomatch h
        · split <;> exact fun h => nomatch h
      · exact fun h => nomatch h
    · exact fun h => nomatch h

theorem stringBody_ne_tooDeep (quote : Nat) (s : List CodePoint) :
    stringBody quote s ≠ .error .tooDeep := by
  fun_induction stringBody quote s with
  | case4 r e hread => exact fun h => by cases h; exact unicodeEscape_ne_tooDeep r hread
  | case5 r c rest hr hescape e hread ih => exact fun h => by cases h; exact ih hread
  | case8 e r he c hplain _ hread ih => exact fun h => by cases h; exact ih hread
  | case11 c r hquote hend hunit hslash hcontrol e hread ih =>
    exact fun h => by cases h; exact ih hread
  | _ => exact fun h => nomatch h

end StrategyDesk.Json
