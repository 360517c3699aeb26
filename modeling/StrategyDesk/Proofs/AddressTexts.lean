import StrategyDesk.Net.Address
import StrategyDesk.Proofs.Digits

set_option autoImplicit false

namespace StrategyDesk.Net
open Text

/-! ### IPv4 -/

def dottedText (n : Nat) : List Char :=
  Nat.toDigits 10 (n / 16777216) ++ '.' :: (Nat.toDigits 10 (n / 65536 % 256) ++ '.' ::
    (Nat.toDigits 10 (n / 256 % 256) ++ '.' :: Nat.toDigits 10 (n % 256)))

theorem byte?_eq_some_iff {cs : List Char} {n : Nat} :
    byte? cs = some n ↔ n < 256 ∧ cs = Nat.toDigits 10 n := by
  constructor
  · intro h
    cases cs with
    | nil => simp [byte?] at h
    | cons c cs =>
      simp only [byte?, List.mapM_cons, Option.bind_eq_bind, Option.bind_eq_some_iff,
        Option.pure_def, Option.some.injEq, Option.ite_none_left_eq_some] at h
      obtain ⟨_, ⟨d, hd, ds, hds, rfl⟩, hfits, rfl⟩ := h
      simp only [List.isEmpty_cons, Bool.false_or, List.head?_cons, Bool.or_eq_true,
        Bool.and_eq_true, decide_eq_true_eq, not_or, not_and, beq_iff_eq,
        Option.some.injEq] at hfits
      obtain ⟨⟨-, hzero⟩, hmax⟩ := hfits
      have hspelled : InDigits asciiDigit? 10 (c :: cs) (ofDigits 10 (d :: ds)) :=
        InDigits.iff_mapM.2 ⟨by simp, d :: ds, by simp [hd, hds], rfl⟩
      refine ⟨by omega, hspelled.eq_toDigits fun hc => ?_⟩
      simp only [List.head?_cons, Option.some.injEq] at hc
      subst hc
      have hd0 : d = 0 := Option.some.inj hd.symm
      have hnil : ds = [] := by
        have := hzero hd0
        simpa using this
      subst hnil
      cases cs with
      | nil => rfl
      | cons b cs => simp [Option.bind_eq_some_iff] at hds
  · rintro ⟨hn, rfl⟩
    have hall : ∀ m < 256, byte? (Nat.toDigits 10 m) = some m := by decide +kernel
    exact hall n hn

theorem inDigits_toDigits (n : Nat) : InDigits asciiDigit? 10 (Nat.toDigits 10 n) n :=
  InDigits.toDigits (by decide) (fun _ hd => asciiDigit?_digitChar hd) n

theorem isSome_asciiDigit? {n : Nat} {c : Char} (h : c ∈ Nat.toDigits 10 n) :
    (asciiDigit? c).isSome = true :=
  (inDigits_toDigits n).digits c h

theorem dot_notMem_toDigits (n : Nat) : '.' ∉ Nat.toDigits 10 n := fun h =>
  absurd (isSome_asciiDigit? h) (by decide)

theorem splitOn_dottedText (n : Nat) : splitOn '.' (dottedText n) =
    [Nat.toDigits 10 (n / 16777216), Nat.toDigits 10 (n / 65536 % 256),
      Nat.toDigits 10 (n / 256 % 256), Nat.toDigits 10 (n % 256)] := by
  simp only [dottedText, splitOn_append, splitOn_of_notMem (dot_notMem_toDigits _),
    List.singleton_append]

theorem dotted?_eq_some_iff {cs : List Char} {n : Nat} :
    dotted? cs = some n ↔ n < twoTo 32 ∧ cs = dottedText n := by
  have hpower : twoTo 32 = 4294967296 := by decide
  constructor
  · intro h
    unfold dotted? at h
    split at h
    · rename_i a b c d hpieces
      simp only [Option.bind_eq_bind, Option.bind_eq_some_iff, Option.some.injEq,
        byte?_eq_some_iff] at h
      obtain ⟨k, ⟨hk, rfl⟩, l, ⟨hl, rfl⟩, m, ⟨hm, rfl⟩, o, ⟨ho, rfl⟩, rfl⟩ := h
      have hcs := (splitOn_eq_iff.1 hpieces).2.2
      have hfirst : quad k l m o / 16777216 = k := by unfold quad; omega
      have hsecond : quad k l m o / 65536 % 256 = l := by unfold quad; omega
      have hthird : quad k l m o / 256 % 256 = m := by unfold quad; omega
      have hfourth : quad k l m o % 256 = o := by unfold quad; omega
      refine ⟨by unfold quad; omega, ?_⟩
      rw [hcs, dottedText, hfirst, hsecond, hthird, hfourth]
      simp
    · cases h
  · rintro ⟨hn, rfl⟩
    have hfirst := byte?_eq_some_iff.2 ⟨(by omega : n / 16777216 < 256), rfl⟩
    have hsecond := byte?_eq_some_iff.2 ⟨(by omega : n / 65536 % 256 < 256), rfl⟩
    have hthird := byte?_eq_some_iff.2 ⟨(by omega : n / 256 % 256 < 256), rfl⟩
    have hfourth := byte?_eq_some_iff.2 ⟨(by omega : n % 256 < 256), rfl⟩
    simp only [dotted?, splitOn_dottedText, hfirst, hsecond, hthird, hfourth, Option.bind_eq_bind,
      Option.bind_some, Option.some.injEq, quad]
    omega

/-! ### IPv6 -/

/-- A group of an IPv6 address: one to four hexadecimal digits. -/
def IsGroup (p : List Char) (n : Nat) : Prop := InDigits hexDigit? 16 p n ∧ p.length ≤ 4

/-- How the groups of an address may end: in a group, or in an IPv4 address, which counts as two. -/
inductive IsTail : List Char → List Nat → Prop where
  | group {p : List Char} {n : Nat} (h : IsGroup p n) : IsTail p [n]
  | dotted {n : Nat} (h : n < twoTo 32) : IsTail (dottedText n) [n / 65536, n % 65536]

/-- Groups with colons between them, the end of which is as the relation says. -/
inductive Joined (IsEnd : List Char → List Nat → Prop) : List Char → List Nat → Prop where
  | last {p : List Char} {gs : List Nat} (h : IsEnd p gs) : Joined IsEnd p gs
  | more {p cs : List Char} {g : Nat} {gs : List Nat} (hp : IsGroup p g)
    (h : Joined IsEnd cs gs) : Joined IsEnd (p ++ ':' :: cs) (g :: gs)

def IsSide (IsEnd : List Char → List Nat → Prop) (cs : List Char) (gs : List Nat) : Prop :=
  (cs = [] ∧ gs = []) ∨ Joined IsEnd cs gs

def IsLoneGroup (p : List Char) (gs : List Nat) : Prop := ∃ g, IsGroup p g ∧ gs = [g]

/-- The texts of an IPv6 address: all eight groups, or a double colon for one or more groups of
zero. -/
inductive IsV6 : List Char → Nat → Prop where
  | full {cs : List Char} {gs : List Nat} (h : Joined IsTail cs gs) (hlen : gs.length = 8) :
    IsV6 cs (groups gs)
  | short {before after : List Char} {high low : List Nat} (hhigh : IsSide IsLoneGroup before high)
    (hlow : IsSide IsTail after low) (hlen : high.length + low.length < 8) :
    IsV6 (before ++ ':' :: ':' :: after)
      (groups (high ++ List.replicate (8 - high.length - low.length) 0 ++ low))

theorem group?_eq_some_iff {p : List Char} {n : Nat} : group? p = some n ↔ IsGroup p n := by
  unfold IsGroup
  rw [InDigits.iff_mapM]
  constructor
  · intro h
    simp only [group?, Option.bind_eq_bind, Option.bind_eq_some_iff, Option.some.injEq,
      Option.ite_none_left_eq_some, Bool.or_eq_true, decide_eq_true_eq, List.isEmpty_iff,
      not_or] at h
    obtain ⟨ds, hds, ⟨hne, hlen⟩, rfl⟩ := h
    have hlength := length_of_mapM hds
    refine ⟨⟨?_, ds, hds, rfl⟩, by omega⟩
    rintro rfl
    exact hne (List.length_eq_zero_iff.1 hlength)
  · rintro ⟨⟨hne, ds, hds, rfl⟩, hlen⟩
    have hlength := length_of_mapM hds
    have hdigits : ds ≠ [] := by
      rintro rfl
      exact hne (List.length_eq_zero_iff.1 hlength.symm)
    simp [group?, hds, hdigits, show ¬ 4 < ds.length by omega]

theorem IsGroup.notMem {p : List Char} {n : Nat} (h : IsGroup p n) {c : Char}
    (hc : hexDigit? c = none) : c ∉ p := by
  intro hmem
  have hdigit := h.1.digits c hmem
  rw [hc] at hdigit
  cases hdigit

theorem notMem_dottedText {c : Char} (hdigit : asciiDigit? c = none) (hdot : c ≠ '.') (n : Nat) :
    c ∉ dottedText n := by
  have hall : ∀ m, c ∉ Nat.toDigits 10 m := by
    intro m hm
    have hsome := isSome_asciiDigit? hm
    rw [hdigit] at hsome
    cases hsome
  simp [dottedText, hall, hdot]

theorem dot_mem_dottedText (n : Nat) : '.' ∈ dottedText n := by
  simp [dottedText]

theorem lastGroups?_eq_some_iff {p : List Char} {gs : List Nat} :
    lastGroups? p = some gs ↔ IsTail p gs := by
  unfold lastGroups?
  constructor
  · intro h
    split at h
    · obtain ⟨n, hn, rfl⟩ := Option.map_eq_some_iff.1 h
      obtain ⟨hlt, rfl⟩ := dotted?_eq_some_iff.1 hn
      exact .dotted hlt
    · obtain ⟨n, hn, rfl⟩ := Option.map_eq_some_iff.1 h
      exact .group (group?_eq_some_iff.1 hn)
  · intro h
    cases h with
    | group h =>
      rw [if_neg (by simpa using h.notMem (by decide)), group?_eq_some_iff.2 h, Option.map_some]
    | @dotted n h =>
      rw [if_pos (by simpa using dot_mem_dottedText n), dotted?_eq_some_iff.2 ⟨h, rfl⟩,
        Option.map_some]

theorem asciiDigit?_eq_none {c : Char} (h : hexDigit? c = none) : asciiDigit? c = none := by
  unfold hexDigit? at h
  unfold asciiDigit?
  split at h
  · cases h
  · rw [if_neg ‹_›]

theorem IsTail.notMem {p : List Char} {gs : List Nat} (h : IsTail p gs) {c : Char}
    (hhex : hexDigit? c = none) (hdot : c ≠ '.') : c ∉ p := by
  cases h with
  | group h => exact h.notMem hhex
  | @dotted n h => exact notMem_dottedText (asciiDigit?_eq_none hhex) hdot n

/-- What an end is: a text without colon that gives one group or two. -/
structure IsEnding (IsEnd : List Char → List Nat → Prop) : Prop where
  colon : ∀ {p gs}, IsEnd p gs → ':' ∉ p
  text : ∀ {p gs}, IsEnd p gs → p ≠ []
  length : ∀ {p gs}, IsEnd p gs → gs.length ≤ 2

theorem isEnding_isTail : IsEnding IsTail where
  colon h := h.notMem (by decide) (by decide)
  text h := by
    cases h with
    | group h => exact h.1.ne_nil
    | @dotted n h => exact List.ne_nil_of_mem (dot_mem_dottedText n)
  length h := by cases h <;> simp

theorem isEnding_isLoneGroup : IsEnding IsLoneGroup where
  colon := by
    rintro p gs ⟨g, hg, rfl⟩
    exact hg.notMem (by decide)
  text := by
    rintro p gs ⟨g, hg, rfl⟩
    exact hg.1.ne_nil
  length := by
    rintro p gs ⟨g, hg, rfl⟩
    simp

section Joined

variable {IsEnd : List Char → List Nat → Prop} {cs : List Char} {gs : List Nat}

theorem Joined.pieces (hend : IsEnding IsEnd) (h : Joined IsEnd cs gs) :
    (∀ p ∈ splitOn ':' cs, p ≠ []) ∧ gs.length ≤ (splitOn ':' cs).length + 1 := by
  induction h with
  | last h =>
    rw [splitOn_of_notMem (hend.colon h)]
    exact ⟨by simpa using hend.text h, hend.length h⟩
  | more hp h ih =>
    rw [splitOn_append, splitOn_of_notMem (hp.notMem (by decide)), List.singleton_append]
    exact ⟨List.forall_mem_cons.2 ⟨hp.1.ne_nil, ih.1⟩, by simpa using ih.2⟩

theorem Joined.ne_nil (hend : IsEnding IsEnd) (h : Joined IsEnd cs gs) : cs ≠ [] := by
  rintro rfl
  exact (h.pieces hend).1 [] (by simp [splitOn]) rfl

variable {read? : List (List Char) → Option (List Nat)}

theorem read_splitOn_iff (hend : IsEnding IsEnd)
    (hlast : ∀ p gs, read? [p] = some gs ↔ IsEnd p gs)
    (hmore : ∀ p q ps, read? (p :: q :: ps) =
      (group? p).bind fun g => (read? (q :: ps)).bind fun gs => some (g :: gs)) :
    read? (splitOn ':' cs) = some gs ↔ Joined IsEnd cs gs := by
  constructor
  · intro h
    generalize hps : splitOn ':' cs = ps at h
    -- The pieces after the first are those of the text behind its colon.
    induction ps generalizing cs gs with
    | nil => exact absurd hps (splitOn_ne_nil ':' cs)
    | cons p ps ih =>
      obtain ⟨hp, ⟨rfl, rfl⟩ | ⟨rest, rfl, hrest⟩⟩ := splitOn_eq_cons_iff.1 hps
      · exact .last ((hlast _ _).1 h)
      · cases ps with
        | nil => exact absurd hrest (splitOn_ne_nil ':' rest)
        | cons q qs =>
          simp only [hmore, Option.bind_eq_some_iff, Option.some.injEq] at h
          obtain ⟨g, hg, gs, hgs, rfl⟩ := h
          exact .more (group?_eq_some_iff.1 hg) (ih hrest hgs)
  · intro h
    induction h with
    | @last p gs h =>
      rw [splitOn_of_notMem (hend.colon h)]
      exact (hlast p gs).2 h
    | @more p cs g gs hp h ih =>
      obtain ⟨q, qs, hqs⟩ := List.exists_cons_of_ne_nil (splitOn_ne_nil ':' cs)
      rw [hqs] at ih
      rw [splitOn_append, splitOn_of_notMem (hp.notMem (by decide)), List.singleton_append, hqs,
        hmore, group?_eq_some_iff.2 hp, Option.bind_some, ih, Option.bind_some]

theorem side_splitOn (h : cs ≠ []) : side (splitOn ':' cs) = splitOn ':' cs := by
  refine if_neg fun hnil => h ?_
  simpa using (splitOn_eq_iff.1 hnil).2.2

theorem read_side_iff (hend : IsEnding IsEnd) (hnil : read? [] = some [])
    (hread : read? (splitOn ':' cs) = some gs ↔ Joined IsEnd cs gs) :
    read? (side (splitOn ':' cs)) = some gs ↔ IsSide IsEnd cs gs := by
  by_cases hcs : cs = []
  · subst hcs
    have hnone : ¬ Joined IsEnd [] gs := fun h => h.ne_nil hend rfl
    simp [IsSide, hnone, splitOn, side, hnil, eq_comm]
  · rw [side_splitOn hcs, hread, IsSide]
    simp [hcs]

end Joined

theorem allGroups?_splitOn {cs : List Char} {gs : List Nat} :
    allGroups? (splitOn ':' cs) = some gs ↔ Joined IsTail cs gs :=
  read_splitOn_iff isEnding_isTail (fun _ _ => lastGroups?_eq_some_iff) fun _ _ _ => rfl

theorem mapM_group?_splitOn {cs : List Char} {gs : List Nat} :
    (splitOn ':' cs).mapM group? = some gs ↔ Joined IsLoneGroup cs gs := by
  refine read_splitOn_iff isEnding_isLoneGroup (fun p gs => ?_) fun p q ps => ?_
  · simp only [List.mapM_cons, List.mapM_nil, Option.bind_eq_bind, Option.pure_def,
      Option.bind_some, Option.bind_eq_some_iff, group?_eq_some_iff, Option.some.injEq]
    exact exists_congr fun g => and_congr_right fun _ => eq_comm
  · simp only [List.mapM_cons, Option.bind_eq_bind, Option.pure_def]

/-! The gap of a double colon. -/

theorem eq_append_of_gap? {ps before after : List (List Char)}
    (h : gap? ps = some (before, after)) :
    ps = before ++ [] :: after ∧ before ≠ [] ∧ after ≠ [] := by
  induction ps generalizing before with
  | nil => cases h
  | cons p ps ih =>
    unfold gap? at h
    split at h
    · rename_i hps
      cases h
      cases hps
      simp
    · rename_i hps
      cases hps
      obtain ⟨⟨b, a⟩, hba, hpair⟩ := Option.map_eq_some_iff.1 h
      cases hpair
      obtain ⟨rfl, -, ha⟩ := ih hba
      exact ⟨by simp, by simp, ha⟩
    · cases h

theorem gap?_append {before after : List (List Char)} (hbefore : before ≠ [])
    (hfull : ∀ p ∈ before.tail, p ≠ []) (hafter : after ≠ []) :
    gap? (before ++ [] :: after) = some (before, after) := by
  induction before with
  | nil => exact absurd rfl hbefore
  | cons p ps ih =>
    cases ps with
    | nil =>
      obtain ⟨q, qs, rfl⟩ := List.exists_cons_of_ne_nil hafter
      rfl
    | cons r rs =>
      obtain ⟨c, cs, rfl⟩ := List.exists_cons_of_ne_nil (hfull r (by simp))
      have hrest := ih (by simp) fun q hq => hfull q (by simp at hq ⊢; exact Or.inr hq)
      simp only [List.cons_append] at hrest ⊢
      simp [gap?, hrest]

theorem gap?_eq_none {ps : List (List Char)} (h : ∀ p ∈ ps, p ≠ []) : gap? ps = none := by
  cases hgap : gap? ps with
  | none => rfl
  | some sides =>
    obtain ⟨hps, -, -⟩ := eq_append_of_gap? hgap
    exact absurd rfl (h [] (by rw [hps]; simp))

theorem IsSide.pieces {IsEnd : List Char → List Nat → Prop} {cs : List Char} {gs : List Nat}
    (hend : IsEnding IsEnd) (h : IsSide IsEnd cs gs) : ∀ p ∈ (splitOn ':' cs).tail, p ≠ [] := by
  obtain ⟨rfl, -⟩ | h := h
  · simp [splitOn]
  · exact fun p hp => (h.pieces hend).1 p (List.mem_of_mem_tail hp)

theorem splitOn_gap (before after : List Char) : splitOn ':' (before ++ ':' :: ':' :: after) =
    splitOn ':' before ++ [] :: splitOn ':' after := by
  simp [splitOn_append, splitOn]

theorem colonned?_eq_some_iff {cs : List Char} {n : Nat} : colonned? cs = some n ↔ IsV6 cs n := by
  constructor
  · intro h
    simp only [colonned?, Option.ite_none_left_eq_some] at h
    obtain ⟨-, h⟩ := h
    split at h
    · simp only [Option.bind_eq_bind, Option.bind_eq_some_iff, Option.ite_none_right_eq_some,
        Option.some.injEq] at h
      obtain ⟨gs, hgs, hlen, rfl⟩ := h
      exact .full (allGroups?_splitOn.1 hgs) hlen
    · rename_i before after hgap
      simp only [Option.bind_eq_bind, Option.bind_eq_some_iff, Option.ite_none_right_eq_some,
        Option.some.injEq] at h
      obtain ⟨high, hhigh, low, hlow, hlen, rfl⟩ := h
      obtain ⟨hpieces, hbefore, hafter⟩ := eq_append_of_gap? hgap
      obtain ⟨as, bs, rfl, rfl, hbs⟩ := splitOn_eq_append hbefore (by simp) hpieces
      obtain ⟨-, ⟨-, rfl⟩ | ⟨rest, rfl, rfl⟩⟩ := splitOn_eq_cons_iff.1 hbs
      · exact absurd rfl hafter
      · exact .short ((read_side_iff isEnding_isLoneGroup rfl mapM_group?_splitOn).1 hhigh)
          ((read_side_iff isEnding_isTail rfl allGroups?_splitOn).1 hlow) hlen
  · intro h
    cases h with
    | @full _ gs h hlen =>
      obtain ⟨hpieces, hmany⟩ := h.pieces isEnding_isTail
      have hlong : ¬ (splitOn ':' cs).length < 3 := by omega
      simp [colonned?, hlong, gap?_eq_none hpieces, allGroups?_splitOn.2 h, hlen]
    | @short before after high low hhigh hlow hlen =>
      have hgap := gap?_append (splitOn_ne_nil ':' before) (hhigh.pieces isEnding_isLoneGroup)
        (splitOn_ne_nil ':' after)
      have hreadHigh := (read_side_iff isEnding_isLoneGroup rfl mapM_group?_splitOn).2 hhigh
      have hreadLow := (read_side_iff isEnding_isTail rfl allGroups?_splitOn).2 hlow
      have hlong : ¬ (splitOn ':' before ++ [] :: splitOn ':' after).length < 3 := by
        have hfirst := List.length_pos_iff.2 (splitOn_ne_nil ':' before)
        have hsecond := List.length_pos_iff.2 (splitOn_ne_nil ':' after)
        simp only [List.length_append, List.length_cons]
        omega
      simp only [colonned?, splitOn_gap, hgap, hreadHigh, hreadLow, if_neg hlong,
        Option.bind_eq_bind, Option.bind_some, if_pos hlen]

/-! ### Literals -/

/-- The texts of addresses in a URL: an IPv4 address, or an IPv6 one with or without a scope. -/
inductive Literal : List Char → Address → Prop where
  | v4 {n : Nat} (h : n < twoTo 32) : Literal (dottedText n) (.v4 n)
  | v6 {cs : List Char} {n : Nat} (h : IsV6 cs n) : Literal cs (.v6 n)
  | withScope {cs scope : List Char} {n : Nat} (h : IsV6 cs n) (hscope : scope ≠ [])
    (hpercent : '%' ∉ scope) : Literal (cs ++ '%' :: scope) (.v6 n)

theorem IsV6.colon_mem {cs : List Char} {n : Nat} (h : IsV6 cs n) : ':' ∈ cs := by
  cases h with
  | @full _ gs h hlen =>
    cases h with
    | last h =>
      have := isEnding_isTail.length h
      omega
    | more hp h => simp
  | short hhigh hlow hlen => simp

theorem Joined.notMem {IsEnd : List Char → List Nat → Prop} {c : Char} (hhex : hexDigit? c = none)
    (hcolon : c ≠ ':') (hend : ∀ {p gs}, IsEnd p gs → c ∉ p) {cs : List Char} {gs : List Nat}
    (h : Joined IsEnd cs gs) : c ∉ cs := by
  induction h with
  | last h => exact hend h
  | more hp h ih => simp [hp.notMem hhex, hcolon, ih]

theorem IsV6.notMem {cs : List Char} {n : Nat} (h : IsV6 cs n) {c : Char}
    (hhex : hexDigit? c = none) (hcolon : c ≠ ':') (hdot : c ≠ '.') : c ∉ cs := by
  have htail : ∀ {p gs}, IsTail p gs → c ∉ p := fun h => h.notMem hhex hdot
  have hgroup : ∀ {p gs}, IsLoneGroup p gs → c ∉ p := fun ⟨_, h, _⟩ => h.notMem hhex
  cases h with
  | full h hlen => exact h.notMem hhex hcolon htail
  | @short before after high low hhigh hlow hlen =>
    have hbefore : c ∉ before := by
      obtain ⟨rfl, -⟩ | hhigh := hhigh
      · exact List.not_mem_nil
      · exact hhigh.notMem hhex hcolon hgroup
    have hafter : c ∉ after := by
      obtain ⟨rfl, -⟩ | hlow := hlow
      · exact List.not_mem_nil
      · exact hlow.notMem hhex hcolon htail
    simp [hbefore, hafter, hcolon]

theorem dotted?_eq_none {cs : List Char} (h : ':' ∈ cs) : dotted? cs = none := by
  cases hcs : dotted? cs with
  | none => rfl
  | some n =>
    obtain ⟨-, rfl⟩ := dotted?_eq_some_iff.1 hcs
    exact absurd h (notMem_dottedText (by decide) (by decide) n)

theorem scoped?_eq_some_iff {cs : List Char} {n : Nat} : scoped? cs = some n ↔
    IsV6 cs n ∨ ∃ address scope, cs = address ++ '%' :: scope ∧ IsV6 address n ∧ scope ≠ [] ∧
      '%' ∉ scope := by
  have hpercent : ∀ {address m}, IsV6 address m → '%' ∉ address :=
    fun h => h.notMem (by decide) (by decide) (by decide)
  constructor
  · intro h
    by_cases hmem : '%' ∈ cs
    · obtain ⟨address, scope, rfl, haddress⟩ := List.eq_append_cons_of_mem hmem
      simp only [scoped?, cut_append haddress, Option.ite_none_left_eq_some, Bool.or_eq_true,
        List.isEmpty_iff, List.contains_iff_mem, not_or, colonned?_eq_some_iff] at h
      exact Or.inr ⟨address, scope, rfl, h.2, h.1.1, h.1.2⟩
    · simp only [scoped?, cut_of_notMem hmem, colonned?_eq_some_iff] at h
      exact Or.inl h
  · rintro (h | ⟨address, scope, rfl, h, hscope, hscopes⟩)
    · simp only [scoped?, cut_of_notMem (hpercent h), colonned?_eq_some_iff.2 h]
    · simp only [scoped?, cut_append (hpercent h), colonned?_eq_some_iff.2 h]
      simp [hscope, hscopes]

theorem literal?_eq_some_iff {cs : List Char} {a : Address} :
    literal? cs = some a ↔ Literal cs a := by
  constructor
  · intro h
    unfold literal? at h
    split at h
    · rename_i n hn
      cases h
      obtain ⟨hlt, rfl⟩ := dotted?_eq_some_iff.1 hn
      exact .v4 hlt
    · obtain ⟨n, hn, rfl⟩ := Option.map_eq_some_iff.1 h
      obtain h | ⟨address, scope, rfl, h, hscope, hpercent⟩ := scoped?_eq_some_iff.1 hn
      · exact .v6 h
      · exact .withScope h hscope hpercent
  · intro h
    cases h with
    | v4 h => simp only [literal?, dotted?_eq_some_iff.2 ⟨h, rfl⟩]
    | v6 h =>
      simp only [literal?, dotted?_eq_none h.colon_mem, scoped?_eq_some_iff.2 (Or.inl h),
        Option.map_some]
    | @withScope cs scope n h hscope hpercent =>
      have hcolon : ':' ∈ cs ++ '%' :: scope := List.mem_append_left _ h.colon_mem
      have hread := scoped?_eq_some_iff.2 (Or.inr ⟨cs, scope, rfl, h, hscope, hpercent⟩)
      simp only [literal?, dotted?_eq_none hcolon, hread, Option.map_some]

/-! ### Whole numbers -/

theorem bareNumber?_eq_some_iff {cs : List Char} {a : Address} : bareNumber? cs = some a ↔
    ∃ n, InDigits decimalValue? 10 cs n ∧ cs.length ≤ Numeral.maxDigits ∧ n < twoTo 32 ∧
      a = .v4 n := by
  rw [bareNumber?, Option.ite_none_left_eq_some]
  simp only [InDigits.iff_mapM, Bool.or_eq_true, Bool.not_eq_true', decide_eq_true_eq, not_or,
    List.isEmpty_iff, Option.bind_eq_bind, Option.bind_eq_some_iff, Option.ite_none_right_eq_some,
    Option.some.injEq, gt_iff_lt, Nat.not_lt, Bool.not_eq_false]
  constructor
  · rintro ⟨⟨⟨hne, -⟩, hlen⟩, ds, hds, hlt, rfl⟩
    exact ⟨_, ⟨hne, ds, hds, rfl⟩, hlen, hlt, rfl⟩
  · rintro ⟨n, ⟨hne, ds, hds, rfl⟩, hlen, hlt, rfl⟩
    have hspelled : InDigits decimalValue? 10 cs (ofDigits 10 ds) :=
      InDigits.iff_mapM.2 ⟨hne, ds, hds, rfl⟩
    have hdigits := hspelled.digits
    refine ⟨⟨⟨hne, ?_⟩, hlen⟩, ds, hds, hlt, rfl⟩
    simpa [isDigit] using fun c hc => Or.inl (hdigits c hc)

/-! ### Addresses -/

/-- What a host may be to stand for an address: a literal, or a whole number of 32 bits in decimal
digits of any script, as far as numerals are read. -/
inductive Denotes : List Char → Address → Prop where
  | literal {cs : List Char} {a : Address} (h : Literal cs a) : Denotes cs a
  | whole {cs : List Char} {n : Nat} (h : InDigits decimalValue? 10 cs n)
    (hlen : cs.length ≤ Numeral.maxDigits) (hn : n < twoTo 32) : Denotes cs (.v4 n)

theorem Literal.mark_mem {cs : List Char} {a : Address} (h : Literal cs a) :
    '.' ∈ cs ∨ ':' ∈ cs := by
  cases h with
  | @v4 n h => exact Or.inl (dot_mem_dottedText n)
  | v6 h => exact Or.inr h.colon_mem
  | withScope h => exact Or.inr (List.mem_append_left _ h.colon_mem)

theorem InDigits.not_literal {cs : List Char} {n : Nat} (h : InDigits decimalValue? 10 cs n)
    (a : Address) : ¬ Literal cs a := by
  intro ha
  rcases ha.mark_mem with hmem | hmem
  · exact absurd (h.digits _ hmem) (by decide)
  · exact absurd (h.digits _ hmem) (by decide)

theorem address?_eq_some_iff {cs : List Char} {a : Address} :
    address? cs = some a ↔ Denotes cs a := by
  constructor
  · intro h
    unfold address? at h
    split at h
    · cases h
      exact .literal (literal?_eq_some_iff.1 ‹_›)
    · obtain ⟨n, hdigits, hlen, hn, rfl⟩ := bareNumber?_eq_some_iff.1 h
      exact .whole hdigits hlen hn
  · intro h
    cases h with
    | literal h => simp only [address?, literal?_eq_some_iff.2 h]
    | @whole n h hlen hn =>
      have hnone : literal? cs = none := by
        cases hcs : literal? cs with
        | none => rfl
        | some b => exact absurd (literal?_eq_some_iff.1 hcs) (InDigits.not_literal h b)
      simp only [address?, hnone, bareNumber?_eq_some_iff.2 ⟨n, h, hlen, hn, rfl⟩]

end StrategyDesk.Net
