import Mathlib.Tactic.LinearCombination
import StrategyDesk.Number.Shortest
import StrategyDesk.Proofs.Digits
import StrategyDesk.Proofs.Rounding
import StrategyDesk.Proofs.Trimming

set_option autoImplicit false

namespace StrategyDesk.Double
open Text

/-! ### The interval of a value -/

variable {units : Nat}

theorem Interval.ends {i : Interval} {num den : Nat} (h : i.contains num den = true) :
    i.low * den ≤ num ∧ num ≤ i.high * den ∧
      (i.closed = false → i.low * den < num ∧ num < i.high * den) := by
  unfold contains at h
  cases hclosed : i.closed with
  | true =>
    rw [hclosed, if_pos rfl, Bool.and_eq_true, decide_eq_true_eq, decide_eq_true_eq] at h
    exact ⟨h.1, h.2, fun hopen => nomatch hopen⟩
  | false =>
    rw [hclosed, if_neg Bool.false_ne_true, Bool.and_eq_true, decide_eq_true_eq,
      decide_eq_true_eq] at h
    exact ⟨h.1.le, h.2.le, fun _ => h⟩

theorem Interval.contains_of_between {i : Interval} {num den : Nat} (hlow : i.low * den < num)
    (hhigh : num < i.high * den) : i.contains num den = true := by
  unfold contains
  split
  · exact Bool.and_eq_true_iff.2 ⟨decide_eq_true hlow.le, decide_eq_true hhigh.le⟩
  · exact Bool.and_eq_true_iff.2 ⟨decide_eq_true hlow, decide_eq_true hhigh⟩

/-- Whether a value is the least one with its gap, so that its lower neighbour is closer. -/
def OpensGap (units : Nat) : Prop := spareBits units > 0 ∧ units = twoTo (spareBits units + 52)

theorem interval_ends (units den : Nat) :
    let value := units * den
    let gap := den * twoTo (spareBits units)
    (interval units).high * den = 4 * value + 2 * gap ∧
      (OpensGap units → (interval units).low * den = 4 * value - gap) ∧
      (¬OpensGap units → (interval units).low * den = 4 * value - 2 * gap) := by
  have htop : (interval units).high = 4 * units + 2 * twoTo (spareBits units) :=
    congrArg (4 * units + ·) (twoTo_succ _)
  refine ⟨?_, fun hopens => ?_, fun hopens => ?_⟩
  · rw [htop, Nat.add_mul, Nat.mul_assoc, Nat.mul_assoc, Nat.mul_comm (twoTo _)]
  · have hlow : (interval units).low = 4 * units - twoTo (spareBits units) :=
      congrArg (4 * units - ·) (if_pos hopens)
    rw [hlow, Nat.sub_mul, Nat.mul_assoc, Nat.mul_comm (twoTo _)]
  · have hlow : (interval units).low = 4 * units - 2 * twoTo (spareBits units) :=
      congrArg (4 * units - ·) ((if_neg hopens).trans (twoTo_succ _))
    rw [hlow, Nat.sub_mul, Nat.mul_assoc, Nat.mul_assoc, Nat.mul_comm (twoTo _)]

theorem roundUnits_of_opensGap {num den : Nat} (hden : 0 < den) (hopens : OpensGap units)
    (hbelow : num < units * den)
    (hlow : 4 * (units * den) ≤ 4 * num + den * twoTo (spareBits units)) :
    roundUnits num den = units := by
  obtain ⟨hgap, hunits⟩ := hopens
  obtain ⟨k, hk⟩ : ∃ k, spareBits units = k + 1 := ⟨spareBits units - 1, by omega⟩
  rw [hk] at hunits hlow
  have hpos := Nat.mul_pos hden (twoTo_pos k)
  have hfiner : den * twoTo (k + 1) = 2 * (den * twoTo k) := by rw [twoTo_succ, Nat.mul_left_comm]
  have hvalue : units * den = twoTo 53 * (den * twoTo k) := by
    rw [hunits, show k + 1 + 52 = 53 + k by omega, twoTo_add, Nat.mul_assoc, Nat.mul_comm den]
  have hhalf : twoTo 53 * (den * twoTo k) = 2 * (twoTo 52 * (den * twoTo k)) := by
    rw [twoTo_succ, Nat.mul_assoc]
  have hfar : den * twoTo k ≤ twoTo 52 * (den * twoTo k) := Nat.le_mul_of_pos_left _ (twoTo_pos 52)
  have hspare : spareBits (num / den) = k := by
    refine spareBits_eq (fun _ => (Nat.le_div_iff_mul_le hden).2 ?_)
      ((Nat.div_lt_iff_lt_mul hden).2 ?_)
    · rw [Nat.add_comm, twoTo_add, Nat.mul_assoc, Nat.mul_comm (twoTo k)]
      omega
    · rwa [show k + 53 = k + 1 + 52 by omega, ← hunits]
  rw [roundUnits_eq (m := twoTo 53) hden hspare (by omega) (by omega) (fun _ => rfl), ← twoTo_add,
    hunits]
  congr 1
  omega

theorem mul_eq_of_eq_mul {n m gap : Nat} (den : Nat) (h : n = m * gap) :
    n * den = m * (den * gap) := by
  rw [h, Nat.mul_assoc, Nat.mul_comm gap]

theorem spareBits_of_near {num den m : Nat} (hden : 0 < den)
    (hunits : units = m * twoTo (spareBits units)) (hmost : m < twoTo 53)
    (hfull : spareBits units ≠ 0 → twoTo 52 ≤ m) (hside : OpensGap units → units * den ≤ num)
    (hlow : 4 * (units * den) ≤ 4 * num + 2 * (den * twoTo (spareBits units)))
    (hhigh : 4 * num ≤ 4 * (units * den) + 2 * (den * twoTo (spareBits units))) :
    spareBits (num / den) = spareBits units := by
  have hpos : 0 < den * twoTo (spareBits units) := Nat.mul_pos hden (twoTo_pos _)
  have hvalue := mul_eq_of_eq_mul den hunits
  refine spareBits_eq (fun hgap => (Nat.le_div_iff_mul_le hden).2 ?_)
    ((Nat.div_lt_iff_lt_mul hden).2 ?_)
  · rw [Nat.add_comm, twoTo_add, Nat.mul_assoc, Nat.mul_comm (twoTo _) den]
    by_cases hleast : m = twoTo 52
    · have hpower : units = twoTo (spareBits units + 52) := by
        rw [Nat.add_comm, twoTo_add, ← hleast]
        exact hunits
      have hle := hside ⟨Nat.pos_of_ne_zero hgap, hpower⟩
      rw [← hleast, ← hvalue]
      exact hle
    · have hmore : twoTo 52 + 1 ≤ m := Nat.lt_of_le_of_ne (hfull hgap) (Ne.symm hleast)
      have hnext := Nat.mul_le_mul_right (den * twoTo (spareBits units)) hmore
      rw [Nat.succ_mul] at hnext
      omega
  · have hnext := Nat.mul_le_mul_right (den * twoTo (spareBits units)) hmost
    rw [Nat.add_comm, twoTo_add, Nat.mul_assoc, Nat.mul_comm (twoTo _) den]
    rw [Nat.succ_mul] at hnext
    omega

theorem roundUnits_of_contains {num den : Nat} (hden : 0 < den) (hfits : Fits units)
    (hpos : 0 < units) (h : (interval units).contains (4 * num) den = true) :
    roundUnits num den = units := by
  obtain ⟨m, hunits, hmost, hfull⟩ := hfits.exists_mul hpos
  obtain ⟨hlow, hhigh, hopen⟩ := Interval.ends h
  obtain ⟨htop, hquarter, hhalf⟩ := interval_ends units den
  rw [htop] at hhigh hopen
  by_cases hside : OpensGap units ∧ num < units * den
  · refine roundUnits_of_opensGap hden hside.1 hside.2 ?_
    rw [hquarter hside.1] at hlow
    omega
  · -- On this side the value's own gap is the one to round with.
    have hstep : 0 < den * twoTo (spareBits units) := Nat.mul_pos hden (twoTo_pos _)
    have hend : ¬OpensGap units ∨ units * den ≤ num := by
      rw [← Nat.not_lt]
      exact not_and_or.1 hside
    have hnear : 4 * (units * den) ≤ 4 * num + 2 * (den * twoTo (spareBits units)) := by
      rcases hend with hopens | hle
      · rw [hhalf hopens] at hlow
        omega
      · omega
    have hspare := spareBits_of_near hden hunits hmost hfull
      (fun hopens => hend.resolve_left fun hnot => hnot hopens) hnear hhigh
    have hvalue := mul_eq_of_eq_mul den hunits
    rw [roundUnits_eq hden hspare (m := m) (by omega) (by omega) ?_, ← hunits]
    -- A tie is an end, and the ends count for even numbers only.
    intro htie
    by_contra hodd
    have hclosed : (interval units).closed = false := by
      have hmant : units / twoTo (spareBits units) = m := by
        conv_lhs => lhs; rw [hunits]
        exact Nat.mul_div_cancel m (twoTo_pos _)
      exact (congrArg (fun n => n % 2 == 0) hmant).trans (beq_eq_false_iff_ne.2 hodd)
    obtain ⟨hstrict, hstrict'⟩ := hopen hclosed
    rcases hend with hopens | hle
    · rw [hhalf hopens] at hstrict
      omega
    · omega

theorem twoTo_spareBits_le (hpos : 0 < units) : twoTo (spareBits units) ≤ units :=
  Nat.le_trans (twoTo_le (Nat.sub_le _ _)) (Nat.log2_self_le (Nat.ne_of_gt hpos))

/-- An interval is wider than a part of the value that leaves seventeen digits. -/
theorem interval_wide {num den : Nat} (hpos : 0 < units) (hden : 0 < den)
    (hfine : tenTo 16 * den ≤ num) :
    (interval units).low * num + 4 * (units * den) < (interval units).high * num := by
  obtain ⟨htop, hquarter, hhalf⟩ := interval_ends units num
  have hgap : num * twoTo (spareBits units) ≤ units * num := by
    rw [Nat.mul_comm units]
    exact Nat.mul_le_mul_left num (twoTo_spareBits_le hpos)
  have hparts := Nat.mul_le_mul_right (twoTo (spareBits units)) hfine
  have hstep : 0 < den * twoTo (spareBits units) := Nat.mul_pos hden (twoTo_pos _)
  rw [Nat.mul_assoc, show tenTo 16 = 10000000000000000 by rfl] at hparts
  rw [htop]
  by_cases hopens : OpensGap units
  · have hvalue := mul_eq_of_eq_mul den (hopens.2.trans (by rw [Nat.add_comm, twoTo_add]))
    rw [show twoTo 52 = 4503599627370496 by rfl] at hvalue
    rw [hquarter hopens]
    omega
  · have hvalue := Nat.mul_lt_mul_of_pos_right (lt_mul_gap units) hden
    rw [Nat.mul_assoc, Nat.mul_comm (twoTo (spareBits units)),
      show twoTo 53 = 9007199254740992 by rfl] at hvalue
    rw [hhalf hopens]
    omega

theorem contains_neighbour {num den : Nat} (hpos : 0 < units) (hden : 0 < den)
    (hfine : tenTo 16 * den ≤ num) :
    (interval units).contains (4 * (num / den * (units * den))) num = true ∨
      (interval units).contains (4 * ((num / den + 1) * (units * den))) num = true := by
  have hdiv := Nat.div_add_mod num den
  have hmod := Nat.mod_lt num hden
  generalize num / den = q at *
  have hbelow : q * (units * den) ≤ units * num := by
    rw [Nat.mul_left_comm, Nat.mul_comm q]
    exact Nat.mul_le_mul_left units (by omega)
  have habove : units * num < (q + 1) * (units * den) := by
    rw [Nat.mul_left_comm, Nat.mul_comm (q + 1), Nat.mul_succ]
    exact Nat.mul_lt_mul_of_pos_left (by omega) hpos
  have hlow : (interval units).low * num ≤ 4 * (units * num) := by
    rw [← Nat.mul_assoc]
    exact Nat.mul_le_mul_right num (Nat.sub_le _ _)
  have hhigh : 4 * (units * num) < (interval units).high * num := by
    have hnum : 0 < num := Nat.lt_of_lt_of_le (Nat.mul_pos (tenTo_pos 16) hden) hfine
    rw [← Nat.mul_assoc]
    exact Nat.mul_lt_mul_of_pos_right (Nat.lt_add_of_pos_right (twoTo_pos _)) hnum
  have hwide := interval_wide hpos hden hfine
  rw [Nat.succ_mul q] at habove ⊢
  by_cases hhere : (interval units).low * num < 4 * (q * (units * den))
  · exact Or.inl (Interval.contains_of_between hhere (by omega))
  · exact Or.inr (Interval.contains_of_between (by omega) (by omega))

/-! ### Points of a decimal grid -/

/-- The quotient and the next number are the neighbours of a value on a grid, and what is taken of
them is in the value's interval. -/
theorem onGrid?_eq_some {e : Int} {c : Nat} (h : onGrid? units e = some c) :
    (interval units).contains (gridPoint c e).1 (gridPoint c e).2 = true ∧
      (c = (onGrid units e).1 / (onGrid units e).2 ∨
        c = (onGrid units e).1 / (onGrid units e).2 + 1) := by
  unfold onGrid? at h
  dsimp only at h
  split at h <;> rename_i hhere hnext
  · cases h
    unfold halfEven
    dsimp only
    split
    · exact ⟨hhere, Or.inl rfl⟩
    · exact ⟨hnext, Or.inr rfl⟩
  · cases h
    exact ⟨hhere, Or.inl rfl⟩
  · cases h
    exact ⟨hnext, Or.inr rfl⟩
  · cases h

theorem isSome_onGrid? {e : Int}
    (h : let q := (onGrid units e).1 / (onGrid units e).2
      (interval units).contains (gridPoint q e).1 (gridPoint q e).2 = true ∨
        (interval units).contains (gridPoint (q + 1) e).1 (gridPoint (q + 1) e).2 = true) :
    (onGrid? units e).isSome = true := by
  unfold onGrid?
  dsimp only at h ⊢
  split <;> simp_all

theorem cast_tenTo (k : Nat) : (tenTo k : ℚ) = 10 ^ (k : ℤ) := by
  rw [zpow_natCast]
  exact Nat.cast_pow 10 k

theorem onGrid_value (units : Nat) (e : Int) : 0 < (onGrid units e).2 ∧
    ((onGrid units e).1 : ℚ) / (onGrid units e).2 = units / (scale * 10 ^ e) := by
  have hscale := scale_pos
  unfold onGrid
  generalize scale = one at *
  split
  · rename_i he
    refine ⟨Nat.mul_pos hscale (tenTo_pos _), ?_⟩
    rw [Nat.cast_mul, cast_tenTo, Int.toNat_of_nonneg he]
  · rename_i he
    refine ⟨hscale, ?_⟩
    rw [Nat.cast_mul, cast_tenTo, Int.toNat_of_nonneg (by omega), zpow_neg, ← div_eq_mul_inv,
      div_div, mul_comm]

theorem gridPoint_value (c : Nat) (e : Int) : 0 < (gridPoint c e).2 ∧
    ((gridPoint c e).1 : ℚ) / (gridPoint c e).2 = 4 * (scale * (c * 10 ^ e)) := by
  unfold gridPoint
  split
  · rename_i he
    refine ⟨Nat.one_pos, ?_⟩
    rw [Nat.cast_one, div_one]
    push_cast [cast_tenTo]
    rw [Int.toNat_of_nonneg he, mul_assoc]
  · rename_i he
    refine ⟨tenTo_pos _, ?_⟩
    push_cast [cast_tenTo]
    rw [Int.toNat_of_nonneg (by omega), zpow_neg, div_inv_eq_mul]
    simp only [mul_assoc]

theorem Interval.contains_congr (i : Interval) {num den num' den' : Nat} (hden : 0 < den)
    (hden' : 0 < den') (h : (num : ℚ) / den = num' / den') :
    i.contains num den = i.contains num' den' := by
  have hpos : (0 : ℚ) < den := by exact_mod_cast hden
  have hpos' : (0 : ℚ) < den' := by exact_mod_cast hden'
  have hbelow : ∀ a : Nat, a * den ≤ num ↔ a * den' ≤ num' := fun a => by
    rw [← Nat.cast_le (α := ℚ), Nat.cast_mul, ← le_div_iff₀ hpos, h, le_div_iff₀ hpos']
    exact_mod_cast Iff.rfl
  have habove : ∀ a : Nat, num ≤ a * den ↔ num' ≤ a * den' := fun a => by
    rw [← Nat.cast_le (α := ℚ), Nat.cast_mul, ← div_le_iff₀ hpos, h, div_le_iff₀ hpos']
    exact_mod_cast Iff.rfl
  unfold contains
  simp only [← Nat.not_le, hbelow, habove]

theorem contains_gridPoint {e : Int} (c : Nat) (hnum : 0 < (onGrid units e).1) :
    (interval units).contains (gridPoint c e).1 (gridPoint c e).2 =
      (interval units).contains (4 * (c * (units * (onGrid units e).2))) (onGrid units e).1 := by
  obtain ⟨hden, hvalue⟩ := onGrid_value units e
  obtain ⟨hpoint, hpointValue⟩ := gridPoint_value c e
  have hstep : (0 : ℚ) < scale * 10 ^ e :=
    mul_pos (by exact_mod_cast scale_pos) (zpow_pos (by norm_num) e)
  have hden' : (0 : ℚ) < (onGrid units e).2 := by exact_mod_cast hden
  have hnum' : (0 : ℚ) < (onGrid units e).1 := by exact_mod_cast hnum
  refine Interval.contains_congr _ hpoint hnum ?_
  rw [div_eq_div_iff hden'.ne' hstep.ne'] at hvalue
  rw [hpointValue, eq_div_iff hnum'.ne']
  push_cast
  linear_combination (4 * c) * hvalue

theorem isSome_onGrid?_of_fine {e : Int} (hpos : 0 < units)
    (h : tenTo 16 * (onGrid units e).2 ≤ (onGrid units e).1) : (onGrid? units e).isSome = true := by
  obtain ⟨hden, -⟩ := onGrid_value units e
  have hnum : 0 < (onGrid units e).1 := Nat.lt_of_lt_of_le (Nat.mul_pos (tenTo_pos 16) hden) h
  refine isSome_onGrid? ?_
  dsimp only
  rw [contains_gridPoint _ hnum, contains_gridPoint _ hnum]
  exact contains_neighbour hpos hden h

theorem tenTo_mul_le_iff {e : Int} {k : Nat} :
    tenTo k * (onGrid units e).2 ≤ (onGrid units e).1 ↔
      (scale : ℚ) * 10 ^ (e + k) ≤ units := by
  obtain ⟨hden, hvalue⟩ := onGrid_value units e
  have hden' : (0 : ℚ) < (onGrid units e).2 := by exact_mod_cast hden
  have hstep : (0 : ℚ) < scale * 10 ^ e :=
    mul_pos (by exact_mod_cast scale_pos) (zpow_pos (by norm_num) e)
  rw [← Nat.cast_le (α := ℚ), Nat.cast_mul, cast_tenTo, ← le_div_iff₀ hden', hvalue,
    le_div_iff₀ hstep, zpow_add₀ (by norm_num)]
  rw [mul_left_comm, mul_comm ((10 : ℚ) ^ (k : ℤ))]

/-! ### The first hit -/

theorem firstHit_of_isSome {lead : Int} {more width last : Nat} (hfirst : width ≤ last)
    (hlast : last < width + more) (h : (onGrid? units (lead - last + 1)).isSome = true) :
    ∃ (w c : Nat), width ≤ w ∧ w ≤ last ∧ firstHit units lead more width = (c, lead - w + 1) ∧
      onGrid? units (lead - w + 1) = some c := by
  induction more generalizing width with
  | zero => omega
  | succ more ih =>
    cases hhere : onGrid? units (lead - width + 1) with
    | some c =>
      refine ⟨width, c, Nat.le_refl _, hfirst, ?_, hhere⟩
      simp only [firstHit, hhere]
    | none =>
      have hne : width ≠ last := by
        rintro rfl
        rw [hhere] at h
        cases h
      have hnext : width + 1 ≤ last := by omega
      obtain ⟨w, c, hle, hlast', hhit, hsome⟩ := ih hnext (by omega)
      refine ⟨w, c, by omega, hlast', ?_, hsome⟩
      simp only [firstHit, hhere]
      exact hhit

theorem decimalExponent_spec (h : scale ≤ units) :
    ∃ lead : Nat, decimalExponent units = lead ∧ tenTo lead * scale ≤ units ∧
      units < tenTo (lead + 1) * scale := by
  obtain ⟨lead, hlength, hlow, hhigh⟩ := exists_length_toString (Nat.div_pos h scale_pos)
  have hexp : decimalExponent units = ((toString (units / scale)).length : Int) - 1 := if_pos h
  refine ⟨lead, ?_, (Nat.le_div_iff_mul_le scale_pos).1 hlow,
    (Nat.div_lt_iff_lt_mul scale_pos).1 hhigh⟩
  rw [hexp, ← String.length_toList, hlength]
  omega

theorem trimEnd_append_digit (cs : List Char) {c : Char} (hc : c ≠ '0') :
    trimEnd (· == '0') (cs ++ [c]) = cs ++ [c] :=
  trimEnd_append_of_notMem cs (List.cons_ne_nil c []) fun h => hc (List.mem_singleton.1 h).symm

theorem exists_trimEnd {cs : List Char} {n : Nat} (h : InDigits asciiDigit? 10 cs n)
    (hpos : 0 < n) : ∃ m zeros, n = m * tenTo zeros ∧ 0 < m ∧
      InDigits asciiDigit? 10 (trimEnd (· == '0') cs) m ∧
      cs.length = (trimEnd (· == '0') cs).length + zeros := by
  induction h with
  | @one c d hc =>
    have hne : c ≠ '0' := by
      rintro rfl
      obtain rfl : 0 = d := Option.some.inj hc
      exact absurd hpos (Nat.lt_irrefl 0)
    have hstays : trimEnd (· == '0') [c] = [c] := trimEnd_append_digit [] hne
    rw [hstays]
    exact ⟨d, 0, (Nat.mul_one d).symm, hpos, .one hc, rfl⟩
  | @more cs c n d h hc ih =>
    by_cases hzero : c = '0'
    · subst hzero
      obtain rfl : 0 = d := Option.some.inj hc
      obtain ⟨m, zeros, hvalue, hm, hdigits, hlength⟩ := ih (by omega)
      rw [trimEnd_append_of_pos cs (by simp)]
      refine ⟨m, zeros + 1, ?_, hm, hdigits, ?_⟩
      · rw [Nat.add_zero, hvalue, Nat.mul_assoc]
        rfl
      · rw [List.length_append, hlength]
        rfl
    · rw [trimEnd_append_digit cs hzero]
      exact ⟨n * 10 + d, 0, (Nat.mul_one _).symm, hpos, .more h hc, rfl⟩

/-- The digits found for a value from one on: no more than seventeen, the first of them standing for
the leading power of ten, or a one for the next power. -/
theorem exists_hit (h : scale ≤ units) :
    ∃ (lead w count : Nat), tenTo lead * scale ≤ units ∧ w ≤ 16 ∧
      firstHit units (decimalExponent units) 17 1 = (count, (lead : Int) - w) ∧
      (interval units).contains (gridPoint count (lead - w)).1 (gridPoint count (lead - w)).2 =
        true ∧
      tenTo w ≤ count ∧ count ≤ tenTo (w + 1) := by
  obtain ⟨lead, hexp, hlow, hhigh⟩ := decimalExponent_spec h
  have hpos : 0 < units := Nat.lt_of_lt_of_le scale_pos h
  have hlow' : (scale : ℚ) * 10 ^ (lead : ℤ) ≤ units := by
    rw [← cast_tenTo, mul_comm]
    exact_mod_cast hlow
  have hhigh' : (units : ℚ) < scale * 10 ^ ((lead + 1 : Nat) : ℤ) := by
    rw [← cast_tenTo, mul_comm]
    exact_mod_cast hhigh
  have hfine : (onGrid? units ((lead : Int) - (17 : Nat) + 1)).isSome = true := by
    refine isSome_onGrid?_of_fine hpos (tenTo_mul_le_iff.2 ?_)
    rwa [show (lead : Int) - (17 : Nat) + 1 + (16 : Nat) = lead by omega]
  have hone : 1 ≤ 17 := by decide
  have hall : 17 < 1 + 17 := by decide
  obtain ⟨width, count, hfirst, hlast, hhit, hsome⟩ := firstHit_of_isSome hone hall hfine
  -- One digit fewer than the width stands behind the leading one.
  obtain ⟨w, rfl⟩ : ∃ w, width = w + 1 := ⟨width - 1, by omega⟩
  rw [show (lead : Int) - (w + 1 : Nat) + 1 = lead - w by omega] at hhit hsome
  obtain ⟨hcontains, hneighbour⟩ := onGrid?_eq_some hsome
  obtain ⟨hden, -⟩ := onGrid_value units ((lead : Int) - w)
  have hleast : tenTo w ≤
      (onGrid units ((lead : Int) - w)).1 / (onGrid units ((lead : Int) - w)).2 := by
    rw [Nat.le_div_iff_mul_le hden, tenTo_mul_le_iff, sub_add_cancel]
    exact hlow'
  have hmost : (onGrid units ((lead : Int) - w)).1 / (onGrid units ((lead : Int) - w)).2 <
      tenTo (w + 1) := by
    rw [Nat.div_lt_iff_lt_mul hden, ← Nat.not_le, tenTo_mul_le_iff, not_le,
      show (lead : Int) - w + (w + 1 : Nat) = (lead + 1 : Nat) by omega]
    exact hhigh'
  refine ⟨lead, w, count, hlow, by omega, by rw [hexp]; exact hhit, hcontains, ?_, ?_⟩ <;> omega

/-- The shortest digits of a value from one on stand for a number that rounds to the value. -/
theorem shortest_spec (hfits : Fits units) (hlow : scale ≤ units)
    (hhigh : units < tenTo 15 * scale) :
    ∃ m e : Nat, InDigits asciiDigit? 10 (shortest units).1 m ∧ 0 < m ∧ (shortest units).2 = e ∧
      e < 16 ∧ (shortest units).1.length ≤ 18 ∧
      ∀ num den : Nat, 0 < den →
        (num : ℚ) / den = m * 10 ^ ((e : ℤ) + 1 - (shortest units).1.length) →
        roundUnits (scale * num) den = units := by
  obtain ⟨lead, w, count, hlead, hw, hhit, hcontains, hleast, hmost⟩ := exists_hit hlow
  have hcount : 0 < count := Nat.lt_of_lt_of_le (tenTo_pos w) hleast
  obtain ⟨k, hlength, hfrom, hto⟩ := exists_length_toString hcount
  obtain ⟨m, zeros, hvalue, hm, hdigits, htrimmed⟩ :=
    exists_trimEnd (inDigits_toString count) hcount
  have hshort : shortest units = (trimEnd (· == '0') (toString count).toList,
      (lead : Int) - w + (toString count).toList.length - 1) := by
    unfold shortest
    rw [hhit]
    rfl
  have hwk : w ≤ k := Nat.lt_succ_iff.1 (tenTo_lt_iff.1 (Nat.lt_of_le_of_lt hleast hto))
  have hkw : k ≤ w + 1 := tenTo_le_iff.1 (Nat.le_trans hfrom hmost)
  have hlead' : lead < 15 :=
    tenTo_lt_iff.1 (Nat.lt_of_mul_lt_mul_right (Nat.lt_of_le_of_lt hlead hhigh))
  rw [hshort]
  dsimp only
  refine ⟨m, lead + k - w, hdigits, hm, by omega, by omega, by omega, fun num den hden heq => ?_⟩
  refine roundUnits_of_contains hden hfits (Nat.lt_of_lt_of_le scale_pos hlow) ?_
  rw [← hcontains]
  obtain ⟨hpoint, hpointValue⟩ := gridPoint_value count (lead - w)
  refine Interval.contains_congr _ hden hpoint ?_
  have hexp : ((lead + k - w : Nat) : ℤ) + 1 - (trimEnd (· == '0') (toString count).toList).length =
      zeros + (lead - w) := by omega
  rw [hexp, zpow_add₀ (by norm_num), ← cast_tenTo] at heq
  rw [hpointValue, hvalue]
  push_cast
  rw [mul_div_assoc, mul_div_assoc, heq, mul_assoc]

end StrategyDesk.Double
