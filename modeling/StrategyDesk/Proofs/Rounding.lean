import Mathlib.Tactic.FieldSimp
import Mathlib.Tactic.Linarith
import StrategyDesk.Proofs.FiniteNumbers

set_option autoImplicit false

namespace StrategyDesk

/-! ### Rounding to a whole number -/

/-- The whole number nearest to a rational one; of two that are nearest, the even one. -/
structure NearestEven (y : ℚ) (m : ℕ) : Prop where
  near : |(m : ℚ) - y| ≤ 1 / 2
  tie : |(m : ℚ) - y| = 1 / 2 → m % 2 = 0

theorem NearestEven.mono {y z : ℚ} {m n : ℕ} (hm : NearestEven y m) (hn : NearestEven z n)
    (h : y ≤ z) : m ≤ n := by
  by_contra hlt
  have hstep : (n : ℚ) + 1 ≤ m := by exact_mod_cast Nat.lt_of_not_le hlt
  obtain ⟨-, hm'⟩ := abs_le.1 hm.near
  obtain ⟨hn', -⟩ := abs_le.1 hn.near
  -- Only a tie on either side leaves room, and of two neighbours one is odd.
  have hmtie : (m : ℚ) - y = 1 / 2 := by linarith
  have hntie : (n : ℚ) - z = -(1 / 2) := by linarith
  have hnext : m = n + 1 := by
    have : (m : ℚ) = n + 1 := by linarith
    exact_mod_cast this
  have hmeven := hm.tie (by rw [hmtie]; norm_num)
  have hneven := hn.tie (by rw [hntie]; norm_num)
  omega

theorem NearestEven.unique {y : ℚ} {m n : ℕ} (hm : NearestEven y m) (hn : NearestEven y n) :
    m = n :=
  Nat.le_antisymm (hm.mono hn le_rfl) (hn.mono hm le_rfl)

theorem nearestEven_natCast (n : ℕ) : NearestEven n n :=
  ⟨by rw [sub_self]; norm_num, fun h => by rw [sub_self] at h; norm_num at h⟩

namespace Double

theorem halfEven_even_of_tie (num : Nat) {den : Nat} (hden : 0 < den)
    (h : 2 * (halfEven num den * den) + den = 2 * num ∨
      2 * (halfEven num den * den) = 2 * num + den) : halfEven num den % 2 = 0 := by
  have hdiv := Nat.div_add_mod num den
  have hmod := Nat.mod_lt num hden
  have hcomm : num / den * den = den * (num / den) := Nat.mul_comm _ _
  have hnext : (num / den + 1) * den = den * (num / den) + den := by
    rw [Nat.add_mul, Nat.one_mul, hcomm]
  unfold halfEven at h ⊢
  dsimp only at h ⊢
  split at h
  · rename_i hlow
    rw [if_pos hlow]
    omega
  · rename_i hhigh
    rw [if_neg hhigh]
    omega

theorem nearestEven_div_iff {num den m : Nat} (hden : 0 < den) :
    NearestEven ((num : ℚ) / den) m ↔
      2 * num ≤ 2 * (m * den) + den ∧ 2 * (m * den) ≤ 2 * num + den ∧
        (2 * (m * den) + den = 2 * num ∨ 2 * (m * den) = 2 * num + den → m % 2 = 0) := by
  have hpos : (0 : ℚ) < 2 * den := by exact_mod_cast Nat.mul_pos two_pos hden
  have hdist : ((m : ℚ) - num / den) * (2 * den) = 2 * (m * den) - 2 * num := by field_simp
  have hlow : -(1 / 2) ≤ (m : ℚ) - num / den ↔ 2 * num ≤ 2 * (m * den) + den := by
    rw [← mul_le_mul_iff_left₀ hpos, hdist, ← Nat.cast_le (α := ℚ)]
    push_cast
    constructor <;> intro h <;> linarith
  have hhigh : (m : ℚ) - num / den ≤ 1 / 2 ↔ 2 * (m * den) ≤ 2 * num + den := by
    rw [← mul_le_mul_iff_left₀ hpos, hdist, ← Nat.cast_le (α := ℚ)]
    push_cast
    constructor <;> intro h <;> linarith
  have hbelow : (m : ℚ) - num / den = -(1 / 2) ↔ 2 * (m * den) + den = 2 * num := by
    rw [← mul_left_inj' hpos.ne', hdist, ← Nat.cast_inj (R := ℚ)]
    push_cast
    constructor <;> intro h <;> linarith
  have habove : (m : ℚ) - num / den = 1 / 2 ↔ 2 * (m * den) = 2 * num + den := by
    rw [← mul_left_inj' hpos.ne', hdist, ← Nat.cast_inj (R := ℚ)]
    push_cast
    constructor <;> intro h <;> linarith
  rw [← hlow, ← hhigh, ← hbelow, ← habove, or_comm, ← abs_eq (by norm_num), ← and_assoc, ← abs_le]
  exact ⟨fun h => ⟨h.near, h.tie⟩, fun h => ⟨h.1, h.2⟩⟩

theorem nearestEven_halfEven (num : Nat) {den : Nat} (hden : 0 < den) :
    NearestEven ((num : ℚ) / den) (halfEven num den) :=
  have ⟨hlow, hhigh⟩ := halfEven_near num den hden
  (nearestEven_div_iff hden).2 ⟨hlow, hhigh, halfEven_even_of_tie num hden⟩

theorem halfEven_eq {num den m : Nat} (hden : 0 < den) (hlow : 2 * num ≤ 2 * (m * den) + den)
    (hhigh : 2 * (m * den) ≤ 2 * num + den)
    (htie : 2 * (m * den) + den = 2 * num ∨ 2 * (m * den) = 2 * num + den → m % 2 = 0) :
    halfEven num den = m :=
  (nearestEven_halfEven num hden).unique ((nearestEven_div_iff hden).2 ⟨hlow, hhigh, htie⟩)

/-! ### Rounding sizes -/

theorem scale_pos : 0 < scale := twoTo_pos 1074

theorem spareBits_le_of_lt {n gap : Nat} (h : n < twoTo (gap + 53)) : spareBits n ≤ gap := by
  by_cases hzero : n = 0
  · subst hzero
    exact Nat.zero_le gap
  · have hlog : n.log2 < gap + 53 := (Nat.log2_lt hzero).2 h
    rw [spareBits]
    omega

theorem lt_mul_gap (n : Nat) : n < twoTo 53 * twoTo (spareBits n) := by
  rw [← twoTo_add]
  exact Nat.lt_of_lt_of_le Nat.lt_log2_self (twoTo_le (by rw [spareBits]; omega))

theorem spareBits_eq {n gap : Nat} (hlow : gap ≠ 0 → twoTo (gap + 52) ≤ n)
    (hhigh : n < twoTo (gap + 53)) : spareBits n = gap := by
  refine Nat.le_antisymm (spareBits_le_of_lt hhigh) ?_
  by_cases hgap : gap = 0
  · omega
  · have hpos : n ≠ 0 := Nat.ne_of_gt (Nat.lt_of_lt_of_le (twoTo_pos _) (hlow hgap))
    have hlog := (Nat.le_log2 hpos).2 (hlow hgap)
    rw [spareBits]
    omega

/-- A rounded size is known from its gap and from what is nearest on the grid of this gap. -/
theorem roundUnits_eq {num den gap m : Nat} (hden : 0 < den) (hspare : spareBits (num / den) = gap)
    (hlow : 2 * num ≤ 2 * (m * (den * twoTo gap)) + den * twoTo gap)
    (hhigh : 2 * (m * (den * twoTo gap)) ≤ 2 * num + den * twoTo gap)
    (htie : 2 * (m * (den * twoTo gap)) + den * twoTo gap = 2 * num ∨
      2 * (m * (den * twoTo gap)) = 2 * num + den * twoTo gap → m % 2 = 0) :
    roundUnits num den = m * twoTo gap := by
  subst hspare
  exact congrArg (· * _) (halfEven_eq (Nat.mul_pos hden (twoTo_pos _)) hlow hhigh htie)

/-- A size with no more bits than a value keeps. -/
def Fits (units : Nat) : Prop := twoTo (spareBits units) ∣ units

/-- Such a size is a number of at most 53 bits on the grid of its gap, and of no fewer where the
gap is not the least one. -/
theorem Fits.exists_mul {units : Nat} (h : Fits units) (hpos : 0 < units) :
    ∃ m, units = m * twoTo (spareBits units) ∧ m < twoTo 53 ∧
      (spareBits units ≠ 0 → twoTo 52 ≤ m) := by
  obtain ⟨m, hm⟩ := h
  have hgap := twoTo_pos (spareBits units)
  refine ⟨m, hm.trans (Nat.mul_comm _ _), ?_, fun hspare => ?_⟩
  · refine Nat.lt_of_mul_lt_mul_left (a := twoTo (spareBits units)) ?_
    rw [← hm, Nat.mul_comm]
    exact lt_mul_gap units
  · have hlog : spareBits units + 52 = units.log2 := by
      rw [spareBits] at hspare ⊢
      omega
    have habove : twoTo (spareBits units + 52) ≤ units :=
      hlog ▸ Nat.log2_self_le (Nat.ne_of_gt hpos)
    rw [twoTo_add] at habove
    refine Nat.le_of_mul_le_mul_left ?_ hgap
    rwa [← hm]

theorem twoTo_dvd {m n : Nat} (h : m ≤ n) : twoTo m ∣ twoTo n := Nat.pow_dvd_pow 2 h

theorem fits_mul {m gap : Nat} (h : m ≤ twoTo 53) : Fits (m * twoTo gap) := by
  rcases Nat.lt_or_eq_of_le h with hlt | rfl
  · have hsize : m * twoTo gap < twoTo (gap + 53) := by
      rw [Nat.add_comm, twoTo_add]
      exact Nat.mul_lt_mul_of_pos_right hlt (twoTo_pos gap)
    exact Nat.dvd_trans (twoTo_dvd (spareBits_le_of_lt hsize)) (Nat.dvd_mul_left _ m)
  · rw [← twoTo_add]
    have hsize : twoTo (53 + gap) < twoTo (gap + 1 + 53) :=
      Nat.pow_lt_pow_right (by decide) (by omega)
    have hspare := spareBits_le_of_lt hsize
    exact twoTo_dvd (by omega)

theorem halfEven_le (num den : Nat) : halfEven num den ≤ num / den + 1 := by
  unfold halfEven
  dsimp only
  split <;> omega

theorem fits_roundUnits (num den : Nat) : Fits (roundUnits num den) := by
  have hpos := twoTo_pos (spareBits (num / den))
  refine fits_mul (Nat.le_trans (halfEven_le _ _) ?_)
  rw [← Nat.div_div_eq_div_mul]
  exact (Nat.div_lt_iff_lt_mul hpos).2 (lt_mul_gap (num / den))

theorem eq_of_ofUnits {negative sign : Bool} {n units : Nat}
    (h : ofUnits negative n = .finite sign units) : n = units := by
  unfold ofUnits at h
  split at h
  · exact (Double.finite.inj h).2
  · cases h

theorem halfEven_mul (q : Nat) {den : Nat} (hden : 0 < den) : halfEven (q * den) den = q :=
  halfEven_eq hden (by omega) (by omega) (fun htie => by omega)

theorem roundUnits_mul {units den : Nat} (hden : 0 < den) (h : Fits units) :
    roundUnits (units * den) den = units := by
  obtain ⟨q, hq⟩ := h
  have hsplit : units * den = q * (den * twoTo (spareBits units)) := by
    calc units * den = twoTo (spareBits units) * q * den := by rw [← hq]
      _ = q * (den * twoTo (spareBits units)) := by
        rw [Nat.mul_assoc, Nat.mul_left_comm, Nat.mul_comm den]
  have hpos : 0 < den * twoTo (spareBits units) := Nat.mul_pos hden (twoTo_pos _)
  rw [roundUnits, Nat.mul_div_cancel units hden, hsplit, halfEven_mul q hpos, Nat.mul_comm, ← hq]

theorem lt_ceiling {units : Nat} (h : units < tenTo 15 * scale) : units < ceiling := by
  have hceiling : ceiling = twoTo 1024 * scale := by
    rw [scale, ← twoTo_add]
    rfl
  have hmost : tenTo 15 ≤ twoTo 1024 :=
    Nat.le_trans (show tenTo 15 ≤ twoTo 50 by decide) (twoTo_le (by decide))
  rw [hceiling]
  exact Nat.lt_of_lt_of_le h (Nat.mul_le_mul_right scale hmost)

end Double

end StrategyDesk
