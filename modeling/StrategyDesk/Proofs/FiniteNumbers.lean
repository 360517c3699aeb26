import StrategyDesk.Form.Check

set_option autoImplicit false

namespace StrategyDesk.Double

theorem twoTo_add (m n : Nat) : twoTo (m + n) = twoTo m * twoTo n := Nat.pow_add 2 m n

theorem twoTo_le {m n : Nat} (h : m ≤ n) : twoTo m ≤ twoTo n := Nat.pow_le_pow_right (by decide) h

theorem div_le_halfEven (num den : Nat) : num / den ≤ halfEven num den := by
  unfold halfEven
  dsimp only
  split <;> omega

theorem halfEven_lt_iff {num p : Nat} (h : num < twoTo (p + 54)) :
    halfEven num (twoTo (p + 1)) < twoTo 53 ↔ num < twoTo (p + 54) - twoTo p := by
  have hden : twoTo (p + 1) = 2 * twoTo p := twoTo_succ p
  have hwhole : twoTo (p + 54) = twoTo (p + 1) * twoTo 53 := by
    rw [← twoTo_add, show p + 54 = p + 1 + 53 by omega]
  have hmod := Nat.mod_lt num (twoTo_pos (p + 1))
  have hdiv := Nat.div_add_mod num (twoTo (p + 1))
  have hq : num / twoTo (p + 1) < twoTo 53 := by
    rw [Nat.div_lt_iff_lt_mul (twoTo_pos (p + 1)), Nat.mul_comm, ← hwhole]
    exact h
  have hbits : twoTo 53 = 9007199254740992 := rfl
  unfold halfEven
  dsimp only
  generalize num / twoTo (p + 1) = q at *
  generalize num % twoTo (p + 1) = r at *
  rw [hbits] at hwhole hq ⊢
  rw [hden] at hwhole hmod hdiv ⊢
  by_cases hlast : q = 9007199254740991
  · subst hlast
    split <;> omega
  · have hbelow : 2 * twoTo p * (q + 1) ≤ 2 * twoTo p * 9007199254740991 :=
      Nat.mul_le_mul_left _ (by omega)
    rw [Nat.mul_add] at hbelow
    split <;> omega

theorem roundUnits_one (num : Nat) :
    roundUnits num 1 = halfEven num (twoTo (spareBits num)) * twoTo (spareBits num) := by
  rw [roundUnits, Nat.div_one, Nat.one_mul]

theorem roundUnits_lt_iff {num p : Nat} :
    roundUnits num 1 < twoTo (p + 54) ↔ num < twoTo (p + 54) - twoTo p := by
  have hhalf : twoTo (p + 54) = 2 * twoTo (p + 53) := twoTo_succ (p + 53)
  have hlow : twoTo p ≤ twoTo (p + 53) := twoTo_le (by omega)
  rw [roundUnits_one]
  by_cases hzero : num = 0
  · subst hzero
    have hpos := twoTo_pos p
    have hround : halfEven 0 (twoTo (spareBits 0)) = 0 := by decide
    rw [hround]
    omega
  · have hle : twoTo num.log2 ≤ num := Nat.log2_self_le hzero
    rcases Nat.lt_trichotomy num.log2 (p + 53) with hbits | hbits | hbits
    · -- Rounding adds at most half of what the spare bits are worth.
      have hnum : num < twoTo (p + 53) := (Nat.log2_lt hzero).1 hbits
      have hnear := (halfEven_near num (twoTo (spareBits num)) (twoTo_pos _)).2
      have hspare : twoTo (spareBits num) ≤ twoTo p := twoTo_le (by unfold spareBits; omega)
      omega
    · have hnum : num < twoTo (p + 54) := (Nat.log2_lt hzero).1 (by omega)
      have hspare : spareBits num = p + 1 := by
        unfold spareBits
        omega
      rw [hspare, ← halfEven_lt_iff hnum, show p + 54 = 53 + (p + 1) by omega, twoTo_add 53]
      exact Nat.mul_lt_mul_right (twoTo_pos _)
    · -- What is left of a larger number still has all its bits.
      have hspare : num.log2 = 52 + spareBits num := by
        unfold spareBits
        omega
      have hdiv : twoTo 52 ≤ num / twoTo (spareBits num) := by
        rw [Nat.le_div_iff_mul_le (twoTo_pos _), ← twoTo_add, ← hspare]
        exact hle
      have hround := Nat.mul_le_mul_right (twoTo (spareBits num))
        (Nat.le_trans hdiv (div_le_halfEven num (twoTo (spareBits num))))
      rw [← twoTo_add, ← hspare] at hround
      have hbeyond : twoTo (p + 54) ≤ twoTo num.log2 := twoTo_le (by omega)
      omega

/-- The first size from which on a whole number has no finite double. -/
def firstVast : Nat := twoTo 1024 - twoTo 970

theorem isSome_ofInt?_iff {n : Int} : (ofInt? n).isSome = true ↔ n.natAbs < firstVast := by
  have hscale : scale * firstVast = twoTo (2044 + 54) - twoTo 2044 := by
    rw [firstVast, scale, Nat.mul_sub, ← twoTo_add, ← twoTo_add]
  have hround : roundUnits (scale * n.natAbs) 1 < ceiling ↔ n.natAbs < firstVast := by
    rw [ceiling, show (2098 : Nat) = 2044 + 54 by rfl, roundUnits_lt_iff, ← hscale]
    exact Nat.mul_lt_mul_left (twoTo_pos 1074)
  rw [← hround, ofInt?, ofInt, ofRatio, ofUnits]
  split <;> simp_all [isFinite]

theorem twoTo_le_roundUnits {num k : Nat} (h : twoTo k ≤ num) : twoTo k ≤ roundUnits num 1 := by
  have hpos : num ≠ 0 := Nat.ne_of_gt (Nat.lt_of_lt_of_le (twoTo_pos k) h)
  have hround := Nat.mul_le_mul_right (twoTo (spareBits num))
    (div_le_halfEven num (twoTo (spareBits num)))
  rw [roundUnits_one]
  refine Nat.le_trans ?_ hround
  rcases Nat.le_total (spareBits num) k with hspare | hspare
  · have hsplit : twoTo k = twoTo (k - spareBits num) * twoTo (spareBits num) := by
      rw [← twoTo_add, Nat.sub_add_cancel hspare]
    rw [hsplit]
    refine Nat.mul_le_mul_right _ ((Nat.le_div_iff_mul_le (twoTo_pos _)).2 ?_)
    rwa [← hsplit]
  · have hbits : twoTo (spareBits num) ≤ num :=
      Nat.le_trans (twoTo_le (Nat.sub_le _ _)) (Nat.log2_self_le hpos)
    have hone : 1 ≤ num / twoTo (spareBits num) := (Nat.one_le_div_iff (twoTo_pos _)).2 hbits
    calc twoTo k ≤ 1 * twoTo (spareBits num) := by rw [Nat.one_mul]; exact twoTo_le hspare
      _ ≤ num / twoTo (spareBits num) * twoTo (spareBits num) := Nat.mul_le_mul_right _ hone

theorem exists_ofInt?_of_pos {n : Int} (hn : n.natAbs < firstVast) (hpos : 0 < n) :
    ∃ units, ofInt? n = some (.finite false units) ∧ scale ≤ units := by
  have hsome := isSome_ofInt?_iff.2 hn
  have hsign : decide (n < 0) = false := by
    rw [decide_eq_false_iff_not]
    omega
  have hlarge : twoTo 1074 ≤ scale * n.natAbs := by
    have hone : 1 ≤ n.natAbs := by omega
    exact Nat.le_mul_of_pos_right _ hone
  refine ⟨roundUnits (scale * n.natAbs) 1, ?_, twoTo_le_roundUnits hlarge⟩
  unfold ofInt? ofInt ofRatio ofUnits at hsome ⊢
  rw [hsign] at hsome ⊢
  split at hsome
  · rename_i hlt
    simp only [if_pos hlt, isFinite, if_true]
  · cases hsome

theorem one_le_finite {s : Bool} {units : Nat} :
    one.le (.finite s units) = true ↔ (scale : Int) ≤ signed s units :=
  decide_eq_true_iff

theorem zero_lt_finite {s : Bool} {units : Nat} :
    zero.lt (.finite s units) = true ↔ 0 < signed s units := by
  have hlt : zero.lt (.finite s units) =
      (decide (0 ≤ signed s units) && !decide (signed s units ≤ 0)) := rfl
  rw [hlt]
  simp only [Bool.and_eq_true, Bool.not_eq_true', decide_eq_true_eq, decide_eq_false_iff_not]
  omega

end StrategyDesk.Double
