import StrategyDesk.Proofs.PrintedNumbers
import StrategyDesk.Store.Assigning

set_option autoImplicit false

namespace StrategyDesk

namespace Double

/-! ### Exact values -/

def value? : Double → Option ℚ
  | .finite negative units => some (signed negative units / scale)
  | _ => none

theorem most_lt_twoTo {k : Nat} (h : 1094 ≤ k) : 1000000 * scale < twoTo k := by
  have hbound : twoTo 1094 = 1048576 * scale := by
    rw [scale, show (1094 : Nat) = 20 + 1074 by rfl, twoTo_add, show twoTo 20 = 1048576 by rfl]
  have hpos := scale_pos
  have hle := twoTo_le h
  omega

theorem spareBits_le {units : Nat} (h : units ≤ 1000000 * scale) : spareBits units ≤ 1041 :=
  spareBits_le_of_lt (Nat.lt_of_le_of_lt h (most_lt_twoTo (k := 1041 + 53) (Nat.le_refl _)))

theorem lt_tenTo {units : Nat} (h : units ≤ 1000000 * scale) : units < tenTo 15 * scale :=
  Nat.lt_of_le_of_lt h (Nat.mul_lt_mul_of_pos_right (by decide) scale_pos)

theorem ofRatio_eq {num den units : Nat} (hround : roundUnits (scale * num) den = units)
    (h : units ≤ 1000000 * scale) : ofRatio false num den = .finite false units := by
  rw [ofRatio, hround, ofUnits, if_pos (lt_ceiling (lt_tenTo h))]

theorem twoTo_dvd_scale {k : Nat} (h : k ≤ 1041) : twoTo k ∣ scale :=
  twoTo_dvd (Nat.le_trans h (by decide))

theorem roundUnits_whole {n den : Nat} (hden : 0 < den) (h : n ≤ 1000000) :
    roundUnits (scale * (n * den)) den = n * scale := by
  have hle : n * scale ≤ 1000000 * scale := Nat.mul_le_mul_right scale h
  have hspare : twoTo (spareBits (n * scale)) ∣ n * scale :=
    Nat.dvd_trans (twoTo_dvd_scale (spareBits_le hle)) (Nat.dvd_mul_left scale n)
  rw [← Nat.mul_assoc, Nat.mul_comm scale n]
  exact roundUnits_mul hden hspare

theorem ofInt_natCast {n : Nat} (h : n ≤ 1000000) : ofInt n = .finite false (n * scale) := by
  have hsign : decide ((n : Int) < 0) = false := decide_eq_false (by omega)
  have hround := roundUnits_whole Nat.one_pos h
  rw [Nat.mul_one] at hround
  rw [ofInt, hsign, Int.natAbs_natCast]
  exact ofRatio_eq hround (Nat.mul_le_mul_right scale h)

end Double

/-! ### Rounding to millionths and back -/

namespace Double

/-- Half the distance of neighbouring values up to the largest limit. -/
def step : Nat := twoTo 1040

theorem scale_eq_step : scale = 17179869184 * step := by
  rw [scale, step, show (1074 : Nat) = 34 + 1040 by rfl, twoTo_add,
    show twoTo 34 = 17179869184 by rfl]

theorem roundUnits_near {m : Nat} (hm : m ≤ 1000000000000) :
    let units := roundUnits (scale * m) 1000000
    units * 1000000 ≤ scale * m + 1000000 * step ∧
      scale * m ≤ units * 1000000 + 1000000 * step := by
  intro units
  have hle : scale * m / 1000000 ≤ 1000000 * scale := by
    have := Nat.mul_le_mul_left scale hm
    omega
  have hspare := spareBits_le hle
  have hgap : twoTo (spareBits (scale * m / 1000000)) ≤ 2 * step := by
    rw [step, ← twoTo_succ]
    exact twoTo_le hspare
  have hpos := twoTo_pos (spareBits (scale * m / 1000000))
  obtain ⟨hlow, hhigh⟩ := halfEven_near (scale * m)
    (1000000 * twoTo (spareBits (scale * m / 1000000))) (Nat.mul_pos (by decide) hpos)
  have hunits : halfEven (scale * m) (1000000 * twoTo (spareBits (scale * m / 1000000))) *
      (1000000 * twoTo (spareBits (scale * m / 1000000))) = units * 1000000 := by
    rw [Nat.mul_left_comm, Nat.mul_comm 1000000]
    rfl
  rw [hunits] at hlow hhigh
  omega

theorem roundUnits_bounds {m : Nat} (hlow : 1000000 ≤ m) (hhigh : m ≤ 1000000000000) :
    scale ≤ roundUnits (scale * m) 1000000 ∧ roundUnits (scale * m) 1000000 ≤ 1000000 * scale := by
  have hone : roundUnits (scale * 1000000) 1000000 = scale := by
    have := @roundUnits_whole 1 1000000 (by decide) (by decide)
    rwa [Nat.one_mul, Nat.one_mul] at this
  have hmost : roundUnits (scale * 1000000000000) 1000000 = 1000000 * scale := by
    have := @roundUnits_whole 1000000 1000000 (by decide) (by decide)
    rwa [show 1000000 * 1000000 = 1000000000000 by rfl] at this
  have hpos := scale_pos
  obtain ⟨hle, hge⟩ := roundUnits_near hhigh
  have hstep := scale_eq_step
  -- The bounds are kept as they are; every other count is too far from them to be led across.
  by_cases hleast : m = 1000000
  · subst hleast
    rw [hone]
    omega
  · by_cases hmax : m = 1000000000000
    · subst hmax
      rw [hmost]
      omega
    · have hfrom := Nat.mul_le_mul_left scale (show 1000001 ≤ m by omega)
      have hto := Nat.mul_le_mul_left scale (show m ≤ 999999999999 by omega)
      omega

theorem millionths_roundUnits {m : Nat} (hhigh : m ≤ 1000000000000) :
    nearestParts (roundUnits (scale * m) 1000000) 1000000 = m := by
  obtain ⟨hle, hge⟩ := roundUnits_near hhigh
  have hstep := scale_eq_step
  have hpos := scale_pos
  rw [nearestParts]
  have hcomm : m * scale = scale * m := Nat.mul_comm _ _
  exact halfEven_eq scale_pos (by omega) (by omega) (fun htie => by omega)

end Double

namespace Limit
open Json

def value? : Json → Option ℚ
  | .int n => some n
  | .double d => d.value?
  | _ => none

/-- A limit that is taken from a request, and what is kept of it. -/
structure Takes (j : Json) (d : Double) : Prop where
  inRange : Limit.inRange j = .ok true
  amount : Limit.amount j = .ok d

theorem Takes.units {j : Json} {d : Double} (h : Takes j d) :
    ∃ units : Nat, d = .finite false units ∧ value? j = some ((units : ℚ) / Double.scale) ∧
      Double.scale ≤ units ∧ units ≤ 1000000 * Double.scale := by
  obtain ⟨hrange, hamount⟩ := h
  have hscale : (Double.scale : ℚ) ≠ 0 := by exact_mod_cast Nat.ne_of_gt Double.scale_pos
  cases j with
  | int n =>
    obtain ⟨hlow, hhigh⟩ := of_decide_eq_true (Except.ok.inj hrange)
    obtain ⟨k, rfl⟩ := Int.eq_ofNat_of_zero_le (show 0 ≤ n by omega)
    have hlow' : 1 ≤ k := by exact_mod_cast hlow
    have hhigh' : k ≤ 1000000 := by exact_mod_cast hhigh
    refine ⟨k * Double.scale, ?_, ?_, ?_, Nat.mul_le_mul_right _ hhigh'⟩
    · exact (Except.ok.inj hamount).symm.trans (Double.ofInt_natCast hhigh')
    · rw [value?, Nat.cast_mul, mul_div_cancel_right₀ _ hscale]
      rfl
    · exact Nat.le_mul_of_pos_left _ hlow'
  | double e =>
    cases hamount
    obtain ⟨hlow, hhigh⟩ := Bool.and_eq_true_iff.1 (Except.ok.inj hrange)
    rw [least, Double.ofInt_natCast (by decide), Nat.one_mul] at hlow
    rw [most, Double.ofInt_natCast (Nat.le_refl _)] at hhigh
    cases d with
    | finite negative units =>
      have hlow' : (Double.scale : Int) ≤ Double.signed negative units := of_decide_eq_true hlow
      have hhigh' : Double.signed negative units ≤ (1000000 * Double.scale : Nat) :=
        of_decide_eq_true hhigh
      have hpos := Double.scale_pos
      cases negative with
      | true =>
        rw [Double.signed, if_pos rfl] at hlow'
        omega
      | false =>
        rw [Double.signed, if_neg Bool.false_ne_true] at hlow' hhigh'
        exact ⟨units, rfl, rfl, by exact_mod_cast hlow', by exact_mod_cast hhigh'⟩
    | infinite negative =>
      cases negative with
      | true => cases hlow
      | false => cases hhigh
    | nan => cases hlow
  | bool => cases hamount
  | _ => cases hrange

/-- Whether a number is one that a text can be read as: a double has at most 53 bits. -/
def IsBinary (j : Json) : Prop :=
  ∀ negative units, j = .double (.finite negative units) → Double.Fits units

theorem isBinary_ofRatio (negative : Bool) (num den : Nat) :
    IsBinary (.double (.ofRatio negative num den)) := by
  intro sign units heq
  rw [← Double.eq_of_ofUnits (Json.double.inj heq)]
  exact Double.fits_roundUnits _ den

theorem Takes.wideDouble?_spoken {j : Json} {d : Double} (h : Takes j d) (hbinary : IsBinary j) :
    Numeral.wideDouble? j.spoken = some d := by
  cases j with
  | int n =>
    obtain ⟨hlow, -⟩ := of_decide_eq_true (Except.ok.inj h.inRange)
    have hpos : 0 < n := Int.lt_of_lt_of_le (by decide) hlow
    rw [spoken_int, ← Except.ok.inj h.amount]
    exact Double.wideDouble?_toString hpos
  | double e =>
    obtain ⟨units, rfl, -, hlow, hhigh⟩ := h.units
    cases h.amount
    rw [spoken_double]
    exact Double.wideDouble?_text (hbinary false units rfl) hlow (Double.lt_tenTo hhigh)
  | bool => cases h.amount
  | _ => cases h.inRange

theorem exists_takes {j : Json} {x : ℚ} (h : value? j = some x) (hlow : 1 ≤ x)
    (hhigh : x ≤ 1000000) : ∃ d, Takes j d := by
  have hscale : (0 : ℚ) < Double.scale := by exact_mod_cast Double.scale_pos
  cases j with
  | int n =>
    cases h
    have hlow' : 1 ≤ n := by exact_mod_cast hlow
    have hhigh' : n ≤ 1000000 := by exact_mod_cast hhigh
    exact ⟨.ofInt n, congrArg Except.ok (decide_eq_true ⟨hlow', hhigh'⟩), rfl⟩
  | double d =>
    cases d with
    | finite negative units =>
      cases h
      rw [le_div_iff₀ hscale, one_mul] at hlow
      rw [div_le_iff₀ hscale] at hhigh
      have hlow' : (Double.scale : Int) ≤ Double.signed negative units := by exact_mod_cast hlow
      have hhigh' : Double.signed negative units ≤ (1000000 * Double.scale : Nat) := by
        exact_mod_cast hhigh
      refine ⟨.finite negative units, ?_, rfl⟩
      rw [inRange, least, most, Double.ofInt_natCast (by decide),
        Double.ofInt_natCast (Nat.le_refl _), Nat.one_mul]
      exact congrArg Except.ok
        (Bool.and_eq_true_iff.2 ⟨decide_eq_true hlow', decide_eq_true hhigh'⟩)
    | _ => cases h
  | _ => cases h

/-- A value is as many millionths, rounded half to even. -/
def RoundsTo (x : ℚ) (m : ℕ) : Prop := NearestEven (x * 1000000) m

namespace RoundsTo

variable {x y : ℚ} {m n : ℕ}

theorem near (h : RoundsTo x m) : |(m : ℚ) / 1000000 - x| ≤ 1 / 2000000 := by
  obtain ⟨hlow, hhigh⟩ := abs_le.1 (NearestEven.near h)
  exact abs_le.2 ⟨by linarith, by linarith⟩

theorem mono (hm : RoundsTo x m) (hn : RoundsTo y n) (h : x ≤ y) : m ≤ n :=
  NearestEven.mono hm hn (by linarith)

theorem bounds (h : RoundsTo x m) (hlow : 1 ≤ x) (hhigh : x ≤ 1000000) :
    1000000 ≤ m ∧ m ≤ 1000000000000 := by
  have hleast : RoundsTo 1 1000000 := by
    rw [RoundsTo, one_mul]
    exact_mod_cast nearestEven_natCast 1000000
  have hmost : RoundsTo 1000000 1000000000000 := by
    have hvalue : (1000000 : ℚ) * 1000000 = (1000000000000 : ℕ) := by norm_num
    rw [RoundsTo, hvalue]
    exact nearestEven_natCast _
  exact ⟨hleast.mono h hlow, h.mono hmost hhigh⟩

end RoundsTo

theorem roundsTo_units (units : Nat) :
    RoundsTo ((units : ℚ) / Double.scale) (Double.nearestParts units 1000000) := by
  have hnear := Double.nearestEven_halfEven (units * 1000000) Double.scale_pos
  rw [Nat.cast_mul, mul_div_right_comm] at hnear
  exact_mod_cast hnear

theorem Takes.roundsTo {j : Json} {d : Double} (h : Takes j d) :
    ∃ x, value? j = some x ∧ 1 ≤ x ∧ x ≤ 1000000 ∧ RoundsTo x (millionths d) := by
  obtain ⟨units, rfl, hexact, hlow, hhigh⟩ := h.units
  have hscale : (0 : ℚ) < Double.scale := by exact_mod_cast Double.scale_pos
  refine ⟨_, hexact, ?_, ?_, roundsTo_units units⟩
  · rw [le_div_iff₀ hscale, one_mul]
    exact_mod_cast hlow
  · rw [div_le_iff₀ hscale]
    exact_mod_cast hhigh

theorem Takes.bounds {j : Json} {d : Double} (h : Takes j d) :
    1000000 ≤ millionths d ∧ millionths d ≤ 1000000000000 := by
  obtain ⟨x, -, hlow, hhigh, hrounds⟩ := h.roundsTo
  exact hrounds.bounds hlow hhigh

theorem millionths_eq {d : Double} {y : ℚ} {m : ℕ} (hexact : d.value? = some y) (hlow : 1 ≤ y)
    (hhigh : y ≤ 1000000) (h : RoundsTo y m) : millionths d = m := by
  obtain ⟨c, htakes⟩ := exists_takes (j := .double d) hexact hlow hhigh
  obtain ⟨x, hx, -, -, hback⟩ := htakes.roundsTo
  cases htakes.amount
  cases hexact.symm.trans hx
  exact hback.unique h

theorem wideDouble?_fixedText {m : ℕ} (hlow : 1000000 ≤ m) :
    Numeral.wideDouble? (Double.fixedText 6 m) = some (.ofRatio false m 1000000) :=
  Double.wideDouble?_fixedText (Nat.lt_of_lt_of_le (by decide) hlow) (by decide) (by decide)

/-- The double for a count of millionths between the bounds: it is within the bounds as well, and
closer to the count than any other count is to it. -/
theorem sent_spec {m : ℕ} (hlow : 1000000 ≤ m) (hhigh : m ≤ 1000000000000) :
    ∃ y, (Double.ofRatio false m 1000000).value? = some y ∧ 1 ≤ y ∧ y ≤ 1000000 ∧
      |y - m / 1000000| ≤ 1 / 2 ^ 34 ∧ RoundsTo y m := by
  have hscale : (0 : ℚ) < Double.scale := by exact_mod_cast Double.scale_pos
  obtain ⟨hleast, hmost⟩ := Double.roundUnits_bounds hlow hhigh
  have hratio := Double.ofRatio_eq rfl hmost
  have hback := Double.millionths_roundUnits hhigh
  obtain ⟨hle, hge⟩ := Double.roundUnits_near hhigh
  generalize Double.roundUnits (Double.scale * m) 1000000 = units at *
  refine ⟨(units : ℚ) / Double.scale, by rw [hratio]; rfl, ?_, ?_, ?_, ?_⟩
  · rw [le_div_iff₀ hscale, one_mul]
    exact_mod_cast hleast
  · rw [div_le_iff₀ hscale]
    exact_mod_cast hmost
  · have hle' : (units * 1000000 : ℚ) ≤ Double.scale * m + 1000000 * Double.step := by
      exact_mod_cast hle
    have hge' : (Double.scale * m : ℚ) ≤ units * 1000000 + 1000000 * Double.step := by
      exact_mod_cast hge
    have hstep : (Double.scale : ℚ) = 17179869184 * Double.step := by
      exact_mod_cast Double.scale_eq_step
    have hcancel : (units : ℚ) / Double.scale * Double.scale = units :=
      div_mul_cancel₀ _ hscale.ne'
    refine abs_le.2 ⟨le_of_mul_le_mul_right ?_ hscale, le_of_mul_le_mul_right ?_ hscale⟩
    · rw [sub_mul, hcancel]
      linarith
    · rw [sub_mul, hcancel]
      linarith
  · have := roundsTo_units units
    rwa [hback] at this

theorem millionths_ofRatio {m : ℕ} (hlow : 1000000 ≤ m) (hhigh : m ≤ 1000000000000) :
    millionths (.ofRatio false m 1000000) = m := by
  obtain ⟨y, hexact, hleast, hmost, -, hrounds⟩ := sent_spec hlow hhigh
  exact millionths_eq hexact hleast hmost hrounds

end Limit

end StrategyDesk
