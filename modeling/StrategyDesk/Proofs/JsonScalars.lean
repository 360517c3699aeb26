import StrategyDesk.Json.Reader
import StrategyDesk.Proofs.Trimming

set_option autoImplicit false

namespace StrategyDesk.Json
open Text

def bare {α : Type} {s : List CodePoint} (x : Except ReadError (α × Rest s)) :
    Except ReadError (α × List CodePoint) := x.map fun r => (r.1, r.2.1)

theorem map_eq_ok_iff {α β : Type} {x : Except ReadError α} {f : α → β} {y : β} :
    x.map f = .ok y ↔ ∃ a, x = .ok a ∧ f a = y := by
  cases x <;> simp [Except.map]

theorem map_eq_error_iff {α β : Type} {x : Except ReadError α} {f : α → β} {e : ReadError} :
    x.map f = .error e ↔ x = .error e := by
  cases x <;> simp [Except.map]

def Ends (rest : List CodePoint) : Prop :=
  ∀ c, rest.head? = some c → isGap c = true ∨ c = ',' ∨ c = ']' ∨ c = '}'

/-! ### Numerals -/

def IsDigits (ds : List CodePoint) : Prop := ds ≠ [] ∧ ∀ d ∈ ds, isAsciiDigit d = true

inductive IsWhole : List CodePoint → Prop where
  | zero : IsWhole ['0']
  | digits {ds : List CodePoint} (h : IsDigits ds) (hzero : ds.head? ≠ some '0') : IsWhole ds

inductive Fraction : List CodePoint → List CodePoint → Prop where
  | absent : Fraction [] []
  | digits {ds : List CodePoint} (h : IsDigits ds) : Fraction ('.' :: ds) ds

inductive Signed : List CodePoint → Int → Prop where
  | plain {ds : List CodePoint} (h : IsDigits ds) : Signed ds (digitsValue ds)
  | plus {ds : List CodePoint} (h : IsDigits ds) : Signed ('+' :: ds) (digitsValue ds)
  | minus {ds : List CodePoint} (h : IsDigits ds) : Signed ('-' :: ds) (-digitsValue ds)

inductive Exponent : List CodePoint → Option Int → Prop where
  | absent : Exponent [] none
  | marked {c : CodePoint} {s : List CodePoint} {n : Int} (hc : c = 'e' ∨ c = 'E')
      (h : Signed s n) :
    Exponent (c :: s) (some n)

/-- A numeral without its sign. Whole numbers have a bounded number of digits. -/
inductive Unsigned (negative : Bool) : List CodePoint → Json → Prop where
  | whole {w : List CodePoint} (h : IsWhole w) (hlen : w.length ≤ maxIntDigits) :
    Unsigned negative w (.int (if negative then -digitsValue w else digitsValue w))
  | broken {w f e ds : List CodePoint} {x : Option Int} (h : IsWhole w) (hf : Fraction f ds)
    (he : Exponent e x) (hbroken : ¬ (ds = [] ∧ x = none)) :
    Unsigned negative (w ++ (f ++ e)) (.double
      (Decimal.toDouble ⟨negative, digitsValue (w ++ ds), x.getD 0 - ds.length⟩))

/-- The fixed words; the last three are no words of the standard. -/
inductive Word : List CodePoint → Json → Prop where
  | null : Word ['n', 'u', 'l', 'l'] .null
  | trueWord : Word ['t', 'r', 'u', 'e'] (.bool true)
  | falseWord : Word ['f', 'a', 'l', 's', 'e'] (.bool false)
  | nan : Word ['N', 'a', 'N'] (.double .nan)
  | infinity : Word ['I', 'n', 'f', 'i', 'n', 'i', 't', 'y'] (.double (.infinite false))
  | minusInfinity :
    Word ['-', 'I', 'n', 'f', 'i', 'n', 'i', 't', 'y'] (.double (.infinite true))

/-- A value that is no string, array or object. -/
inductive Scalar : List CodePoint → Json → Prop where
  | word {w : List CodePoint} {v : Json} (h : Word w v) : Scalar w v
  | positive {t : List CodePoint} {v : Json} (h : Unsigned false t v) : Scalar t v
  | negative {t : List CodePoint} {v : Json} (h : Unsigned true t v) : Scalar ('-' :: t) v

theorem isDigits_takeWhile {c : CodePoint} (h : isAsciiDigit c = true) (s : List CodePoint) :
    IsDigits ((c :: s).takeWhile isAsciiDigit) := by
  refine ⟨by simp [h], fun d hd => List.mem_takeWhile_imp hd⟩

theorem IsDigits.exists_cons {ds : List CodePoint} (h : IsDigits ds) :
    ∃ c cs, ds = c :: cs ∧ isAsciiDigit c = true := by
  obtain ⟨hne, hds⟩ := h
  obtain ⟨c, cs, rfl⟩ := List.exists_cons_of_ne_nil hne
  exact ⟨c, cs, rfl, hds c List.mem_cons_self⟩

theorem fractionPart_append {f ds rest : List CodePoint} (h : Fraction f ds)
    (hrest : StartsOutside isAsciiDigit rest) (hpoint : rest.head? ≠ some '.') :
    fractionPart (f ++ rest) = (ds, rest) := by
  cases h with
  | absent =>
    rw [List.nil_append]
    unfold fractionPart
    split
    · exact absurd rfl hpoint
    · rfl
  | digits h =>
    obtain ⟨d, ds, rfl, hd⟩ := h.exists_cons
    have htake := hrest.takeWhile_append h.2
    have hdrop := hrest.dropWhile_append h.2
    simp only [List.cons_append] at htake hdrop
    simp only [List.cons_append, fractionPart, hd, if_true, htake, hdrop]

theorem exists_fraction (s : List CodePoint) :
    ∃ f ds rest, fractionPart s = (ds, rest) ∧ s = f ++ rest ∧ Fraction f ds := by
  unfold fractionPart
  split
  · rename_i d r
    split
    · rename_i hd
      refine ⟨'.' :: (d :: r).takeWhile isAsciiDigit, _, _, rfl, ?_,
        .digits (isDigits_takeWhile hd r)⟩
      rw [List.cons_append, List.takeWhile_append_dropWhile]
    · exact ⟨[], _, _, rfl, rfl, .absent⟩
  · exact ⟨[], _, _, rfl, rfl, .absent⟩

theorem signedDigits_append {s rest : List CodePoint} {n : Int} (h : Signed s n)
    (hrest : StartsOutside isAsciiDigit rest) : signedDigits (s ++ rest) = some (n, rest) := by
  have hdigits {ds : List CodePoint} (h : IsDigits ds) :
      (ds ++ rest).takeWhile isAsciiDigit = ds ∧ (ds ++ rest).dropWhile isAsciiDigit = rest :=
    ⟨hrest.takeWhile_append h.2, hrest.dropWhile_append h.2⟩
  cases h with
  | plain h =>
    obtain ⟨d, ds, rfl, hd⟩ := h.exists_cons
    have hminus : d ≠ '-' := by
      rintro rfl
      exact absurd hd (by decide)
    have hplus : d ≠ '+' := by
      rintro rfl
      exact absurd hd (by decide)
    have := hdigits h
    simp_all [signedDigits]
  | plus h =>
    obtain ⟨d, ds, rfl, hd⟩ := h.exists_cons
    have := hdigits h
    simp_all [signedDigits]
  | minus h =>
    obtain ⟨d, ds, rfl, hd⟩ := h.exists_cons
    have := hdigits h
    simp_all [signedDigits]

theorem signed_of_signedDigits {s rest : List CodePoint} {n : Int}
    (h : signedDigits s = some (n, rest)) : ∃ t, s = t ++ rest ∧ Signed t n := by
  have hdigits {t : List CodePoint} (h : t.takeWhile isAsciiDigit ≠ []) :
      IsDigits (t.takeWhile isAsciiDigit) := ⟨h, fun d hd => List.mem_takeWhile_imp hd⟩
  unfold signedDigits at h
  simp only at h
  split at h
  · cases h
  · rename_i hne
    simp only [Option.some.injEq, Prod.mk.injEq] at h
    obtain ⟨rfl, rfl⟩ := h
    split at hne
    · rename_i t
      refine ⟨'-' :: t.takeWhile isAsciiDigit, ?_, .minus (hdigits hne)⟩
      rw [List.cons_append, List.takeWhile_append_dropWhile]
    · rename_i t
      refine ⟨'+' :: t.takeWhile isAsciiDigit, ?_, .plus (hdigits hne)⟩
      rw [List.cons_append, List.takeWhile_append_dropWhile]
    · rename_i t
      refine ⟨s.takeWhile isAsciiDigit, ?_, .plain (hdigits hne)⟩
      rw [List.takeWhile_append_dropWhile]

theorem exponentPart_append {e rest : List CodePoint} {x : Option Int} (h : Exponent e x)
    (hrest : StartsOutside isAsciiDigit rest)
    (hmark : ∀ c, rest.head? = some c → ¬ (c = 'e' ∨ c = 'E')) :
    exponentPart (e ++ rest) = (x, rest) := by
  cases h with
  | absent =>
    rw [List.nil_append]
    cases rest with
    | nil => rfl
    | cons c rest => simp only [exponentPart, if_neg (hmark c rfl)]
  | marked hc h =>
    simp only [List.cons_append, exponentPart, if_pos hc, signedDigits_append h hrest]

theorem exists_exponent (s : List CodePoint) :
    ∃ e x rest, exponentPart s = (x, rest) ∧ s = e ++ rest ∧ Exponent e x := by
  unfold exponentPart
  split
  · rename_i c r
    split
    · rename_i hc
      split
      · rename_i n rest hsigned
        obtain ⟨t, rfl, ht⟩ := signed_of_signedDigits hsigned
        exact ⟨c :: t, _, _, rfl, rfl, .marked hc ht⟩
      · exact ⟨[], _, _, rfl, rfl, .absent⟩
    · exact ⟨[], _, _, rfl, rfl, .absent⟩
  · exact ⟨[], _, _, rfl, rfl, .absent⟩

theorem wholePart_append {w rest : List CodePoint} (h : IsWhole w)
    (hrest : StartsOutside isAsciiDigit rest) :
    ∃ hlen, wholePart (w ++ rest) = some (w, ⟨rest, hlen⟩) := by
  cases h with
  | zero => exact ⟨by simp, rfl⟩
  | digits h hzero =>
    have htake := hrest.takeWhile_append h.2
    have hdrop := hrest.dropWhile_append h.2
    obtain ⟨c, cs, rfl, hc⟩ := h.exists_cons
    have hne : c ≠ '0' := fun h0 => hzero (by rw [h0]; rfl)
    refine ⟨by simp only [List.cons_append, List.length_cons, List.length_append]; omega, ?_⟩
    simp only [List.cons_append] at htake hdrop
    simp only [List.cons_append, wholePart, if_neg hne, dif_pos hc, htake, hdrop]

theorem isWhole_of_wholePart {s w : List CodePoint} {rest : Rest s}
    (h : wholePart s = some (w, rest)) : s = w ++ rest.1 ∧ IsWhole w := by
  unfold wholePart at h
  split at h
  · cases h
  · rename_i c r
    split at h
    · rename_i hc
      cases h
      exact ⟨by rw [hc]; rfl, .zero⟩
    · rename_i hne
      split at h
      · rename_i hc
        cases h
        refine ⟨List.takeWhile_append_dropWhile.symm, .digits (isDigits_takeWhile hc r) ?_⟩
        simpa [hc] using hne
      · cases h

theorem Ends.not_numeral {rest : List CodePoint} (h : Ends rest) : StartsOutside isAsciiDigit rest ∧
    rest.head? ≠ some '.' ∧ ∀ c, rest.head? = some c → ¬ (c = 'e' ∨ c = 'E') := by
  have hclass (c : CodePoint) (hc : rest.head? = some c) :
      isAsciiDigit c = false ∧ c ≠ '.' ∧ ¬ (c = 'e' ∨ c = 'E') := by
    obtain hgap | rfl | rfl | rfl := h c hc
    · simp only [isGap, Bool.or_eq_true, beq_iff_eq] at hgap
      obtain ((rfl | rfl) | rfl) | rfl := hgap <;> decide
    · decide
    · decide
    · decide
  exact ⟨fun c hc => (hclass c hc).1, fun hc => (hclass _ hc).2.1 rfl,
    fun c hc => (hclass c hc).2.2⟩

theorem Fraction.noDigit_append {f ds rest : List CodePoint} (h : Fraction f ds)
    (hrest : StartsOutside isAsciiDigit rest) : StartsOutside isAsciiDigit (f ++ rest) := by
  cases h with
  | absent => exact hrest
  | digits h => exact fun c hc => by cases hc; decide

theorem Exponent.not_fraction {e rest : List CodePoint} {x : Option Int} (h : Exponent e x)
    (hrest : Ends rest) :
    StartsOutside isAsciiDigit (e ++ rest) ∧ (e ++ rest).head? ≠ some '.' := by
  cases h with
  | absent => exact ⟨hrest.not_numeral.1, hrest.not_numeral.2.1⟩
  | marked hc h =>
    obtain rfl | rfl := hc <;> exact ⟨fun c hc => by cases hc; decide, by simp⟩

theorem unsignedNumber_eq (negative : Bool) {s w ds r₁ r₂ : List CodePoint} {x : Option Int}
    {rest : Rest s} (hwhole : wholePart s = some (w, rest)) (hfrac : fractionPart rest.1 = (ds, r₁))
    (hexpo : exponentPart r₁ = (x, r₂)) : (unsignedNumber negative s).map bare =
      some (if ds = [] ∧ x = none then
        if w.length > maxIntDigits then .error .longNumeral
        else .ok (.int (if negative then -digitsValue w else digitsValue w), r₂)
      else .ok (.double (Decimal.toDouble
        ⟨negative, digitsValue (w ++ ds), x.getD 0 - ds.length⟩), r₂)) := by
  unfold unsignedNumber
  simp only [hwhole, hfrac, hexpo]
  split
  · split <;> rfl
  · rfl

theorem unsignedNumber_append {negative : Bool} {t rest : List CodePoint} {v : Json}
    (h : Unsigned negative t v) (hrest : Ends rest) :
    (unsignedNumber negative (t ++ rest)).map bare = some (.ok (v, rest)) := by
  obtain ⟨hdigit, hpoint, hmark⟩ := hrest.not_numeral
  cases h with
  | whole h hlen =>
    obtain ⟨hshort, hwhole⟩ := wholePart_append h hdigit
    have hfrac := fractionPart_append .absent hdigit hpoint
    have hexpo := exponentPart_append .absent hdigit hmark
    rw [unsignedNumber_eq negative hwhole hfrac hexpo, if_pos ⟨rfl, rfl⟩,
      if_neg (Nat.not_lt.2 hlen)]
  | broken h hf he hbroken =>
    obtain ⟨hnext, hnopoint⟩ := he.not_fraction hrest
    obtain ⟨hshort, hwhole⟩ := wholePart_append h (hf.noDigit_append hnext)
    have hfrac := fractionPart_append hf hnext hnopoint
    have hexpo := exponentPart_append he hdigit hmark
    rw [List.append_assoc, List.append_assoc, unsignedNumber_eq negative hwhole hfrac hexpo,
      if_neg hbroken]

theorem unsigned_of_unsignedNumber {negative : Bool} {s rest : List CodePoint} {v : Json}
    (h : (unsignedNumber negative s).map bare = some (.ok (v, rest))) :
    ∃ t, s = t ++ rest ∧ Unsigned negative t v := by
  cases hwhole : wholePart s with
  | none => simp [unsignedNumber, hwhole] at h
  | some part =>
    obtain ⟨w, left⟩ := part
    obtain ⟨hs, hw⟩ := isWhole_of_wholePart hwhole
    obtain ⟨f, ds, r, hfrac, hf, hfraction⟩ := exists_fraction left.1
    obtain ⟨e, x, r', hexpo, he, hexponent⟩ := exists_exponent r
    rw [unsignedNumber_eq negative hwhole hfrac hexpo] at h
    rw [hs, hf, he]
    split at h
    · rename_i hplain
      obtain ⟨rfl, rfl⟩ := hplain
      split at h
      · cases h
      · rename_i hlen
        cases h
        cases hexponent
        cases hfraction with
        | absent => exact ⟨w, rfl, .whole hw (Nat.not_lt.1 hlen)⟩
        | digits h => exact absurd rfl h.1
    · rename_i hbroken
      cases h
      refine ⟨w ++ (f ++ e), ?_, .broken hw hfraction hexponent hbroken⟩
      simp only [List.append_assoc]

theorem unsignedNumber_ne_tooDeep (negative : Bool) (s : List CodePoint) :
    (unsignedNumber negative s).map bare ≠ some (.error .tooDeep) := by
  cases hwhole : wholePart s with
  | none => simp [unsignedNumber, hwhole]
  | some part =>
    obtain ⟨w, left⟩ := part
    obtain ⟨f, ds, r, hfrac, -, -⟩ := exists_fraction left.1
    obtain ⟨e, x, r', hexpo, -, -⟩ := exists_exponent r
    rw [unsignedNumber_eq negative hwhole hfrac hexpo]
    split
    · split <;> exact fun h => nomatch h
    · exact fun h => nomatch h

/-! ### Fixed words -/

theorem word?_cases (s w : List CodePoint) (v : Json) (hw : w ≠ []) :
    (dropPrefix? s w = none ∧ word? s w v hw = none) ∨
      ∃ rest, s = w ++ rest ∧ ∃ hlen, word? s w v hw = some (v, ⟨rest, hlen⟩) := by
  unfold word?
  split
  · exact Or.inl ⟨‹_›, rfl⟩
  · rename_i rest hsome
    have hs := eq_append_of_dropPrefix? hsome
    have hlen : rest.length < s.length := by
      have := List.length_pos_iff.2 hw
      simp only [hs, List.length_append]
      omega
    exact Or.inr ⟨rest, hs, hlen, rfl⟩

def numeral (s : List CodePoint) : Except ReadError (Json × List CodePoint) :=
  match s with
  | .char '-' :: r => ((unsignedNumber true r).map bare).getD (.error (.mistake (r.length + 1)))
  | r => ((unsignedNumber false r).map bare).getD (.error (.mistake r.length))

theorem numeral_of_ne {s : List CodePoint} (h : ∀ r, s ≠ .char '-' :: r) :
    numeral s = ((unsignedNumber false s).map bare).getD (.error (.mistake s.length)) := by
  unfold numeral
  split
  · exact absurd rfl (h _)
  · rfl

theorem scalar_cases (s : List CodePoint) :
    (∃ w v rest, Word w v ∧ s = w ++ rest ∧ bare (scalar s) = .ok (v, rest)) ∨
      ((∀ w v, Word w v → dropPrefix? s w = none) ∧ bare (scalar s) = numeral s) := by
  unfold scalar
  obtain ⟨hnull, hn⟩ | ⟨rest, hs, hlen, hn⟩ := word?_cases s ['n', 'u', 'l', 'l'] .null (by simp)
  case inr => exact Or.inl ⟨_, _, rest, .null, hs, by rw [hn]; rfl⟩
  obtain ⟨htrue, ht⟩ | ⟨rest, hs, hlen, ht⟩ :=
    word?_cases s ['t', 'r', 'u', 'e'] (.bool true) (by simp)
  case inr => exact Or.inl ⟨_, _, rest, .trueWord, hs, by rw [hn, ht]; rfl⟩
  obtain ⟨hfalse, hf⟩ | ⟨rest, hs, hlen, hf⟩ :=
    word?_cases s ['f', 'a', 'l', 's', 'e'] (.bool false) (by simp)
  case inr => exact Or.inl ⟨_, _, rest, .falseWord, hs, by rw [hn, ht, hf]; rfl⟩
  obtain ⟨hnan, ha⟩ | ⟨rest, hs, hlen, ha⟩ :=
    word?_cases s ['N', 'a', 'N'] (.double .nan) (by simp)
  case inr => exact Or.inl ⟨_, _, rest, .nan, hs, by rw [hn, ht, hf, ha]; rfl⟩
  obtain ⟨hinfinity, hi⟩ | ⟨rest, hs, hlen, hi⟩ := word?_cases s
    ['I', 'n', 'f', 'i', 'n', 'i', 't', 'y'] (.double (.infinite false)) (by simp)
  case inr => exact Or.inl ⟨_, _, rest, .infinity, hs, by rw [hn, ht, hf, ha, hi]; rfl⟩
  obtain ⟨hminus, hm⟩ | ⟨rest, hs, hlen, hm⟩ := word?_cases s
    ['-', 'I', 'n', 'f', 'i', 'n', 'i', 't', 'y'] (.double (.infinite true)) (by simp)
  case inr => exact Or.inl ⟨_, _, rest, .minusInfinity, hs, by rw [hn, ht, hf, ha, hi, hm]; rfl⟩
  refine Or.inr ⟨fun w v hw => by cases hw <;> assumption, ?_⟩
  rw [hn, ht, hf, ha, hi, hm]
  simp only
  split
  · simp only [numeral]
    cases unsignedNumber true _ with
    | none => rfl
    | some x => cases x <;> rfl
  · rename_i hplain
    rw [numeral_of_ne hplain]
    cases unsignedNumber false _ <;> rfl

theorem scalar_of_numeral {s rest : List CodePoint} {v : Json} (h : numeral s = .ok (v, rest)) :
    ∃ t, s = t ++ rest ∧ Scalar t v := by
  unfold numeral at h
  split at h
  · rename_i r
    cases hnumber : (unsignedNumber true r).map bare with
    | none => simp [hnumber] at h
    | some x =>
      simp only [hnumber, Option.getD_some] at h
      obtain ⟨t, rfl, ht⟩ := unsigned_of_unsignedNumber (h ▸ hnumber)
      exact ⟨'-' :: t, rfl, .negative ht⟩
  · cases hnumber : (unsignedNumber false s).map bare with
    | none => simp [hnumber] at h
    | some x =>
      simp only [hnumber, Option.getD_some] at h
      obtain ⟨t, ht, hv⟩ := unsigned_of_unsignedNumber (h ▸ hnumber)
      exact ⟨t, ht, .positive hv⟩

theorem numeral_ne_tooDeep (s : List CodePoint) : numeral s ≠ .error .tooDeep := by
  have hnumber (negative : Bool) (r : List CodePoint) (n : Nat) :
      ((unsignedNumber negative r).map bare).getD (.error (.mistake n)) ≠ .error .tooDeep := by
    have := unsignedNumber_ne_tooDeep negative r
    cases h : (unsignedNumber negative r).map bare with
    | none => simp
    | some x => simpa [h] using this
  unfold numeral
  split
  · exact hnumber true _ _
  · exact hnumber false _ _

theorem scalar_of_bare {s rest : List CodePoint} {v : Json} (h : bare (scalar s) = .ok (v, rest)) :
    ∃ t, s = t ++ rest ∧ Scalar t v := by
  obtain ⟨w, v', rest', hw, hs, hword⟩ | ⟨-, hnumeral⟩ := scalar_cases s
  · rw [hword] at h
    cases h
    exact ⟨w, hs, .word hw⟩
  · exact scalar_of_numeral (hnumeral ▸ h)

theorem scalar_ne_tooDeep (s : List CodePoint) : bare (scalar s) ≠ .error .tooDeep := by
  obtain ⟨w, v, rest, -, -, hword⟩ | ⟨-, hnumeral⟩ := scalar_cases s
  · rw [hword]
    exact fun h => nomatch h
  · rw [hnumeral]
    exact numeral_ne_tooDeep s

/-- Neither a gap nor a string, an array or an object starts so, nor does one of these end so. -/
def StartsScalar (c : CodePoint) : Prop :=
  isGap c = false ∧ c ∉ (['"', '[', ']', '{', '}'] : List CodePoint)

theorem startsScalar_of_isAsciiDigit {c : CodePoint} (h : isAsciiDigit c = true) :
    StartsScalar c := by
  refine ⟨?_, fun hc => ?_⟩
  · rw [← Bool.not_eq_true]
    intro hgap
    simp only [isGap, Bool.or_eq_true, beq_iff_eq] at hgap
    obtain ((rfl | rfl) | rfl) | rfl := hgap <;> exact absurd h (by decide)
  · simp only [List.mem_cons, List.not_mem_nil, or_false] at hc
    obtain rfl | rfl | rfl | rfl | rfl := hc <;> exact absurd h (by decide)

theorem Unsigned.exists_cons {negative : Bool} {t : List CodePoint} {v : Json}
    (h : Unsigned negative t v) : ∃ c cs, t = c :: cs ∧ isAsciiDigit c = true := by
  have hwhole {w : List CodePoint} (h : IsWhole w) :
      ∃ c cs, w = c :: cs ∧ isAsciiDigit c = true := by
    cases h with
    | zero => exact ⟨'0', [], rfl, by decide⟩
    | digits h => exact h.exists_cons
  cases h with
  | whole h => exact hwhole h
  | broken h =>
    obtain ⟨c, cs, rfl, hc⟩ := hwhole h
    exact ⟨c, _, rfl, hc⟩

theorem Scalar.exists_cons {t : List CodePoint} {v : Json} (h : Scalar t v) :
    ∃ c cs, t = c :: cs ∧ StartsScalar c := by
  cases h with
  | word h => cases h <;> exact ⟨_, _, rfl, by decide, by decide⟩
  | positive h =>
    obtain ⟨c, cs, ht, hc⟩ := h.exists_cons
    exact ⟨c, cs, ht, startsScalar_of_isAsciiDigit hc⟩
  | negative h => exact ⟨_, _, rfl, by decide, by decide⟩

theorem Word.not_numeral {w rest r : List CodePoint} {v : Json} {c : CodePoint} (h : Word w v)
    (hc : isAsciiDigit c = true) : c :: r ≠ w ++ rest ∧ .char '-' :: c :: r ≠ w ++ rest := by
  cases h <;> refine ⟨fun h => ?_, fun h => ?_⟩ <;> simp at h <;>
    exact absurd hc (by rw [h.1]; decide)

theorem Word.eq_of_append {w w' rest rest' : List CodePoint} {v v' : Json} (h : Word w v)
    (h' : Word w' v') (heq : w ++ rest = w' ++ rest') : v = v' ∧ rest = rest' := by
  cases h <;> cases h' <;> simp_all

theorem scalar_append {t rest : List CodePoint} {v : Json} (h : Scalar t v) (hrest : Ends rest) :
    bare (scalar (t ++ rest)) = .ok (v, rest) := by
  obtain ⟨w, v', rest', hw, hs, hword⟩ | ⟨hnone, hnumeral⟩ := scalar_cases (t ++ rest)
  · cases h with
    | word h =>
      obtain ⟨rfl, rfl⟩ := h.eq_of_append hw hs
      exact hword
    | positive h =>
      obtain ⟨c, cs, rfl, hc⟩ := h.exists_cons
      exact absurd hs (hw.not_numeral hc).1
    | negative h =>
      obtain ⟨c, cs, rfl, hc⟩ := h.exists_cons
      exact absurd hs (hw.not_numeral hc).2
  · rw [hnumeral]
    cases h with
    | word h =>
      have := hnone _ _ h
      rw [dropPrefix?_append] at this
      cases this
    | positive h =>
      have hminus : ∀ r, t ++ rest ≠ .char '-' :: r := by
        obtain ⟨c, cs, rfl, hc⟩ := h.exists_cons
        rintro r heq
        cases heq
        exact absurd hc (by decide)
      rw [numeral_of_ne hminus, unsignedNumber_append h hrest]
      rfl
    | negative h =>
      simp only [List.cons_append, numeral, unsignedNumber_append h hrest]
      rfl

end StrategyDesk.Json
