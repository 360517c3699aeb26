import StrategyDesk.Json.Spoken
import StrategyDesk.Number.Numeral
import StrategyDesk.Proofs.ShortestDigits

set_option autoImplicit false

namespace StrategyDesk.Numeral
open Text

/-! ### Reading digits -/

def EndsDigits (digit? : DigitSet) (rest : List Char) : Prop :=
  ∀ c, rest.head? = some c → digit? c = none ∧ c ≠ '_'

theorem endsDigits_nil (digit? : DigitSet) : EndsDigits digit? [] := fun c hc => by cases hc

theorem endsDigits_point (part : List Char) : EndsDigits decimalValue? ('.' :: part) :=
  fun c hc => by cases hc; decide

theorem moreDigits_append {digit? : DigitSet} {ds rest : List Char} {vs : List Nat}
    (hds : ds.mapM digit? = some vs) (hrest : EndsDigits digit? rest) :
    moreDigits digit? (ds ++ rest) = (vs, rest) := by
  induction ds generalizing vs with
  | nil =>
    rw [List.mapM_nil] at hds
    cases hds
    cases rest with
    | nil => rfl
    | cons c rest =>
      obtain ⟨hdigit, hline⟩ := hrest c rfl
      simp only [List.nil_append, moreDigits, hdigit]
      rw [if_neg fun h => hline h.1]
  | cons c ds ih =>
    rw [List.mapM_cons, Option.bind_eq_bind, Option.bind_eq_some_iff] at hds
    obtain ⟨v, hv, hds⟩ := hds
    rw [Option.bind_eq_bind, Option.bind_eq_some_iff] at hds
    obtain ⟨ws, hws, hvs⟩ := hds
    cases hvs
    simp only [List.cons_append, moreDigits, hv, ih hws]

theorem takeDigits_append {digit? : DigitSet} {ds rest : List Char} {vs : List Nat} (hne : ds ≠ [])
    (hds : ds.mapM digit? = some vs) (hrest : EndsDigits digit? rest) :
    takeDigits digit? (ds ++ rest) = (vs, rest) := by
  rw [← moreDigits_append hds hrest]
  obtain ⟨c, cs, rfl⟩ := List.exists_cons_of_ne_nil hne
  rw [List.mapM_cons, Option.bind_eq_bind, Option.bind_eq_some_iff] at hds
  obtain ⟨v, hv, -⟩ := hds
  rw [List.cons_append, takeDigits, hv, Option.isSome_some, if_pos rfl]

theorem takeSign_digit {d : Nat} (hd : d < 10) (cs : List Char) :
    takeSign (d.digitChar :: cs) = (false, d.digitChar :: cs) := by
  have hsigns : ∀ e < 10, e.digitChar ≠ '-' ∧ e.digitChar ≠ '+' := by decide
  obtain ⟨hminus, hplus⟩ := hsigns d hd
  unfold takeSign
  split
  · rename_i heq
    exact absurd (List.cons.inj heq).1 hminus
  · rename_i heq
    exact absurd (List.cons.inj heq).1 hplus
  · rfl

theorem ofList_lowerAscii_ne {d : Nat} (hd : d < 10) (cs : List Char) (w : Char) (ws : List Char)
    (hw : ∀ e < 10, e.digitChar.toLower ≠ w) :
    String.ofList (lowerAscii (d.digitChar :: cs)) ≠ String.ofList (w :: ws) := fun h =>
  hw d hd (List.cons.inj (String.ofList_injective h)).1

theorem double?_eq {digits tail : List Char} {vs ps : List Nat} (hne : digits ≠ [])
    (hascii : ∀ c ∈ digits, (asciiDigit? c).isSome = true)
    (hdigits : digits.mapM decimalValue? = some vs) (htail : EndsDigits decimalValue? tail)
    (hfraction : fraction decimalValue? tail = (ps, [])) :
    double? decimalValue? (digits ++ tail) =
      some (Decimal.mk false (ofDigits 10 (vs ++ ps)) (-(ps.length : Int))).toDouble := by
  have htake := takeDigits_append hne hdigits htail
  have hvs : vs ≠ [] := by
    rintro rfl
    exact hne (List.length_eq_zero_iff.1 (length_of_mapM hdigits).symm)
  obtain ⟨c, cs, rfl⟩ := List.exists_cons_of_ne_nil hne
  obtain ⟨d, hd⟩ := Option.isSome_iff_exists.1 (hascii c List.mem_cons_self)
  obtain ⟨hlt, rfl⟩ := asciiDigit?_eq_some_iff.1 hd
  unfold double?
  rw [List.cons_append, takeSign_digit hlt]
  dsimp only
  split
  · rename_i hword
    exact absurd hword (ofList_lowerAscii_ne hlt _ 'i' ['n', 'f'] (by decide))
  · rename_i hword
    exact absurd hword (ofList_lowerAscii_ne hlt _ 'i' "nfinity".toList (by decide))
  · rename_i hword
    exact absurd hword (ofList_lowerAscii_ne hlt _ 'n' ['a', 'n'] (by decide))
  · rw [← List.cons_append, htake, hfraction]
    have hsome : (vs.isEmpty && ps.isEmpty) = false := by
      rw [List.isEmpty_eq_false_iff.2 hvs]
      rfl
    simp only [hsome, exponent?, Option.map_some, Int.zero_sub, Bool.false_eq_true, if_false]

theorem trim_of_digits {cs : List Char}
    (hstart : ∀ c, cs.head? = some c → (asciiDigit? c).isSome = true)
    (hfinish : ∀ c, cs.getLast? = some c → (asciiDigit? c).isSome = true) :
    trim numeralBlank cs = cs := by
  have hdigit : ∀ c, (asciiDigit? c).isSome = true → numeralBlank c = false := by
    intro c hc
    obtain ⟨d, hd⟩ := Option.isSome_iff_exists.1 hc
    obtain ⟨hlt, rfl⟩ := asciiDigit?_eq_some_iff.1 hd
    have hall : ∀ e < 10, numeralBlank e.digitChar = false := by decide
    exact hall d hlt
  exact trim_eq_self_iff.2 ⟨fun c hc => hdigit c (hstart c hc), fun c hc => hdigit c (hfinish c hc)⟩

theorem wideDouble?_of_digits {cs : List Char} {n : Nat} (h : InDigits asciiDigit? 10 cs n) :
    wideDouble? (String.ofList cs) = some (Decimal.mk false n 0).toDouble := by
  obtain ⟨hne, vs, hvs, rfl⟩ := InDigits.iff_mapM.1 h.decimal
  have hnothing : fraction decimalValue? [] = ([], []) := rfl
  have hread := double?_eq hne h.digits hvs (endsDigits_nil _) hnothing
  have htrim : trim numeralBlank cs = cs :=
    trim_of_digits (fun c hc => h.digits c (List.mem_of_mem_head? hc))
      (fun c hc => h.digits c (List.mem_of_getLast? hc))
  rw [List.append_nil, List.append_nil] at hread
  rw [wideDouble?, String.toList_ofList, htrim, hread]
  rfl

theorem wideDouble?_of_point {whole part : List Char} {n : Nat} (hwhole : whole ≠ [])
    (hpart : part ≠ []) (h : InDigits asciiDigit? 10 (whole ++ part) n) :
    wideDouble? (String.ofList (whole ++ '.' :: part)) =
      some (Decimal.mk false n (-(part.length : Int))).toDouble := by
  obtain ⟨-, ds, hds, rfl⟩ := InDigits.iff_mapM.1 h.decimal
  simp only [List.mapM_append, Option.bind_eq_bind, Option.pure_def, Option.bind_eq_some_iff,
    Option.some.injEq] at hds
  obtain ⟨vs, hvs, ps, hps, rfl⟩ := hds
  have hascii := h.digits
  have hfraction : fraction decimalValue? ('.' :: part) = (ps, []) := by
    have htake := takeDigits_append hpart hps (endsDigits_nil _)
    rwa [List.append_nil] at htake
  have hread := double?_eq hwhole (fun c hc => hascii c (List.mem_append_left _ hc)) hvs
    (endsDigits_point part) hfraction
  have htrim : trim numeralBlank (whole ++ '.' :: part) = whole ++ '.' :: part := by
    refine trim_of_digits (fun c hc => hascii c ?_) (fun c hc => hascii c ?_)
    · rw [List.head?_append, List.head?_eq_some_head hwhole, Option.some_or] at hc
      cases hc
      exact List.mem_append_left _ (List.head_mem hwhole)
    · rw [List.getLast?_append, List.getLast?_cons, List.getLast?_eq_some_getLast hpart] at hc
      cases hc
      exact List.mem_append_right _ (List.getLast_mem hpart)
  rw [wideDouble?, String.toList_ofList, htrim, hread, length_of_mapM hps]

end StrategyDesk.Numeral

namespace StrategyDesk.Double
open Text

variable {units : Nat}

/-! ### Printed digits -/

theorem ofList_point (whole part : List Char) :
    String.ofList whole ++ "." ++ String.ofList part = String.ofList (whole ++ '.' :: part) := by
  apply String.ext
  simp

theorem layDigits_positional (l : Layout) (ds : List Char) {e : Nat} (hfrom : l.positionalFrom ≤ e)
    (hbelow : e < l.positionalBelow) :
    layDigits l ds e =
      String.ofList (ds.take (e + 1) ++ List.replicate (e + 1 - ds.length) '0' ++
        '.' :: if ds.drop (e + 1) = [] then ['0'] else ds.drop (e + 1)) := by
  unfold layDigits
  rw [if_pos ⟨hfrom, hbelow⟩, if_neg (by omega), ← ofList_point]
  rfl

theorem exists_layDigits (l : Layout) {ds : List Char} {m e : Nat} (hfrom : l.positionalFrom ≤ e)
    (hbelow : e < l.positionalBelow) (h : InDigits asciiDigit? 10 ds m) :
    ∃ (whole part : List Char) (zeros : Nat),
      layDigits l ds e = String.ofList (whole ++ '.' :: part) ∧ whole ≠ [] ∧ part ≠ [] ∧
        InDigits asciiDigit? 10 (whole ++ part) (m * tenTo zeros) ∧ part.length ≤ ds.length ∧
        (part.length : Int) = zeros + ds.length - (e + 1) := by
  have hlength : 0 < ds.length := List.length_pos_iff.2 h.ne_nil
  rw [layDigits_positional l ds hfrom hbelow]
  by_cases hshort : ds.length ≤ e + 1
  · -- All digits stand in front of the point, and one zero behind it.
    have hzeros : ds ++ List.replicate (e + 1 - ds.length) '0' ++ ['0'] =
        ds ++ List.replicate (e + 1 - ds.length + 1) '0' := by
      rw [List.append_assoc, List.replicate_succ']
    refine ⟨ds ++ List.replicate (e + 1 - ds.length) '0', ['0'], e + 1 - ds.length + 1, ?_,
      List.append_ne_nil_of_left_ne_nil h.ne_nil _, List.cons_ne_nil _ _, ?_, hlength, ?_⟩
    · rw [List.take_of_length_le hshort, List.drop_eq_nil_of_le hshort, if_pos rfl]
    · rw [hzeros]
      exact h.append_zeros _
    · rw [List.length_singleton]
      omega
  · have hrest : ds.drop (e + 1) ≠ [] := fun hnil => hshort (List.drop_eq_nil_iff.1 hnil)
    have hnone : e + 1 - ds.length = 0 := by omega
    refine ⟨ds.take (e + 1), ds.drop (e + 1), 0, ?_, ?_, hrest, ?_, ?_, ?_⟩
    · rw [if_neg hrest, hnone, List.replicate_zero, List.append_nil]
    · exact fun hnil => h.ne_nil ((List.take_eq_nil_iff.1 hnil).resolve_left (Nat.succ_ne_zero e))
    · rw [List.take_append_drop]
      exact (Nat.mul_one m).symm ▸ h
    · rw [List.length_drop]
      omega
    · rw [List.length_drop]
      omega

theorem toDouble_point {n k : Nat} (hn : 0 < n) (hk : 0 < k) (hfew : k ≤ 330) :
    (Decimal.mk false n (-(k : Int))).toDouble = ofRatio false n (tenTo k) := by
  unfold Decimal.toDouble
  dsimp only
  rw [if_neg (Nat.ne_of_gt hn), if_neg (by omega), if_neg (by omega), if_neg (by omega),
    Int.neg_neg, Int.toNat_natCast]

theorem toDouble_whole {n : Nat} (hn : 0 < n) :
    (Decimal.mk false n 0).toDouble = ofInt n := by
  unfold Decimal.toDouble
  dsimp only
  rw [if_neg (Nat.ne_of_gt hn), if_neg (by decide), if_pos (Int.le_refl 0), ofInt,
    decide_eq_false (Int.not_lt.2 (Int.natCast_nonneg n)), Int.natAbs_natCast]
  exact congrArg (ofRatio false · 1) (Nat.mul_one n)

theorem wideDouble?_fixedText {places count : Nat} (hcount : 0 < count) (hplaces : 0 < places)
    (hfew : places ≤ 330) :
    Numeral.wideDouble? (fixedText places count) = some (ofRatio false count (tenTo places)) := by
  let digits := (toString (count % tenTo places)).toList
  let part := List.replicate (places - digits.length) '0' ++ digits
  have htext : fixedText places count =
      String.ofList ((toString (count / tenTo places)).toList ++ '.' :: part) := by
    apply String.ext
    unfold fixedText
    dsimp only
    rw [← String.length_toList]
    simp only [String.toList_append, String.toList_ofList, List.append_assoc, part, digits]
    rfl
  have hlength : part.length = places := by
    have hle : digits.length ≤ places :=
      (length_toString_le_iff hplaces).2 (Nat.mod_lt count (tenTo_pos places))
    rw [List.length_append, List.length_replicate]
    omega
  have hpart : InDigits asciiDigit? 10 part (count % tenTo places) :=
    (inDigits_toString _).zeros rfl _
  have hall := (inDigits_toString (count / tenTo places)).append hpart
  rw [hlength, Nat.div_add_mod'] at hall
  rw [htext, Numeral.wideDouble?_of_point (inDigits_toString _).ne_nil hpart.ne_nil hall, hlength,
    toDouble_point hcount hplaces hfew]

theorem wideDouble?_toString {n : Int} (hpos : 0 < n) :
    Numeral.wideDouble? (toString n) = some (ofInt n) := by
  obtain ⟨k, rfl⟩ := Int.eq_ofNat_of_zero_le (Int.le_of_lt hpos)
  have hread := Numeral.wideDouble?_of_digits (inDigits_toString k)
  rw [String.ofList_toList, toDouble_whole (by omega)] at hread
  exact hread

/-- A value from one on, printed with its shortest digits, is read back as it was. -/
theorem wideDouble?_text (hfits : Fits units) (hlow : scale ≤ units)
    (hhigh : units < tenTo 15 * scale) :
    Numeral.wideDouble? ((Double.finite false units).text Json.spokenLayout) =
      some (.finite false units) := by
  obtain ⟨m, e, hdigits, hm, hexp, he, hlength, hrounds⟩ := shortest_spec hfits hlow hhigh
  obtain ⟨whole, part, zeros, hlay, hwhole, hpart, hspelled, hle, hpoint⟩ :=
    exists_layDigits Json.spokenLayout (e := e) (show (-4 : Int) ≤ e by omega)
      (show (e : Int) < 16 by omega) hdigits
  have hunits : units ≠ 0 := Nat.ne_of_gt (Nat.lt_of_lt_of_le scale_pos hlow)
  have htext : (Double.finite false units).text Json.spokenLayout =
      layDigits Json.spokenLayout (shortest units).1 e := by
    unfold text
    dsimp only
    rw [if_neg hunits, hexp]
    exact String.empty_append
  have hround : roundUnits (scale * (m * tenTo zeros)) (tenTo part.length) = units := by
    refine hrounds _ _ (tenTo_pos _) ?_
    have hexponent : (e : ℤ) + 1 - (shortest units).1.length = zeros - part.length := by omega
    rw [hexponent, zpow_sub₀ (by norm_num), ← cast_tenTo, ← cast_tenTo, Nat.cast_mul,
      mul_div_assoc]
  rw [htext, hlay, Numeral.wideDouble?_of_point hwhole hpart hspelled,
    toDouble_point (Nat.mul_pos hm (tenTo_pos _)) (List.length_pos_iff.2 hpart) (by omega),
    ofRatio, hround, ofUnits, if_pos (lt_ceiling hhigh)]

end StrategyDesk.Double
