import StrategyDesk.Number.Power
import StrategyDesk.Text.Digit

set_option autoImplicit false

namespace StrategyDesk.Text

/-- A number in digits of a base, at least one. -/
inductive InDigits (digit? : Char → Option Nat) (base : Nat) : List Char → Nat → Prop where
  | one {c : Char} {d : Nat} (h : digit? c = some d) : InDigits digit? base [c] d
  | more {cs : List Char} {c : Char} {n d : Nat} (h : InDigits digit? base cs n)
    (hc : digit? c = some d) : InDigits digit? base (cs ++ [c]) (n * base + d)

theorem length_of_mapM {α β : Type} {f : α → Option β} {xs : List α} {ys : List β}
    (h : xs.mapM f = some ys) : ys.length = xs.length := by
  induction xs generalizing ys with
  | nil => simp_all
  | cons x xs ih =>
    simp only [List.mapM_cons, Option.bind_eq_bind, Option.bind_eq_some_iff, Option.pure_def,
      Option.some.injEq] at h
    obtain ⟨_, -, zs, hzs, rfl⟩ := h
    simp [ih hzs]

theorem ofDigits_concat (base : Nat) (ds : List Nat) (d : Nat) :
    ofDigits base (ds ++ [d]) = ofDigits base ds * base + d := by
  simp [ofDigits]

namespace InDigits

variable {digit? : Char → Option Nat} {base n : Nat} {cs : List Char}

theorem ne_nil (h : InDigits digit? base cs n) : cs ≠ [] := by
  cases h <;> simp

theorem digits (h : InDigits digit? base cs n) : ∀ c ∈ cs, (digit? c).isSome = true := by
  induction h with
  | one h => simp [h]
  | more _ hc ih => simpa [hc, or_imp, forall_and] using ih

theorem map {f : Char → Char} (hf : ∀ c d, digit? c = some d → digit? (f c) = some d)
    (h : InDigits digit? base cs n) : InDigits digit? base (cs.map f) n := by
  induction h with
  | one h => exact .one (hf _ _ h)
  | more _ hc ih =>
    rw [List.map_append]
    exact .more ih (hf _ _ hc)

theorem iff_mapM : InDigits digit? base cs n ↔
    cs ≠ [] ∧ ∃ ds, cs.mapM digit? = some ds ∧ ofDigits base ds = n := by
  constructor
  · intro h
    refine ⟨h.ne_nil, ?_⟩
    induction h with
    | @one c d h => exact ⟨[d], by simp [h], by simp [ofDigits]⟩
    | more _ hc ih =>
      obtain ⟨ds, hds, rfl⟩ := ih
      exact ⟨ds ++ [_], by simp [hds, hc], ofDigits_concat _ _ _⟩
  · rintro ⟨hne, ds, hds, rfl⟩
    -- Rows grow at their end, so the induction runs from there.
    obtain ⟨rs, rfl⟩ : ∃ rs, cs = rs.reverse := ⟨cs.reverse, cs.reverse_reverse.symm⟩
    induction rs generalizing ds with
    | nil => exact absurd rfl hne
    | cons c rs ih =>
      rw [List.reverse_cons] at hds ⊢
      simp only [List.mapM_append, List.mapM_cons, List.mapM_nil, Option.bind_eq_bind,
        Option.pure_def, Option.bind_eq_some_iff, Option.some.injEq] at hds
      obtain ⟨es, hes, fs, ⟨d, hd, -, rfl, rfl⟩, rfl⟩ := hds
      cases rs with
      | nil =>
        cases hes
        have hone : InDigits digit? base [c] d := .one hd
        rw [ofDigits_concat]
        simpa [ofDigits] using hone
      | cons b rs =>
        rw [ofDigits_concat]
        exact .more (ih es (by simp) hes) hd

theorem unique {m : Nat} (hm : InDigits digit? base cs m) (hn : InDigits digit? base cs n) :
    m = n := by
  obtain ⟨-, ds, hds, rfl⟩ := iff_mapM.1 hm
  obtain ⟨-, es, hes, rfl⟩ := iff_mapM.1 hn
  rw [hds, Option.some.injEq] at hes
  rw [hes]

theorem zeros (hzero : digit? '0' = some 0) (h : InDigits digit? base cs n) (k : Nat) :
    InDigits digit? base (List.replicate k '0' ++ cs) n := by
  induction k with
  | zero => exact h
  | succ k ih =>
    obtain ⟨-, ds, hds, rfl⟩ := iff_mapM.1 ih
    refine iff_mapM.2 ⟨by simp, 0 :: ds, ?_, by simp [ofDigits]⟩
    rw [List.replicate_succ, List.cons_append, List.mapM_cons, hzero, hds]
    rfl

theorem toDigits (hbase : 1 < base) (h : ∀ d < base, digit? d.digitChar = some d) (n : Nat) :
    InDigits digit? base (Nat.toDigits base n) n := by
  induction n using Nat.strongRecOn with
  | ind n ih =>
    rw [Nat.toDigits_eq_if hbase]
    split
    · exact .one (h n ‹_›)
    · have hdiv : n / base < n := Nat.div_lt_self (by omega) hbase
      have hmore := (ih (n / base) hdiv).more (h (n % base) (Nat.mod_lt _ (by omega)))
      rwa [Nat.mul_comm, Nat.div_add_mod] at hmore

end InDigits

theorem asciiDigit?_digitChar {d : Nat} (h : d < 10) : asciiDigit? d.digitChar = some d := by
  have hall : ∀ e < 10, asciiDigit? e.digitChar = some e := by decide
  exact hall d h

theorem decimalValue?_digitChar {d : Nat} (h : d < 10) : decimalValue? d.digitChar = some d := by
  have hall : ∀ e < 10, decimalValue? e.digitChar = some e := by decide
  exact hall d h

theorem hexDigit?_ascii {c : Char} {d : Nat} (h : hexDigit? c = some d) : c.toNat < 0x80 := by
  have hbelow : ∀ e : Char, c ≤ e → c.toNat ≤ e.toNat := fun _ he => he
  unfold hexDigit? at h
  split at h
  · exact Nat.lt_of_le_of_lt (hbelow '9' (And.right ‹_›)) (by decide)
  · split at h
    · exact Nat.lt_of_le_of_lt (hbelow 'f' (And.right ‹_›)) (by decide)
    · split at h
      · exact Nat.lt_of_le_of_lt (hbelow 'F' (And.right ‹_›)) (by decide)
      · cases h

theorem asciiDigit?_eq_some_iff {c : Char} {d : Nat} :
    asciiDigit? c = some d ↔ d < 10 ∧ c = d.digitChar := by
  constructor
  · intro h
    unfold asciiDigit? at h
    split at h
    · rename_i hc
      have hlow : 48 ≤ c.toNat := hc.1
      have hhigh : c.toNat ≤ 57 := hc.2
      cases h
      refine ⟨by omega, Char.toNat_inj.1 ?_⟩
      rw [Nat.toNat_digitChar_of_lt_ten (by omega)]
      omega
    · cases h
  · rintro ⟨hd, rfl⟩
    exact asciiDigit?_digitChar hd

theorem InDigits.eq_toDigits {cs : List Char} {n : Nat} (h : InDigits asciiDigit? 10 cs n)
    (hzero : cs.head? = some '0' → cs = ['0']) : cs = Nat.toDigits 10 n := by
  induction h with
  | one h =>
    obtain ⟨hd, rfl⟩ := asciiDigit?_eq_some_iff.1 h
    rw [Nat.toDigits_of_lt_base hd]
  | @more cs c n d h hc ih =>
    obtain ⟨hd, rfl⟩ := asciiDigit?_eq_some_iff.1 hc
    have hne := h.ne_nil
    have hhead : cs.head? ≠ some '0' := by
      intro hcs
      have := hzero (by simp [List.head?_append, hcs])
      exact hne (by simpa using congrArg List.dropLast this)
    have hcs := ih fun hcs => absurd hcs hhead
    have hpos : 0 < n := by
      refine Nat.pos_of_ne_zero fun hn => hhead ?_
      rw [hcs, hn]
      rfl
    have happend := Nat.toDigits_append_toDigits (b := 10) (by decide) hpos hd
    rw [Nat.toDigits_of_lt_base hd, ← hcs] at happend
    rw [happend, Nat.mul_comm]

/-! ### Printed numbers -/

namespace InDigits

variable {cs : List Char} {n : Nat}

theorem decimal (h : InDigits asciiDigit? 10 cs n) : InDigits decimalValue? 10 cs n := by
  have hdigit : ∀ c d, asciiDigit? c = some d → decimalValue? c = some d := fun c d hc => by
    obtain ⟨hd, rfl⟩ := asciiDigit?_eq_some_iff.1 hc
    exact decimalValue?_digitChar hd
  induction h with
  | one hc => exact .one (hdigit _ _ hc)
  | more _ hc ih => exact .more ih (hdigit _ _ hc)

theorem append {digit? : Char → Option Nat} {ds : List Char} {m : Nat}
    (h : InDigits digit? 10 cs n) (hds : InDigits digit? 10 ds m) :
    InDigits digit? 10 (cs ++ ds) (n * tenTo ds.length + m) := by
  induction hds with
  | one hc => exact .more h hc
  | @more ds c m d _ hc ih =>
    have hmore := ih.more hc
    rw [Nat.add_mul, Nat.mul_assoc, ← tenTo_succ, Nat.add_assoc, List.append_assoc] at hmore
    rwa [List.length_append]

theorem append_zeros (h : InDigits asciiDigit? 10 cs n) (k : Nat) :
    InDigits asciiDigit? 10 (cs ++ List.replicate k '0') (n * tenTo k) := by
  induction k with
  | zero =>
    rw [List.replicate_zero, List.append_nil]
    exact (Nat.mul_one n).symm ▸ h
  | succ k ih =>
    have hmore := ih.more (c := '0') (d := 0) rfl
    rw [Nat.add_zero, Nat.mul_assoc, ← tenTo_succ, List.append_assoc] at hmore
    rwa [List.replicate_succ']

end InDigits

theorem toList_toString (n : Nat) : (toString n).toList = Nat.toDigits 10 n := Nat.toList_repr

theorem inDigits_toString (n : Nat) : InDigits asciiDigit? 10 (toString n).toList n := by
  rw [toList_toString]
  exact InDigits.toDigits (by decide) (fun _ => asciiDigit?_digitChar) n

theorem length_toString_le_iff {n k : Nat} (hk : 0 < k) :
    (toString n).toList.length ≤ k ↔ n < tenTo k := by
  rw [toList_toString]
  exact Nat.length_toDigits_le_iff (by decide) hk

theorem exists_length_toString {n : Nat} (hpos : 0 < n) :
    ∃ k, (toString n).toList.length = k + 1 ∧ tenTo k ≤ n ∧ n < tenTo (k + 1) := by
  obtain ⟨k, hk⟩ : ∃ k, (toString n).toList.length = k + 1 := by
    refine Nat.exists_eq_add_one_of_ne_zero fun hzero => ?_
    exact (inDigits_toString n).ne_nil (List.length_eq_zero_iff.1 hzero)
  refine ⟨k, hk, ?_, (length_toString_le_iff (by omega)).1 (by omega)⟩
  by_cases hzero : k = 0
  · subst hzero
    exact hpos
  · rw [← Nat.not_lt, ← length_toString_le_iff (Nat.pos_of_ne_zero hzero)]
    omega

end StrategyDesk.Text
