import StrategyDesk.Graph.Model
import StrategyDesk.Proofs.FiniteNumbers

set_option autoImplicit false

namespace StrategyDesk.Form
open Json Check

/-! ### Fields -/

/-- A number with a finite double, and its value in units of doubles. -/
inductive HasUnits : Json → Int → Prop where
  | int {n : Int} (h : n.natAbs < Double.firstVast) : HasUnits (.int n) (n * Double.scale)
  | double {negative : Bool} {units : Nat} :
    HasUnits (.double (.finite negative units)) (Double.signed negative units)

/-- A number with a finite double, whose value has a property. -/
def IsNumberThat (p : Int → Prop) (j : Json) : Prop := ∃ units, HasUnits j units ∧ p units

def IsNumber : Json → Prop := IsNumberThat fun _ => True

def IsAtLeastOne : Json → Prop := IsNumberThat fun units => (Double.scale : Int) ≤ units

def IsPositive : Json → Prop := IsNumberThat fun units => 0 < units

/-- A whole number without a finite double. -/
inductive IsVast : Json → Prop where
  | int {n : Int} (h : Double.firstVast ≤ n.natAbs) : IsVast (.int n)

inductive IsNumberPair : Json → Prop where
  | pair {a b : Json} (ha : IsNumber a) (hb : IsNumber b) : IsNumberPair (.arr [a, b])

inductive IsVastPair : Json → Prop where
  | first {a b : Json} (ha : IsVast a) : IsVastPair (.arr [a, b])
  | second {a b : Json} (ha : IsNumber a) (hb : IsVast b) : IsVastPair (.arr [a, b])

/-- One of the words of a vocabulary. -/
inductive Names (α : Type) [Vocabulary α] : Json → Prop where
  | word {s : String} (h : s ∈ Vocabulary.names α) : Names α (.str s)

/-- A list or an object, which cannot be looked up. -/
inductive IsContainer : Json → Prop where
  | arr (js : List Json) : IsContainer (.arr js)
  | obj (ms : Members) : IsContainer (.obj ms)

/-- What a test finds fine, and what it is not defined on. -/
structure Tests (test : Json → Except Crash Bool) (fine wild : Json → Prop) (c : Crash) :
    Prop where
  fine_iff {j : Json} : test j = .ok true ↔ fine j
  wild_iff {j : Json} {d : Crash} : test j = .error d ↔ wild j ∧ d = c

theorem Tests.of_cases {test : Json → Except Crash Bool} {fine wild : Json → Prop} {c : Crash}
    (h : ∀ j, (test j = .ok true ∧ fine j ∧ ¬ wild j) ∨ (test j = .ok false ∧ ¬ fine j ∧ ¬ wild j) ∨
      (test j = .error c ∧ ¬ fine j ∧ wild j)) : Tests test fine wild c := by
  constructor
  · intro j
    obtain ⟨ht, hf, -⟩ | ⟨ht, hf, -⟩ | ⟨ht, hf, -⟩ := h j <;> simp [ht, hf]
  · intro j d
    obtain ⟨ht, -, hw⟩ | ⟨ht, -, hw⟩ | ⟨ht, -, hw⟩ := h j <;> simp [ht, hw, eq_comm]

theorem isNumber_int {n : Int} (h : n.natAbs < Double.firstVast) :
    isNumber (.int n) = .ok true := by
  rw [isNumber, Double.isSome_ofInt?_iff.2 h]
  rfl

theorem isNumber_vast {n : Int} (h : Double.firstVast ≤ n.natAbs) :
    isNumber (.int n) = .error .tooLarge := by
  have hnone : ¬ (Double.ofInt? n).isSome = true := fun hsome =>
    Nat.not_lt.2 h (Double.isSome_ofInt?_iff.1 hsome)
  rw [isNumber, if_neg hnone]

theorem not_isVast_int {n : Int} (h : n.natAbs < Double.firstVast) : ¬ IsVast (.int n) := by
  intro hvast
  cases hvast
  omega

theorem tests_bounded {int : Int → Bool} {double : Double → Bool} {p : Int → Prop}
    (hint : ∀ n : Int, int n = true ↔ p (n * Double.scale))
    (hdouble : ∀ s units, double (.finite s units) = true ↔ p (Double.signed s units)) :
    Tests (isBoundedNumber int double) (IsNumberThat p) IsVast .tooLarge := by
  refine .of_cases fun j => ?_
  cases j with
  | int n =>
    rcases Nat.lt_or_ge n.natAbs Double.firstVast with h | h
    · have hvalue : isBoundedNumber int double (.int n) = .ok (int n) := by
        unfold isBoundedNumber
        rw [isNumber_int h]
      cases hn : int n with
      | true => exact Or.inl ⟨by rw [hvalue, hn], ⟨_, .int h, (hint n).1 hn⟩, not_isVast_int h⟩
      | false =>
        refine Or.inr (Or.inl ⟨by rw [hvalue, hn], fun ⟨units, hunits, hp⟩ => ?_, not_isVast_int h⟩)
        cases hunits
        rw [(hint n).2 hp] at hn
        cases hn
    · have hvalue : isBoundedNumber int double (.int n) = .error .tooLarge := by
        unfold isBoundedNumber
        rw [isNumber_vast h]
      refine Or.inr (Or.inr ⟨hvalue, fun ⟨units, hunits, _⟩ => ?_, .int h⟩)
      cases hunits
      omega
  | double d =>
    have hvast : ¬ IsVast (.double d) := fun h => by cases h
    cases d with
    | finite s units =>
      have hvalue : isBoundedNumber int double (.double (.finite s units)) =
          .ok (double (.finite s units)) := rfl
      cases hd : double (.finite s units) with
      | true => exact Or.inl ⟨by rw [hvalue, hd], ⟨_, .double, (hdouble s units).1 hd⟩, hvast⟩
      | false =>
        refine Or.inr (Or.inl ⟨by rw [hvalue, hd], fun ⟨_, hunits, hp⟩ => ?_, hvast⟩)
        cases hunits
        rw [(hdouble s units).2 hp] at hd
        cases hd
    | infinite s => exact Or.inr (Or.inl ⟨rfl, (fun ⟨_, hunits, _⟩ => nomatch hunits), hvast⟩)
    | nan => exact Or.inr (Or.inl ⟨rfl, (fun ⟨_, hunits, _⟩ => nomatch hunits), hvast⟩)
  | _ =>
    exact Or.inr (Or.inl ⟨rfl, (fun ⟨_, hunits, _⟩ => nomatch hunits), fun h => nomatch h⟩)

theorem tests_number : Tests isNumber IsNumber IsVast .tooLarge := by
  have htests : Tests (isBoundedNumber (fun _ => true) fun _ => true) IsNumber IsVast .tooLarge :=
    tests_bounded (fun _ => by simp) fun _ _ => by simp
  have hplain : isBoundedNumber (fun _ => true) (fun _ => true) = isNumber := by
    funext j
    unfold isBoundedNumber
    split
    · exact Eq.symm ‹_›
    · exact Eq.symm ‹_›
    · rfl
  rwa [hplain] at htests

theorem scale_pos : (0 : Int) < Double.scale := Int.natCast_pos.2 (twoTo_pos 1074)

theorem tests_atLeastOne : Tests isAtLeastOne IsAtLeastOne IsVast .tooLarge := by
  refine tests_bounded (fun n => ?_) fun s units => Double.one_le_finite
  have hmul := Int.mul_le_mul_right (b := 1) (c := n) scale_pos
  rw [Int.one_mul] at hmul
  rw [decide_eq_true_iff, hmul]

theorem tests_positive : Tests isPositive IsPositive IsVast .tooLarge := by
  refine tests_bounded (fun n => ?_) fun s units => Double.zero_lt_finite
  have hmul := Int.mul_lt_mul_right (b := 0) (c := n) scale_pos
  rw [Int.zero_mul] at hmul
  rw [decide_eq_true_iff, hmul]

section Words

variable {α : Type} [Vocabulary α]

theorem isSome_ofName?_iff {s : String} :
    (Vocabulary.ofName? (α := α) s).isSome = true ↔ s ∈ Vocabulary.names α := by
  simp only [Vocabulary.ofName?, Vocabulary.names, List.find?_isSome, List.mem_map, beq_iff_eq]

theorem names_str_iff {s : String} : Names α (.str s) ↔ s ∈ Vocabulary.names α :=
  ⟨fun h => (by cases h; assumption), fun h => .word h⟩

theorem isOneOf_iff {j : Json} : isOneOf α j = true ↔ Names α j := by
  cases j with
  | str t =>
    cases t with
    | plain s => rw [names_str_iff, ← isSome_ofName?_iff, isOneOf]
    | torn t => constructor <;> intro h <;> cases h
  | _ => constructor <;> intro h <;> cases h

theorem tests_listed : Tests (isListed α) (Names α) IsContainer .wrongKind := by
  refine .of_cases fun j => ?_
  cases j with
  | str t =>
    have hwild : ¬ IsContainer (.str t) := fun h => nomatch h
    cases t with
    | plain s =>
      have hvalue : isListed α (.str (.plain s)) = .ok (Vocabulary.ofName? (α := α) s).isSome := rfl
      rw [hvalue, names_str_iff, ← isSome_ofName?_iff]
      cases (Vocabulary.ofName? (α := α) s).isSome <;> simp [hwild]
    | torn t => exact Or.inr (Or.inl ⟨rfl, fun h => (nomatch h), hwild⟩)
  | arr js => exact Or.inr (Or.inr ⟨rfl, fun h => (nomatch h), .arr js⟩)
  | obj ms => exact Or.inr (Or.inr ⟨rfl, fun h => (nomatch h), .obj ms⟩)
  | _ => exact Or.inr (Or.inl ⟨rfl, fun h => (nomatch h), fun h => (nomatch h)⟩)

end Words

theorem tests_numberPair : Tests isNumberPair IsNumberPair IsVastPair .tooLarge := by
  constructor
  · intro j
    constructor
    · intro h
      unfold isNumberPair at h
      split at h
      · split at h
        · rename_i ha
          exact .pair (tests_number.fine_iff.1 ha) (tests_number.fine_iff.1 h)
        · rename_i hne
          exact (hne h).elim
      · cases h
    · rintro ⟨ha, hb⟩
      simp only [isNumberPair, tests_number.fine_iff.2 ha, tests_number.fine_iff.2 hb]
  · intro j d
    constructor
    · intro h
      unfold isNumberPair at h
      split at h
      · split at h
        · rename_i ha
          obtain ⟨hb, hd⟩ := tests_number.wild_iff.1 h
          exact ⟨.second (tests_number.fine_iff.1 ha) hb, hd⟩
        · obtain ⟨ha, hd⟩ := tests_number.wild_iff.1 h
          exact ⟨.first ha, hd⟩
      · cases h
    · rintro ⟨hpair, rfl⟩
      cases hpair with
      | first ha => simp only [isNumberPair, tests_number.wild_iff.2 ⟨ha, rfl⟩]
      | second ha hb =>
        simp only [isNumberPair, tests_number.fine_iff.2 ha, tests_number.wild_iff.2 ⟨hb, rfl⟩]

/-! ### Rules, groups and forms -/

def betweenWord : String := Vocabulary.name Operator.between

/-- A rule has an indicator, an operator and what that compares with. -/
inductive IsRule : Json → Prop where
  | single {ms : Members} (hindicator : Names Indicator (look ms "indicator"))
    (hoperator : Names Operator (look ms "operator"))
    (hword : look ms "operator" ≠ .str betweenWord) (hvalue : IsNumber (look ms "value")) :
    IsRule (.obj ms)
  | range {ms : Members} (hindicator : Names Indicator (look ms "indicator"))
    (hword : look ms "operator" = .str betweenWord) (hvalue : IsNumberPair (look ms "value")) :
    IsRule (.obj ms)

/-- A list that is not empty, and what its items are. -/
inductive IsListOf (fine : Json → Prop) : Json → Prop where
  | items {js : List Json} (hne : js ≠ []) (h : ∀ j ∈ js, fine j) : IsListOf fine (.arr js)

inductive IsGroup : Json → Prop where
  | group {ms : Members} (hjunction : Names Junction (look ms "type"))
    (hrules : IsListOf IsRule (look ms "rules")) : IsGroup (.obj ms)

inductive IsAction : Json → Prop where
  | action {ms : Members} (hsignal : Names Signal (look ms "signal"))
    (houtcome : Names Outcome (look ms "outcome")) (hmode : Names SizeMode (look ms "size_mode"))
    (hsize : IsAtLeastOne (look ms "size_usdc"))
    (horder : Names OrderType (look ms "order_type")) : IsAction (.obj ms)

def IsLimit (j : Json) : Prop := j = .null ∨ IsPositive j

inductive IsRisk : Json → Prop where
  | risk {ms : Members} (hposition : IsAtLeastOne (look ms "max_position_usdc"))
    (htrades : IsAtLeastOne (look ms "max_trades_per_slot"))
    (hlimits : ∀ l ∈ RiskLimit.all, IsLimit (look ms l.name)) : IsRisk (.obj ms)

/-- A form has conditions, an action and a risk block. -/
inductive IsForm : Json → Prop where
  | form {ms : Members} (hmode : look ms "mode" = .str Mode.form.name)
    (hconditions : IsListOf IsGroup (look ms "conditions")) (haction : IsAction (look ms "action"))
    (hrisk : IsRisk (look ms "risk")) : IsForm (.obj ms)

/-! ### The check passes on this shape alone -/

theorem isWord_iff {w : String} {j : Json} : isWord w j = true ↔ j = .str w := by
  cases j with
  | str t => cases t <;> simp [isWord]
  | _ => simp [isWord]

theorem checkValue_eq_ok_iff {operator value : Json} :
    checkValue operator value = .ok () ↔
      (operator ≠ .str betweenWord ∧ IsNumber value) ∨
        (operator = .str betweenWord ∧ IsNumberPair value) := by
  unfold checkValue
  split
  · rename_i hword
    rw [ensure_eq_ok_iff, tests_numberPair.fine_iff]
    simp [isWord_iff.1 hword, betweenWord]
  · rename_i hword
    have hother : operator ≠ .str betweenWord := fun h => hword (isWord_iff.2 h)
    rw [ensure_eq_ok_iff, tests_number.fine_iff]
    simp [hother]

theorem names_betweenWord : Names Operator (.str betweenWord) := .word (by decide)

theorem checkRule_eq_ok_iff {j : Json} : checkRule j = .ok () ↔ IsRule j := by
  cases j with
  | obj ms =>
    simp only [checkRule, inOrder_cons_eq_ok_iff, inOrder_nil, and_true, ensure_eq_ok_iff,
      tests_listed.fine_iff, checkValue_eq_ok_iff]
    constructor
    · rintro ⟨hindicator, hoperator, ⟨hword, hvalue⟩ | ⟨hword, hvalue⟩⟩
      · exact .single hindicator hoperator hword hvalue
      · exact .range hindicator hword hvalue
    · rintro (⟨hindicator, hoperator, hword, hvalue⟩ | ⟨hindicator, hword, hvalue⟩)
      · exact ⟨hindicator, hoperator, Or.inl ⟨hword, hvalue⟩⟩
      · exact ⟨hindicator, hword ▸ names_betweenWord, Or.inr ⟨hword, hvalue⟩⟩
  | _ => constructor <;> intro h <;> cases h

theorem inOrder_mapIdx_eq_ok_iff {ε δ : Type} {f : Nat → ε → δ} {check : Json → Check ε}
    {fine : Json → Prop} (h : ∀ {j : Json}, check j = .ok () ↔ fine j) {js : List Json} :
    inOrder (js.mapIdx fun i j => within (f i) (check j)) = .ok () ↔ ∀ j ∈ js, fine j := by
  induction js generalizing f with
  | nil => simp [inOrder]
  | cons j js ih =>
    rw [List.mapIdx_cons, inOrder_cons_eq_ok_iff, within_eq_ok_iff, h, ih, List.forall_mem_cons]

theorem isListOf_iff {ε : Type} {whole : Json → Check ε} {fine : Json → Prop}
    (hitems : ∀ j js, whole (.arr (j :: js)) = .ok () ↔ ∀ k ∈ j :: js, fine k)
    (hlist : ∀ x, whole x = .ok () → ∃ j js, x = .arr (j :: js)) {x : Json} :
    whole x = .ok () ↔ IsListOf fine x := by
  constructor
  · intro h
    obtain ⟨j, js, rfl⟩ := hlist x h
    exact .items (List.cons_ne_nil j js) ((hitems j js).1 h)
  · rintro ⟨hne, hfine⟩
    obtain ⟨j, js, rfl⟩ := List.exists_cons_of_ne_nil hne
    exact (hitems j js).2 hfine

theorem checkRules_eq_ok_iff {j : Json} : checkRules j = .ok () ↔ IsListOf IsRule j := by
  refine isListOf_iff (fun _ _ => inOrder_mapIdx_eq_ok_iff checkRule_eq_ok_iff) fun x hx => ?_
  unfold checkRules at hx
  split at hx
  · exact ⟨_, _, rfl⟩
  · cases hx

theorem checkGroup_eq_ok_iff {j : Json} : checkGroup j = .ok () ↔ IsGroup j := by
  cases j with
  | obj ms =>
    simp only [checkGroup, inOrder_cons_eq_ok_iff, inOrder_nil, and_true, ensure_eq_ok_iff,
      Except.ok.injEq, isOneOf_iff, checkRules_eq_ok_iff]
    exact ⟨fun h => .group h.1 h.2, fun h => by cases h; exact ⟨‹_›, ‹_›⟩⟩
  | _ => constructor <;> intro h <;> cases h

theorem checkConditions_eq_ok_iff {j : Json} : checkConditions j = .ok () ↔ IsListOf IsGroup j := by
  refine isListOf_iff (fun _ _ => inOrder_mapIdx_eq_ok_iff checkGroup_eq_ok_iff) fun x hx => ?_
  unfold checkConditions at hx
  split at hx
  · exact ⟨_, _, rfl⟩
  · cases hx

theorem checkAction_eq_ok_iff {j : Json} : checkAction j = .ok () ↔ IsAction j := by
  cases j with
  | obj ms =>
    simp only [checkAction, inOrder_cons_eq_ok_iff, inOrder_nil, and_true, ensure_eq_ok_iff,
      Except.ok.injEq, isOneOf_iff, tests_atLeastOne.fine_iff]
    constructor
    · rintro ⟨hsignal, houtcome, hmode, hsize, horder⟩
      exact .action hsignal houtcome hmode hsize horder
    · rintro ⟨hsignal, houtcome, hmode, hsize, horder⟩
      exact ⟨hsignal, houtcome, hmode, hsize, horder⟩
  | _ => constructor <;> intro h <;> cases h

theorem checkLimit_eq_ok_iff {ms : Members} {l : RiskLimit} :
    checkLimit ms l = .ok () ↔ IsLimit (look ms l.name) := by
  unfold checkLimit IsLimit
  split
  · rename_i hnull
    simp [hnull]
  · rename_i hsome
    rw [ensure_eq_ok_iff, tests_positive.fine_iff, or_iff_right hsome]

theorem checkRisk_eq_ok_iff {j : Json} : checkRisk j = .ok () ↔ IsRisk j := by
  cases j with
  | obj ms =>
    rw [checkRisk, inOrder_cons_eq_ok_iff, inOrder_cons_eq_ok_iff, inOrder_eq_ok_iff]
    simp only [ensure_eq_ok_iff, tests_atLeastOne.fine_iff, List.forall_mem_map,
      checkLimit_eq_ok_iff]
    constructor
    · rintro ⟨hposition, htrades, hlimits⟩
      exact .risk hposition htrades hlimits
    · rintro ⟨hposition, htrades, hlimits⟩
      exact ⟨hposition, htrades, hlimits⟩
  | _ => constructor <;> intro h <;> cases h

theorem check_eq_ok_iff {j : Json} : check j = .ok () ↔ IsForm j := by
  cases j with
  | obj ms =>
    simp only [check, inOrder_cons_eq_ok_iff, inOrder_nil, and_true, ensure_eq_ok_iff,
      within_eq_ok_iff, Except.ok.injEq, isWord_iff, checkConditions_eq_ok_iff,
      checkAction_eq_ok_iff, checkRisk_eq_ok_iff]
    constructor
    · rintro ⟨hmode, hconditions, haction, hrisk⟩
      exact .form hmode hconditions haction hrisk
    · rintro ⟨hmode, hconditions, haction, hrisk⟩
      exact ⟨hmode, hconditions, haction, hrisk⟩
  | _ => constructor <;> intro h <;> cases h

end StrategyDesk.Form
