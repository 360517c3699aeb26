import StrategyDesk.Proofs.Limits
import StrategyDesk.Proofs.Readings
import StrategyDesk.Service.Command

set_option autoImplicit false

namespace StrategyDesk

namespace Double

theorem signed_eq_mul_iff {negative : Bool} {units s : ℕ} {n : ℤ} (hs : 0 < s) :
    signed negative units = n * s ↔ signed negative (units / s) = n ∧ units % s = 0 := by
  by_cases hdvd : s ∣ units
  · obtain ⟨k, rfl⟩ := hdvd
    have hcast : signed negative (s * k) = signed negative k * s := by
      cases negative <;> simp [signed, mul_comm]
    have hpos : (s : ℤ) ≠ 0 := by exact_mod_cast Nat.ne_of_gt hs
    rw [hcast, Nat.mul_div_cancel_left k hs, mul_left_inj' hpos, Nat.mul_mod_right]
    simp
  · refine iff_of_false (fun h => hdvd ?_) fun h => hdvd (Nat.dvd_of_mod_eq_zero h.2)
    have hsigned : (s : ℤ) ∣ signed negative units := ⟨n, by rw [h, mul_comm]⟩
    cases negative with
    | true => exact Int.natCast_dvd_natCast.1 (Int.dvd_neg.1 hsigned)
    | false => exact Int.natCast_dvd_natCast.1 hsigned

theorem value?_eq_intCast_iff {d : Double} {n : ℤ} :
    d.value? = some (n : ℚ) ↔ d.truncate? = some n ∧ d.isWhole = true := by
  cases d with
  | finite negative units =>
    have hscale : (scale : ℚ) ≠ 0 := by exact_mod_cast Nat.ne_of_gt scale_pos
    have hunits : (signed negative units / scale : ℚ) = n ↔ signed negative units = n * scale := by
      rw [div_eq_iff hscale]
      exact_mod_cast Iff.rfl
    simp only [value?, truncate?, isWhole, Option.some.injEq, beq_iff_eq, hunits,
      signed_eq_mul_iff scale_pos]
  | _ => simp [value?, truncate?, isWhole]

theorem ofInt?_eq_some_iff {n : ℤ} {d : Double} :
    ofInt? n = some d ↔ ofInt n = d ∧ d.isFinite = true := by
  unfold ofInt?
  dsimp only
  generalize ofInt n = e
  constructor
  · intro h
    split at h
    · rename_i hfinite
      cases h
      exact ⟨rfl, hfinite⟩
    · cases h
  · rintro ⟨rfl, hfinite⟩
    exact if_pos hfinite

end Double

namespace Service
open Json Reading Reader

/-! ### Values of fields -/

/-- The whole number that a value means. -/
inductive MeansInt : Json → ℤ → Prop where
  | int (n : ℤ) : MeansInt (.int n) n
  | bool (b : Bool) : MeansInt (.bool b) (if b then 1 else 0)
  | double {d : Double} {n : ℤ} (h : d.value? = some (n : ℚ)) (hn : -2 ^ 63 < n ∧ n < 2 ^ 63) :
    MeansInt (.double d) n
  | numeral {s : String} {n : ℤ} (h : Numeral.narrowInt s = .ok n) : MeansInt (.str s) n

def truthWords : Bool → List String
  | true => ["1", "on", "t", "true", "y", "yes"]
  | false => ["0", "off", "f", "false", "n", "no"]

/-- The truth value that a value means. -/
inductive MeansTruth : Json → Bool → Prop where
  | bool (b : Bool) : MeansTruth (.bool b) b
  | int (b : Bool) : MeansTruth (.int (if b then 1 else 0)) b
  | double {d : Double} {b : Bool} (h : d.value? = some (if b then 1 else 0)) :
    MeansTruth (.double d) b
  | word {s : String} {b : Bool} (h : String.ofList (s.toList.map Char.toLower) ∈ truthWords b) :
    MeansTruth (.str s) b

/-- The double that a value means; a whole number means the nearest one. -/
inductive MeansNumber : Json → Double → Prop where
  | double (d : Double) : MeansNumber (.double d) d
  | bool (b : Bool) : MeansNumber (.bool b) (.ofInt (if b then 1 else 0))
  | int {n : ℤ} {d : Double} (h : Double.ofInt n = d) (hd : d.isFinite = true) :
    MeansNumber (.int n) d
  | numeral {s : String} {d : Double} (h : Numeral.narrowDouble? s = some d) :
    MeansNumber (.str s) d

/-- The number between the bounds of a limit that a value means. -/
structure MeansLimit (j : Json) (d : Double) : Prop where
  number : MeansNumber j d
  bounds : ∃ x, d.value? = some x ∧ 1 ≤ x ∧ x ≤ 1000000

def MeansText (j : Json) (t : Text) : Prop := j = .str t

structure MeansName (j : Json) (s : String) : Prop where
  text : j = .str s
  length : 1 ≤ s.length ∧ s.length ≤ 255

def MeansObject (j k : Json) : Prop := k = j ∧ ∃ ms, j = .obj ms

inductive MeansList {α : Type} (means : Json → α → Prop) : Json → List α → Prop where
  | items {js : List Json} {xs : List α} (h : List.Forall₂ means js xs) :
    MeansList means (.arr js) xs

/-- A value or `null`. -/
inductive MeansOption {α : Type} (means : Json → α → Prop) : Json → Option α → Prop where
  | null : MeansOption means .null none
  | value {j : Json} {a : α} (hj : j ≠ .null) (h : means j a) : MeansOption means j (some a)

section Members

variable {α : Type}

def Gives (ms : Members) (key : String) (means : Json → α → Prop) (a : α) : Prop :=
  ∃ j, find? ms key = some j ∧ means j a

/-- A member means the value, which is the default where the member is absent. -/
def GivesOr (ms : Members) (key : String) (means : Json → α → Prop) (default a : α) : Prop :=
  Gives ms key means a ∨ find? ms key = none ∧ a = default

end Members

/-! ### Readers of fields -/

section Readers

variable {α : Type} {r : Reader α} {ms : Members} {key : String}

def Reads (r : Reader α) (j : Json) (a : α) : Prop := r j = .value a

theorem field_eq_value_iff {a : α} : field ms key r = .value a ↔ Gives ms key (Reads r) a := by
  simp only [field, under_eq_value_iff, Gives, Reads]
  cases find? ms key <;> simp [wrong]

theorem fieldOr_eq_value_iff {default a : α} :
    fieldOr ms key default r = .value a ↔ GivesOr ms key (Reads r) default a := by
  simp only [fieldOr, GivesOr, Gives, Reads]
  cases find? ms key with
  | none => simp [eq_comm]
  | some j => simp [under_eq_value_iff]

theorem reads_optional (r : Reader α) : Reads (optional r) = MeansOption (Reads r) := by
  funext j o
  refine propext ⟨fun h => ?_, fun h => ?_⟩
  · by_cases hj : j = .null
    · subst hj
      cases h
      exact .null
    · have hmap : (r j).map some = .value o := by
        cases j with
        | null => exact absurd rfl hj
        | _ => exact h
      obtain ⟨a, ha, rfl⟩ := map_eq_value_iff.1 hmap
      exact .value hj ha
  · cases h with
    | null => rfl
    | @value _ a hj h =>
      have hmap : (r j).map some = .value (some a) := map_eq_value_iff.2 ⟨a, h, rfl⟩
      cases j with
      | null => exact absurd rfl hj
      | _ => exact hmap

theorem reads_list (r : Reader α) : Reads (list r) = MeansList (Reads r) := by
  funext j xs
  refine propext (list_eq_value_iff.trans ⟨?_, ?_⟩)
  · rintro ⟨js, rfl, h⟩
    exact .items h
  · rintro ⟨h⟩
    exact ⟨_, rfl, h⟩

end Readers

theorem reads_text : Reads text = MeansText := by
  funext j t
  exact propext text_eq_value_iff

theorem reads_nameText : Reads nameText = MeansName := by
  funext j s
  refine propext ⟨fun h => ?_, fun h => ?_⟩
  · unfold Reads nameText textWithin at h
    split at h
    · split at h
      · cases h
      · split at h
        · cases h
        · cases h
          exact ⟨rfl, by omega, by rename_i hmost; rw [maxName] at hmost; omega⟩
    · cases h
    · cases h
  · obtain ⟨rfl, hleast, hmost⟩ := h
    rw [Reads, nameText, textWithin, if_neg (by omega), if_neg (by rw [maxName]; omega)]

theorem reads_graphObject : Reads graphObject = MeansObject := by
  funext j g
  refine propext ⟨fun h => ?_, fun h => ?_⟩
  · obtain ⟨ms, hms, rfl⟩ := map_eq_value_iff.1 h
    obtain rfl := object_eq_value_iff.1 hms
    exact ⟨rfl, ms, rfl⟩
  · obtain ⟨rfl, ms, rfl⟩ := h
    rfl

theorem ofInt_bool (b : Bool) :
    Double.ofInt (if b then 1 else 0) = if b then .one else .zero := by
  cases b <;> decide +kernel

theorem reads_number : Reads number = MeansNumber := by
  funext j d
  refine propext ⟨fun h => ?_, fun h => ?_⟩
  · unfold Reads number at h
    split at h
    · cases h
      exact .double d
    · cases h
      rw [← ofInt_bool]
      exact .bool _
    · split at h
      · rename_i e he
        cases h
        obtain ⟨hnearest, hfinite⟩ := Double.ofInt?_eq_some_iff.1 he
        exact .int hnearest hfinite
      · cases h
    · split at h
      · rename_i hs
        cases h
        exact .numeral hs
      · cases h
    · cases h
    · cases h
  · cases h with
    | double => rfl
    | bool b => rw [ofInt_bool]; rfl
    | int h hd => exact number_int (Double.ofInt?_eq_some_iff.2 ⟨h, hd⟩)
    | numeral h => exact number_numeral h

theorem bounds_iff {d : Double} :
    (Double.ofInt Limit.least).le d = true ∧ d.le (.ofInt Limit.most) = true ↔
      ∃ x, d.value? = some x ∧ 1 ≤ x ∧ x ≤ 1000000 := by
  constructor
  · intro h
    have htakes : Limit.Takes (.double d) d := ⟨congrArg Except.ok (Bool.and_eq_true_iff.2 h), rfl⟩
    obtain ⟨x, hx, hlow, hhigh, -⟩ := htakes.roundsTo
    exact ⟨x, hx, hlow, hhigh⟩
  · rintro ⟨x, hx, hlow, hhigh⟩
    obtain ⟨_, htakes⟩ := Limit.exists_takes (j := .double d) hx hlow hhigh
    exact Bool.and_eq_true_iff.1 (Except.ok.inj htakes.inRange)

theorem numberBetween_limit_iff {j : Json} {d : Double} :
    numberBetween Limit.least Limit.most j = .value d ↔ MeansLimit j d := by
  rw [numberBetween_eq_value_iff, and_comm (a := d.le _ = true), bounds_iff]
  change Reads number j d ∧ _ ↔ _
  rw [reads_number]
  exact ⟨fun h => ⟨h.1, h.2⟩, fun h => ⟨h.number, h.bounds⟩⟩

theorem reads_limitNumber : Reads limitNumber = fun j k => ∃ d, MeansLimit j d ∧ .double d = k := by
  funext j k
  simp only [Reads, limitNumber, ← numberBetween_limit_iff]
  exact propext map_eq_value_iff

theorem truthWord?_eq_some_iff {s : String} {b : Bool} :
    truthWord? s = some b ↔ String.ofList (s.toList.map Char.toLower) ∈ truthWords b := by
  unfold truthWord? Numeral.lowerAscii
  generalize String.ofList (s.toList.map Char.toLower) = t
  split <;> cases b <;> simp_all [truthWords]

theorem truthOfInt?_eq_some_iff {n : ℤ} {b : Bool} :
    truthOfInt? n = some b ↔ n = if b then 1 else 0 := by
  unfold truthOfInt?
  by_cases hzero : n = 0
  · subst hzero
    cases b <;> simp
  · by_cases hone : n = 1
    · subst hone
      cases b <;> simp
    · cases b <;> simp [hzero, hone]

theorem value?_eq_truth_iff {d : Double} {b : Bool} :
    d.value? = some (if b then 1 else 0) ↔ ∃ n : ℤ, d.truncate? = some n ∧ d.isWhole = true ∧
      truthOfInt? n = some b := by
  have hcast : (if b then 1 else 0 : ℚ) = ((if b then 1 else 0 : ℤ) : ℚ) := by cases b <;> simp
  rw [hcast, Double.value?_eq_intCast_iff]
  simp only [truthOfInt?_eq_some_iff]
  constructor
  · rintro ⟨h, hwhole⟩
    exact ⟨_, h, hwhole, rfl⟩
  · rintro ⟨_, h, hwhole, rfl⟩
    exact ⟨h, hwhole⟩

theorem reads_boolean : Reads boolean = MeansTruth := by
  funext j b
  refine propext ⟨fun h => ?_, fun h => ?_⟩
  · unfold Reads boolean at h
    split at h
    · cases h
      exact .bool b
    · split at h
      · rename_i hs
        cases h
        exact .word (truthWord?_eq_some_iff.1 hs)
      · cases h
    · cases h
    · split at h
      · rename_i hn
        cases h
        rw [truthOfInt?_eq_some_iff.1 hn]
        exact .int b
      · cases h
    · split at h
      · cases h
      · rename_i n hn
        split at h
        · rename_i hfits
          split at h
          · rename_i htruth
            cases h
            exact .double (value?_eq_truth_iff.2
              ⟨n, hn, (Bool.and_eq_true_iff.1 hfits).1, htruth⟩)
          · cases h
        · cases h
    · cases h
  · cases h with
    | bool => rfl
    | int => simp only [Reads, boolean, truthOfInt?_eq_some_iff.2 rfl]
    | double h =>
      obtain ⟨n, hn, hwhole, htruth⟩ := value?_eq_truth_iff.1 h
      have hsmall : decide (-wordBound < n ∧ n < wordBound) = true := by
        rw [truthOfInt?_eq_some_iff.1 htruth]
        cases b <;> decide
      simp only [Reads, boolean, hn, hwhole, hsmall, Bool.and_self, if_true, htruth]
    | word h => simp only [Reads, boolean, truthWord?_eq_some_iff.2 h]

theorem reads_integer : Reads integer = MeansInt := by
  funext j n
  refine propext ⟨fun h => ?_, fun h => ?_⟩
  · unfold Reads integer at h
    split at h
    · cases h
      exact .int n
    · cases h
      exact .bool _
    · split at h
      · cases h
      · rename_i m hm
        split at h
        · cases h
        · rename_i hwhole
          obtain ⟨rfl, hbounds⟩ := require_eq_value_iff.1 h
          exact .double (Double.value?_eq_intCast_iff.2 ⟨hm, by simpa using hwhole⟩)
            (of_decide_eq_true hbounds)
    · split at h
      · rename_i hs
        cases h
        exact .numeral hs
      · cases h
      · cases h
    · cases h
    · cases h
  · cases h with
    | int | bool => rfl
    | double h hn =>
      obtain ⟨htruncate, hwhole⟩ := Double.value?_eq_intCast_iff.1 h
      simp only [Reads, integer, htruncate, hwhole]
      exact require_eq_value_iff.2 ⟨rfl, decide_eq_true hn⟩
    | numeral h => simp only [Reads, integer, h]

end Service

end StrategyDesk
