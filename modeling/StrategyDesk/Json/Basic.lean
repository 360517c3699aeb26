import StrategyDesk.Number.Double
import StrategyDesk.Text.Points

/-!
JSON values. Numbers keep their kind: a numeral without fraction and exponent is an unbounded
whole number, any other a binary64 value. An object is its members in the order they were first
written; lookups find the first member of a name, and `put` keeps its place.
-/

set_option autoImplicit false

namespace StrategyDesk

inductive Json where
  | null
  | bool (value : Bool)
  | int (value : Int)
  | double (value : Double)
  | str (value : Text)
  | arr (items : List Json)
  | obj (members : List (Text × Json))
  deriving Repr, Inhabited

namespace Json

mutual
/-- Whether two values are written alike. -/
def beq : Json → Json → Bool
  | .arr items, j =>
    match j with
    | .arr others => itemsBeq items others
    | _ => false
  | .obj members, j =>
    match j with
    | .obj others => membersBeq members others
    | _ => false
  | .null, j =>
    match j with
    | .null => true
    | _ => false
  | .bool b, j =>
    match j with
    | .bool c => b == c
    | _ => false
  | .int m, j =>
    match j with
    | .int n => m == n
    | _ => false
  | .double c, j =>
    match j with
    | .double d => c == d
    | _ => false
  | .str s, j =>
    match j with
    | .str t => s == t
    | _ => false
termination_by structural j => j
def itemsBeq : List Json → List Json → Bool
  | [], others => others.isEmpty
  | j :: js, others =>
    match others with
    | [] => false
    | other :: rest => beq j other && itemsBeq js rest
termination_by structural js => js
def membersBeq : List (Text × Json) → List (Text × Json) → Bool
  | [], others => others.isEmpty
  | m :: ms, others =>
    match others with
    | [] => false
    | other :: rest => memberBeq m other && membersBeq ms rest
termination_by structural ms => ms
def memberBeq : Text × Json → Text × Json → Bool
  | (k, j), other => k == other.1 && beq j other.2
termination_by structural m => m
end

instance : BEq Json := ⟨beq⟩

mutual
protected theorem eq_of_beq {a b : Json} (h : beq a b = true) : a = b := by
  cases a with
  | arr items =>
    cases b with
    | arr others => exact congrArg arr (eq_of_itemsBeq h)
    | _ => cases h
  | obj members =>
    cases b with
    | obj others => exact congrArg obj (eq_of_membersBeq h)
    | _ => cases h
  | _ => cases b <;> simp_all [beq]
termination_by structural a
theorem eq_of_itemsBeq {js ks : List Json} (h : itemsBeq js ks = true) : js = ks := by
  cases js with
  | nil => simpa [itemsBeq] using h.symm
  | cons j js =>
    cases ks with
    | nil => cases h
    | cons k ks =>
      simp only [itemsBeq, Bool.and_eq_true] at h
      rw [Json.eq_of_beq h.1, eq_of_itemsBeq h.2]
termination_by structural js
theorem eq_of_membersBeq {ms ns : List (Text × Json)} (h : membersBeq ms ns = true) :
    ms = ns := by
  cases ms with
  | nil => simpa [membersBeq] using h.symm
  | cons m ms =>
    cases ns with
    | nil => cases h
    | cons n ns =>
      simp only [membersBeq, Bool.and_eq_true] at h
      rw [eq_of_memberBeq h.1, eq_of_membersBeq h.2]
termination_by structural ms
theorem eq_of_memberBeq {m n : Text × Json} (h : memberBeq m n = true) : m = n := by
  obtain ⟨k, j⟩ := m
  simp only [memberBeq, Bool.and_eq_true, beq_iff_eq] at h
  rw [h.1, Json.eq_of_beq h.2]
termination_by structural m
end

mutual
protected theorem beq_refl (j : Json) : beq j j = true := by
  cases j with
  | arr items => exact itemsBeq_refl items
  | obj members => exact membersBeq_refl members
  | _ => simp [beq]
termination_by structural j
theorem itemsBeq_refl (js : List Json) : itemsBeq js js = true := by
  cases js with
  | nil => rfl
  | cons j js => simp [itemsBeq, Json.beq_refl j, itemsBeq_refl js]
termination_by structural js
theorem membersBeq_refl (ms : List (Text × Json)) : membersBeq ms ms = true := by
  cases ms with
  | nil => rfl
  | cons m ms => simp [membersBeq, memberBeq_refl m, membersBeq_refl ms]
termination_by structural ms
theorem memberBeq_refl (m : Text × Json) : memberBeq m m = true := by
  obtain ⟨k, j⟩ := m
  simp [memberBeq, Json.beq_refl j]
termination_by structural m
end

instance : LawfulBEq Json where
  eq_of_beq := Json.eq_of_beq
  rfl {j} := Json.beq_refl j

instance : DecidableEq Json := instDecidableEqOfLawfulBEq

abbrev Members := List (Text × Json)

def find? : Members → Text → Option Json
  | [], _ => none
  | (k, v) :: ms, key => if k = key then some v else find? ms key

/-- The value of a member, where an absent one counts as `null`. -/
def look (ms : Members) (key : Text) : Json := (find? ms key).getD .null

theorem find?_of_look {ms : Members} {key : Text} {j : Json} (h : look ms key = j)
    (hj : j ≠ .null) : find? ms key = some j := by
  subst h
  unfold look at hj ⊢
  cases hkey : find? ms key with
  | none => exact absurd (by rw [hkey]; rfl) hj
  | some k => rfl

theorem look_of_find? {ms : Members} {key : Text} {j : Json} (h : find? ms key = some j) :
    look ms key = j := by
  rw [look, h, Option.getD_some]

theorem mem_of_find? {ms : Members} {key : Text} {j : Json} (h : find? ms key = some j) :
    (key, j) ∈ ms := by
  induction ms with
  | nil => simp [find?] at h
  | cons m ms ih =>
    obtain ⟨k, v⟩ := m
    by_cases hk : k = key
    · simp only [find?, hk, ↓reduceIte, Option.some.injEq] at h
      subst hk h
      exact List.mem_cons_self
    · simp only [find?, hk, ↓reduceIte] at h
      exact List.mem_cons_of_mem _ (ih h)

/-- Gives a member a value, in its old place or else at the end. -/
def put : Members → Text → Json → Members
  | [], key, v => [(key, v)]
  | (k, w) :: ms, key, v => if k = key then (k, v) :: ms else (k, w) :: put ms key v

theorem find?_put (ms : Members) (key other : Text) (v : Json) :
    find? (put ms key v) other = if key = other then some v else find? ms other := by
  induction ms with
  | nil => simp [put, find?]
  | cons m ms ih =>
    obtain ⟨k, w⟩ := m
    by_cases hk : k = key
    · subst hk
      by_cases ho : k = other <;> simp [put, find?, ho]
    · by_cases ho : k = other
      · subst ho
        simp [put, find?, hk, Ne.symm hk]
      · simp [put, find?, hk, ho, ih]

@[simp]
theorem look_put_self (ms : Members) (key : Text) (v : Json) : look (put ms key v) key = v :=
  look_of_find? (by rw [find?_put, if_pos rfl])

theorem put_find? {ms : Members} {key : Text} {v : Json} (h : find? ms key = some v) :
    put ms key v = ms := by
  induction ms with
  | nil => simp [find?] at h
  | cons m ms ih =>
    obtain ⟨k, w⟩ := m
    by_cases hk : k = key
    · simp only [find?, hk, ↓reduceIte, Option.some.injEq] at h
      simp [put, hk, h]
    · simp only [find?, hk, ↓reduceIte] at h
      simp [put, hk, ih h]

/-- Absent, `null`, zero, `false` and empty values count as missing. -/
def isEmpty : Json → Bool
  | .null => true
  | .bool b => !b
  | .int n => n == 0
  | .double d => d.isZero
  | .str s => s.isEmpty
  | .arr items => items.isEmpty
  | .obj members => members.isEmpty

def isNull : Json → Bool
  | .null => true
  | _ => false

mutual
/-- Whether the values that hold no others pass one test and the names of members another. -/
def every (leaf : Json → Bool) (name : Text → Bool) : Json → Bool
  | .arr items => itemsEvery leaf name items
  | .obj members => membersEvery leaf name members
  | j => leaf j
termination_by structural j => j
def itemsEvery (leaf : Json → Bool) (name : Text → Bool) : List Json → Bool
  | [] => true
  | j :: js => every leaf name j && itemsEvery leaf name js
termination_by structural js => js
def membersEvery (leaf : Json → Bool) (name : Text → Bool) : List (Text × Json) → Bool
  | [] => true
  | m :: ms => memberEvery leaf name m && membersEvery leaf name ms
termination_by structural ms => ms
def memberEvery (leaf : Json → Bool) (name : Text → Bool) : Text × Json → Bool
  | (k, j) => name k && every leaf name j
termination_by structural m => m
end

section Every

variable {leaf : Json → Bool} {name : Text → Bool}

theorem itemsEvery_iff {js : List Json} :
    itemsEvery leaf name js = true ↔ ∀ j ∈ js, j.every leaf name = true := by
  induction js with
  | nil => simp [itemsEvery]
  | cons j js ih => simp [itemsEvery, ih]

theorem membersEvery_iff {ms : Members} :
    membersEvery leaf name ms = true ↔
      ∀ m ∈ ms, name m.1 = true ∧ m.2.every leaf name = true := by
  induction ms with
  | nil => simp [membersEvery]
  | cons m ms ih =>
    obtain ⟨k, j⟩ := m
    simp [membersEvery, memberEvery, ih]

theorem membersEvery_put {ms : Members} {key : Text} {v : Json}
    (hms : membersEvery leaf name ms = true) (hkey : name key = true)
    (hv : v.every leaf name = true) : membersEvery leaf name (put ms key v) = true := by
  induction ms with
  | nil => simp [put, membersEvery, memberEvery, hkey, hv]
  | cons m ms ih =>
    obtain ⟨k, w⟩ := m
    simp only [membersEvery, memberEvery, Bool.and_eq_true] at hms
    by_cases hk : k = key
    · simp [put, hk, membersEvery, memberEvery, hkey, hv, hms.2]
    · simp [put, hk, membersEvery, memberEvery, hms.1, ih hms.2]

mutual
theorem every_mono {leaf' : Json → Bool} {name' : Text → Bool}
    (hleaf : ∀ j, leaf j = true → leaf' j = true) (hname : ∀ k, name k = true → name' k = true)
    {j : Json} (h : j.every leaf name = true) : j.every leaf' name' = true := by
  cases j with
  | arr items => exact itemsEvery_mono hleaf hname h
  | obj members => exact membersEvery_mono hleaf hname h
  | _ => exact hleaf _ h
termination_by structural j
theorem itemsEvery_mono {leaf' : Json → Bool} {name' : Text → Bool}
    (hleaf : ∀ j, leaf j = true → leaf' j = true) (hname : ∀ k, name k = true → name' k = true)
    {js : List Json} (h : itemsEvery leaf name js = true) : itemsEvery leaf' name' js = true := by
  cases js with
  | nil => rfl
  | cons j js =>
    simp only [itemsEvery, Bool.and_eq_true] at h ⊢
    exact ⟨every_mono hleaf hname h.1, itemsEvery_mono hleaf hname h.2⟩
termination_by structural js
theorem membersEvery_mono {leaf' : Json → Bool} {name' : Text → Bool}
    (hleaf : ∀ j, leaf j = true → leaf' j = true) (hname : ∀ k, name k = true → name' k = true)
    {ms : List (Text × Json)} (h : membersEvery leaf name ms = true) :
    membersEvery leaf' name' ms = true := by
  cases ms with
  | nil => rfl
  | cons m ms =>
    simp only [membersEvery, Bool.and_eq_true] at h ⊢
    exact ⟨memberEvery_mono hleaf hname h.1, membersEvery_mono hleaf hname h.2⟩
termination_by structural ms
theorem memberEvery_mono {leaf' : Json → Bool} {name' : Text → Bool}
    (hleaf : ∀ j, leaf j = true → leaf' j = true) (hname : ∀ k, name k = true → name' k = true)
    {m : Text × Json} (h : memberEvery leaf name m = true) : memberEvery leaf' name' m = true := by
  obtain ⟨k, j⟩ := m
  simp only [memberEvery, Bool.and_eq_true] at h ⊢
  exact ⟨hname k h.1, every_mono hleaf hname h.2⟩
termination_by structural m
end

end Every

def isFiniteLeaf : Json → Bool
  | .double d => d.isFinite
  | _ => true

def allFinite : Json → Bool := every isFiniteLeaf fun _ => true

def itemsFinite : List Json → Bool := itemsEvery isFiniteLeaf fun _ => true

def membersFinite : Members → Bool := membersEvery isFiniteLeaf fun _ => true

def isWholeLeaf : Json → Bool
  | .str t => !t.isTorn
  | _ => true

/-- Whether no text in the value is torn, the names of members among them. -/
def allWhole : Json → Bool := every isWholeLeaf fun k => !k.isTorn

def itemsWhole : List Json → Bool := itemsEvery isWholeLeaf fun k => !k.isTorn

def membersWhole : Members → Bool := membersEvery isWholeLeaf fun k => !k.isTorn

def allNamed : Json → Bool := every (fun _ => true) fun k => !k.isTorn

theorem allNamed_of_allWhole {j : Json} (h : j.allWhole = true) : j.allNamed = true :=
  every_mono (fun _ _ => rfl) (fun _ hk => hk) h

theorem itemsWhole_iff {js : List Json} : itemsWhole js = true ↔ ∀ j ∈ js, j.allWhole = true :=
  itemsEvery_iff

theorem membersWhole_put {ms : Members} {key : String} {v : Json} (hms : membersWhole ms = true)
    (hv : v.allWhole = true) : membersWhole (put ms key v) = true :=
  membersEvery_put hms rfl hv

mutual
def finiteOrNull : Json → Json
  | .double d => if d.isFinite then .double d else .null
  | .arr items => .arr (itemsFiniteOrNull items)
  | .obj members => .obj (membersFiniteOrNull members)
  | j => j
termination_by structural j => j
def itemsFiniteOrNull : List Json → List Json
  | [] => []
  | j :: js => finiteOrNull j :: itemsFiniteOrNull js
termination_by structural js => js
def membersFiniteOrNull : List (Text × Json) → List (Text × Json)
  | [] => []
  | m :: ms => memberFiniteOrNull m :: membersFiniteOrNull ms
termination_by structural ms => ms
def memberFiniteOrNull : Text × Json → Text × Json
  | (k, j) => (k, finiteOrNull j)
termination_by structural m => m
end

end Json

end StrategyDesk
