import StrategyDesk.Json.Basic

/-!
Values that are the same although they may be written differently. Numbers are compared by what
they count, with `false` and `true` as zero and one, so `1`, `1.0` and `true` are the same, and
there is one NaN only; objects are compared without regard to the order of their members.
-/

set_option autoImplicit false

namespace StrategyDesk.Json

/-- A number as a whole one if it is whole, or else as it is. -/
inductive Count where
  | whole (n : Int)
  | other (d : Double)

def count? : Json → Option Count
  | .bool b => some (.whole (if b then 1 else 0))
  | .int n => some (.whole n)
  | .double d =>
    match d.truncate? with
    | some n => some (if d.isWhole then .whole n else .other d)
    | none => some (.other d)
  | _ => none

def Count.same : Count → Count → Bool
  | .whole m, .whole n => m == n
  | .other c, .other d => c.same d || (c == .nan && d == .nan)
  | _, _ => false

def sameScalar (a b : Json) : Bool :=
  match count? a, count? b with
  | some m, some n => m.same n
  | none, none => a == b
  | _, _ => false

mutual
/-- Whether two values are the same. -/
def same : Json → Json → Bool
  | .arr items, j =>
    match j with
    | .arr others => sameItems items others
    | _ => false
  | .obj members, j =>
    match j with
    | .obj others => members.length == others.length && sameMembers members others
    | _ => false
  | i, j => sameScalar i j
termination_by structural j => j
def sameItems : List Json → List Json → Bool
  | [], others => others.isEmpty
  | j :: js, others =>
    match others with
    | [] => false
    | other :: rest => same j other && sameItems js rest
termination_by structural js => js
def sameMembers : List (Text × Json) → Members → Bool
  | [], _ => true
  | m :: ms, others => sameMember m others && sameMembers ms others
termination_by structural ms => ms
def sameMember : Text × Json → Members → Bool
  | (k, j), others =>
    match find? others k with
    | some other => same j other
    | none => false
termination_by structural m => m
end

theorem eq_of_same_str {s : Text} {j : Json} (h : same (.str s) j = true) : j = .str s := by
  simp only [same, sameScalar, count?] at h
  split at h
  · rename_i hnone _
    cases hnone
  · exact (eq_of_beq h).symm
  · cases h

theorem find?_of_sameMembers {ms others : Members} {key : Text} {j : Json}
    (h : sameMembers ms others = true) (hj : find? ms key = some j) :
    ∃ other, find? others key = some other ∧ same j other = true := by
  induction ms with
  | nil => cases hj
  | cons m ms ih =>
    obtain ⟨k, v⟩ := m
    simp only [sameMembers, Bool.and_eq_true] at h
    by_cases hk : k = key
    · simp only [find?, hk, ↓reduceIte, Option.some.injEq] at hj
      subst hk hj
      have hm := h.1
      simp only [sameMember] at hm
      split at hm
      · rename_i other hother
        exact ⟨other, hother, hm⟩
      · cases hm
    · simp only [find?, hk, ↓reduceIte] at hj
      exact ih h.2 hj

example : same (.int 50) (.double (.ofInt 50)) = true := by decide +kernel
example : same (.bool true) (.int 1) = true := by decide +kernel
example : same (.arr [.double .nan, .int 1]) (.arr [.double .nan, .bool true]) = true := by
  decide +kernel

end StrategyDesk.Json
