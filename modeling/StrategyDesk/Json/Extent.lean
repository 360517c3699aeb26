import StrategyDesk.Json.Basic

/-!
How far a value extends: the number of values that stand in one another, and the size of its whole
numbers. Values that extend too far cannot be copied, written or stored.
-/

set_option autoImplicit false

namespace StrategyDesk

/-- How far a call reaches before its stack ends: how many arrays and objects may stand in one
another in a text that it reads, and how many values in a form that it copies. The form is never
so small that a valid one without more values than it needs could not be copied. -/
structure Room where
  levels : Nat
  height : Nat
  ample : 8 ≤ height

/-- The room of a call near the start of a program. -/
def Room.direct : Room := ⟨985, 495, by decide⟩

namespace Json

mutual
/-- The number of values on the longest way into a value, with the value itself. -/
def height : Json → Nat
  | .arr items => itemsHeight items + 1
  | .obj members => membersHeight members + 1
  | _ => 1
termination_by structural j => j
def itemsHeight : List Json → Nat
  | [] => 0
  | j :: js => max (height j) (itemsHeight js)
termination_by structural js => js
def membersHeight : List (Text × Json) → Nat
  | [] => 0
  | m :: ms => max (memberHeight m) (membersHeight ms)
termination_by structural ms => ms
def memberHeight : Text × Json → Nat
  | (_, j) => height j
termination_by structural m => m
end

/-- How values are made ready to be written, where only so many may stand in one another. Torn names
may be spelled otherwise, or keep a value from being written. A value with whole names alone has
`null` for the numbers that are not finite, and is too high or it is not. -/
structure Dumper where
  dump (height : Nat) (j : Json) : Option Json
  dump_of_named {height : Nat} {j : Json} (h : j.allNamed = true) :
    dump height j = if j.height ≤ height then some j.finiteOrNull else none

def Dumper.strict : Dumper where
  dump height j :=
    if j.allNamed && decide (j.height ≤ height) then some j.finiteOrNull else none
  dump_of_named h := by simp [h]

def intsBelow (bound : Nat) : Json → Bool :=
  every
    (fun
      | .int n => decide (n.natAbs < bound)
      | _ => true)
    fun _ => true

theorem height_le_itemsHeight {js : List Json} {j : Json} (h : j ∈ js) :
    j.height ≤ itemsHeight js := by
  induction js with
  | nil => cases h
  | cons k js ih =>
    simp only [itemsHeight]
    rcases List.mem_cons.1 h with rfl | h
    · omega
    · have := ih h
      omega

theorem height_le_of_find? {ms : Members} {key : Text} {j : Json}
    (h : find? ms key = some j) : j.height ≤ membersHeight ms := by
  induction ms with
  | nil => simp [find?] at h
  | cons m ms ih =>
    obtain ⟨k, v⟩ := m
    simp only [membersHeight, memberHeight]
    by_cases hk : k = key
    · simp only [find?, hk, ↓reduceIte, Option.some.injEq] at h
      subst h
      omega
    · simp only [find?, hk, ↓reduceIte] at h
      have := ih h
      omega

theorem membersHeight_put_le (ms : Members) (key : Text) (v : Json) :
    membersHeight (put ms key v) ≤ max (membersHeight ms) v.height := by
  induction ms with
  | nil => simp [put, membersHeight, memberHeight]
  | cons m ms ih =>
    obtain ⟨k, w⟩ := m
    by_cases hk : k = key <;> simp only [put, hk, ↓reduceIte, membersHeight, memberHeight] <;> omega

example : (Json.arr [.arr [], .int 1]).height = 2 := by decide +kernel

end Json

end StrategyDesk
