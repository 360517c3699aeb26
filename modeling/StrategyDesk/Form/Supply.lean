import StrategyDesk.Proofs.Digits

/-!
Where ids come from. A supply is endless, gives no id twice and no empty one; nothing else is
known of the ids that it gives.
-/

set_option autoImplicit false

namespace StrategyDesk.Form
open Text

/-- The ids to come. -/
@[ext]
structure Supply where
  id : Nat → String
  distinct {m n : Nat} : id m = id n → m = n
  nonempty (n : Nat) : (id n).isEmpty = false

namespace Supply

def drop (s : Supply) (count : Nat) : Supply where
  id n := s.id (count + n)
  distinct h := Nat.add_left_cancel (s.distinct h)
  nonempty n := s.nonempty (count + n)

def take (s : Supply) (count : Nat) : List String := (List.range count).map s.id

def first (s : Supply) : String := s.id 0

def rest (s : Supply) : Supply := s.drop 1

@[simp]
theorem drop_zero (s : Supply) : s.drop 0 = s :=
  Supply.ext (funext fun n => congrArg s.id (Nat.zero_add n))

theorem drop_drop (s : Supply) (k l : Nat) : (s.drop k).drop l = s.drop (k + l) :=
  Supply.ext (funext fun n => congrArg s.id (Nat.add_assoc k l n).symm)

@[simp]
theorem length_take (s : Supply) (count : Nat) : (s.take count).length = count := by simp [take]

theorem take_append (s : Supply) (k l : Nat) :
    s.take k ++ (s.drop k).take l = s.take (k + l) := by
  rw [take, take, take, List.range_add, List.map_append, List.map_map]
  rfl

theorem isEmpty_of_mem_take {s : Supply} {count : Nat} {id : String} (h : id ∈ s.take count) :
    id.isEmpty = false := by
  obtain ⟨n, -, rfl⟩ := List.mem_map.1 h
  exact s.nonempty n

end Supply

/-! ### Counted ids -/

def hexText (width n : Nat) : String :=
  let digits := Nat.toDigits 16 n
  String.ofList (List.replicate (width - digits.length) '0' ++ digits)

/-- The id with a number: a UUID of version 4 that ends in it. -/
def idText (n : Nat) : String := "00000000-0000-4000-8000-" ++ hexText 12 n

theorem inDigits_hexText (width n : Nat) : InDigits hexDigit? 16 (hexText width n).toList n := by
  have hdigits : InDigits hexDigit? 16 (Nat.toDigits 16 n) n := .toDigits (by decide) (by decide) n
  rw [hexText, String.toList_ofList]
  exact hdigits.zeros rfl _

theorem idText_inj {m n : Nat} (h : idText m = idText n) : m = n := by
  unfold idText at h
  have hm := inDigits_hexText 12 m
  rw [(String.append_right_inj _).1 h] at hm
  exact hm.unique (inDigits_hexText 12 n)

theorem isEmpty_idText (n : Nat) : (idText n).isEmpty = false := by
  unfold idText
  simp

def Supply.counted : Supply where
  id n := idText (n + 1)
  distinct {m n} h := by
    have hnext : m + 1 = n + 1 := idText_inj h
    exact Nat.add_right_cancel hnext
  nonempty n := isEmpty_idText (n + 1)

example : Supply.counted.take 2 = ["00000000-0000-4000-8000-000000000001",
    "00000000-0000-4000-8000-000000000002"] := by decide +kernel
example : idText 31 = "00000000-0000-4000-8000-00000000001f" := by decide +kernel

end StrategyDesk.Form
