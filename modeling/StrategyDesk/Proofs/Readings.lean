import Mathlib.Data.List.Forall2
import StrategyDesk.Reading

set_option autoImplicit false

namespace StrategyDesk.Reader
open Json Reading

theorem text_eq_value_iff {j : Json} {s : Text} : text j = .value s ↔ j = .str s := by
  cases j <;> simp [text, wrong]

theorem object_eq_value_iff {j : Json} {ms : Members} : object j = .value ms ↔ j = .obj ms := by
  cases j <;> simp [object, wrong]

theorem require_eq_value_iff {α : Type} {a b : α} {ok : Bool} {m : Mistake} {j : Json} :
    require a ok m j = .value b ↔ a = b ∧ ok = true := by
  cases ok <;> simp [require, wrong]

theorem number_int {n : Int} {d : Double} (h : Double.ofInt? n = some d) :
    number (.int n) = .value d := by
  unfold number
  dsimp only
  rw [h]

theorem number_numeral {s : String} {d : Double} (h : Numeral.narrowDouble? s = some d) :
    number (.str s) = .value d := by
  unfold number
  dsimp only
  rw [h]

theorem numberFrom_eq_value_iff {least : Nat} {j : Json} {d : Double} :
    numberFrom least j = .value d ↔ number j = .value d ∧ (Double.ofInt least).le d = true := by
  unfold numberFrom
  cases number j with
  | value e =>
    rw [require_eq_value_iff, Reading.value.injEq]
    exact and_congr_right fun h => by rw [h]
  | faulty e es => simp

theorem numberBetween_eq_value_iff {least most : Nat} {j : Json} {d : Double} :
    numberBetween least most j = .value d ↔ number j = .value d ∧ d.le (.ofInt most) = true ∧
      (Double.ofInt least).le d = true := by
  unfold numberBetween
  cases number j with
  | value e =>
    cases hmost : e.le (.ofInt most) with
    | true =>
      simp only [hmost, Bool.not_true, Bool.false_eq_true, ↓reduceIte, require_eq_value_iff,
        Reading.value.injEq]
      exact and_congr_right fun h => by simp [← h, hmost]
    | false =>
      simp only [hmost, Bool.not_false, ↓reduceIte, wrong, reduceCtorEq, Reading.value.injEq,
        false_iff]
      rintro ⟨rfl, hle, -⟩
      rw [hmost] at hle
      cases hle
  | faulty e es => simp

theorem positiveNumber_eq_value_iff {j : Json} {d : Double} :
    positiveNumber j = .value d ↔ number j = .value d ∧ Double.zero.lt d = true := by
  unfold positiveNumber
  cases number j with
  | value e =>
    rw [require_eq_value_iff, Reading.value.injEq]
    exact and_congr_right fun h => by rw [h]
  | faulty e es => simp

section Lists

variable {α : Type} {r : Reader α} {js : List Json} {xs : List α}

theorem itemsFrom_eq_value_iff {i : Nat} :
    itemsFrom r i js = .value xs ↔ List.Forall₂ (fun j x => r j = .value x) js xs := by
  induction js generalizing i xs with
  | nil => simp [itemsFrom, eq_comm]
  | cons j js ih =>
    simp only [itemsFrom, seq_eq_value_iff, map_eq_value_iff, under_eq_value_iff, ih,
      List.forall₂_cons_left_iff]
    constructor
    · rintro ⟨_, xs, ⟨x, hx, rfl⟩, hxs, rfl⟩
      exact ⟨x, xs, hx, hxs, rfl⟩
    · rintro ⟨x, xs, hx, hxs, rfl⟩
      exact ⟨_, xs, ⟨x, hx, rfl⟩, hxs, rfl⟩

theorem list_eq_value_iff {j : Json} : list r j = .value xs ↔
    ∃ js, j = .arr js ∧ List.Forall₂ (fun k x => r k = .value x) js xs := by
  cases j <;> simp [list, wrong, itemsFrom_eq_value_iff]

theorem someItems_eq_value_iff {j : Json} : someItems r j = .value xs ↔
    ∃ js, j = .arr js ∧ js ≠ [] ∧ List.Forall₂ (fun k x => r k = .value x) js xs := by
  cases j with
  | arr js => cases js <;> simp [someItems, list, wrong, itemsFrom_eq_value_iff]
  | _ => simp [someItems, list, wrong]

end Lists

end StrategyDesk.Reader
