import Mathlib.Logic.Basic
import StrategyDesk.Service.Response

set_option autoImplicit false

namespace StrategyDesk.Service.Response
open Json

/-! ### Values without internal members -/

section Every

variable {leaf : Json → Bool} {name : Text → Bool}

mutual
theorem every_withoutInternal {j : Json} (h : j.every leaf name = true) :
    (withoutInternal j).every leaf name = true := by
  cases j with
  | arr items => exact itemsEvery_withoutInternal h
  | obj members => exact membersEvery_withoutInternal h
  | _ => exact h
termination_by structural j
theorem itemsEvery_withoutInternal {js : List Json} (h : itemsEvery leaf name js = true) :
    itemsEvery leaf name (itemsWithoutInternal js) = true := by
  cases js with
  | nil => rfl
  | cons j js =>
    simp only [itemsEvery, Bool.and_eq_true] at h
    simp only [itemsWithoutInternal, itemsEvery, Bool.and_eq_true]
    exact ⟨every_withoutInternal h.1, itemsEvery_withoutInternal h.2⟩
termination_by structural js
theorem membersEvery_withoutInternal {ms : Members} (h : membersEvery leaf name ms = true) :
    membersEvery leaf name (membersWithoutInternal ms) = true := by
  cases ms with
  | nil => rfl
  | cons m ms =>
    simp only [membersEvery, Bool.and_eq_true] at h
    simp only [membersWithoutInternal]
    split
    · exact membersEvery_withoutInternal h.2
    · simp only [membersEvery, Bool.and_eq_true]
      exact ⟨memberEvery_withoutInternal h.1, membersEvery_withoutInternal h.2⟩
termination_by structural ms
theorem memberEvery_withoutInternal {m : Text × Json} (h : memberEvery leaf name m = true) :
    memberEvery leaf name (memberWithoutInternal m) = true := by
  obtain ⟨k, j⟩ := m
  simp only [memberEvery, Bool.and_eq_true] at h
  simp only [memberWithoutInternal, memberEvery, Bool.and_eq_true]
  exact ⟨h.1, every_withoutInternal h.2⟩
termination_by structural m
end

end Every

mutual
theorem height_withoutInternal_le (j : Json) : (withoutInternal j).height ≤ j.height := by
  cases j with
  | arr items =>
    have := itemsHeight_withoutInternal_le items
    simp only [withoutInternal, Json.height]
    omega
  | obj members =>
    have := membersHeight_withoutInternal_le members
    simp only [withoutInternal, Json.height]
    omega
  | _ => exact Nat.le_refl _
termination_by structural j
theorem itemsHeight_withoutInternal_le (js : List Json) :
    itemsHeight (itemsWithoutInternal js) ≤ itemsHeight js := by
  cases js with
  | nil => exact Nat.le_refl _
  | cons j js =>
    have := height_withoutInternal_le j
    have := itemsHeight_withoutInternal_le js
    simp only [itemsWithoutInternal, itemsHeight]
    omega
termination_by structural js
theorem membersHeight_withoutInternal_le (ms : Members) :
    membersHeight (membersWithoutInternal ms) ≤ membersHeight ms := by
  cases ms with
  | nil => exact Nat.le_refl _
  | cons m ms =>
    have := memberHeight_withoutInternal_le m
    have := membersHeight_withoutInternal_le ms
    simp only [membersWithoutInternal]
    split <;> simp only [membersHeight] <;> omega
termination_by structural ms
theorem memberHeight_withoutInternal_le (m : Text × Json) :
    memberHeight (memberWithoutInternal m) ≤ memberHeight m := by
  obtain ⟨k, j⟩ := m
  exact height_withoutInternal_le j
termination_by structural m
end

section Showable

variable {height : Nat} {j : Json}

theorem isShowable_iff : isShowable height j = true ↔
    j.height ≤ height ∧ j.allFinite = true ∧ j.allWhole = true := by
  simp only [isShowable, Bool.and_eq_true, decide_eq_true_eq, and_assoc]

theorem isShowable_withoutInternal (h : isShowable height j = true) :
    isShowable height (withoutInternal j) = true := by
  obtain ⟨hlow, hfinite, hwhole⟩ := isShowable_iff.1 h
  exact isShowable_iff.2 ⟨Nat.le_trans (height_withoutInternal_le j) hlow,
    every_withoutInternal hfinite, every_withoutInternal hwhole⟩

theorem isShowable_item {js : List Json} (h : isShowable height (.arr js) = true) (hj : j ∈ js) :
    isShowable height j = true := by
  obtain ⟨hlow, hfinite, hwhole⟩ := isShowable_iff.1 h
  refine isShowable_iff.2 ⟨?_, itemsEvery_iff.1 hfinite j hj, itemsEvery_iff.1 hwhole j hj⟩
  have hle := height_le_itemsHeight hj
  rw [Json.height] at hlow
  omega

theorem isShowable_member {ms : Members} (h : isShowable height (.obj ms) = true) {key : Text}
    (hj : find? ms key = some j) : isShowable height j = true := by
  obtain ⟨hlow, hfinite, hwhole⟩ := isShowable_iff.1 h
  have hmem := mem_of_find? hj
  refine isShowable_iff.2
    ⟨?_, (membersEvery_iff.1 hfinite _ hmem).2, (membersEvery_iff.1 hwhole _ hmem).2⟩
  have hle := height_le_of_find? hj
  rw [Json.height] at hlow
  omega

end Showable

/-! ### Graphs -/

mutual
theorem height_finiteOrNull (j : Json) : j.finiteOrNull.height = j.height := by
  cases j with
  | arr items => exact congrArg (· + 1) (itemsHeight_finiteOrNull items)
  | obj members => exact congrArg (· + 1) (membersHeight_finiteOrNull members)
  | double d =>
    simp only [finiteOrNull]
    split <;> rfl
  | _ => rfl
termination_by structural j
theorem itemsHeight_finiteOrNull (js : List Json) :
    itemsHeight (itemsFiniteOrNull js) = itemsHeight js := by
  cases js with
  | nil => rfl
  | cons j js => exact congrArg₂ max (height_finiteOrNull j) (itemsHeight_finiteOrNull js)
termination_by structural js
theorem membersHeight_finiteOrNull (ms : Members) :
    membersHeight (membersFiniteOrNull ms) = membersHeight ms := by
  cases ms with
  | nil => rfl
  | cons m ms => exact congrArg₂ max (memberHeight_finiteOrNull m) (membersHeight_finiteOrNull ms)
termination_by structural ms
theorem memberHeight_finiteOrNull (m : Text × Json) :
    memberHeight (memberFiniteOrNull m) = memberHeight m := by
  obtain ⟨k, j⟩ := m
  exact height_finiteOrNull j
termination_by structural m
end

mutual
theorem allFinite_finiteOrNull (j : Json) : j.finiteOrNull.allFinite = true := by
  cases j with
  | arr items => exact itemsFinite_itemsFiniteOrNull items
  | obj members => exact membersFinite_membersFiniteOrNull members
  | double d =>
    simp only [finiteOrNull]
    split
    · assumption
    · rfl
  | _ => rfl
termination_by structural j
theorem itemsFinite_itemsFiniteOrNull (js : List Json) :
    itemsFinite (itemsFiniteOrNull js) = true := by
  cases js with
  | nil => rfl
  | cons j js =>
    exact Bool.and_eq_true_iff.2 ⟨allFinite_finiteOrNull j, itemsFinite_itemsFiniteOrNull js⟩
termination_by structural js
theorem membersFinite_membersFiniteOrNull (ms : Members) :
    membersFinite (membersFiniteOrNull ms) = true := by
  cases ms with
  | nil => rfl
  | cons m ms =>
    exact Bool.and_eq_true_iff.2
      ⟨memberFinite_memberFiniteOrNull m, membersFinite_membersFiniteOrNull ms⟩
termination_by structural ms
theorem memberFinite_memberFiniteOrNull (m : Text × Json) :
    memberEvery isFiniteLeaf (fun _ => true) (memberFiniteOrNull m) = true := by
  obtain ⟨k, j⟩ := m
  exact allFinite_finiteOrNull j
termination_by structural m
end

mutual
theorem allWhole_finiteOrNull (j : Json) : j.finiteOrNull.allWhole = j.allWhole := by
  cases j with
  | arr items => exact itemsWhole_itemsFiniteOrNull items
  | obj members => exact membersWhole_membersFiniteOrNull members
  | double d =>
    simp only [finiteOrNull]
    split <;> rfl
  | _ => rfl
termination_by structural j
theorem itemsWhole_itemsFiniteOrNull (js : List Json) :
    itemsWhole (itemsFiniteOrNull js) = itemsWhole js := by
  cases js with
  | nil => rfl
  | cons j js =>
    exact congrArg₂ and (allWhole_finiteOrNull j) (itemsWhole_itemsFiniteOrNull js)
termination_by structural js
theorem membersWhole_membersFiniteOrNull (ms : Members) :
    membersWhole (membersFiniteOrNull ms) = membersWhole ms := by
  cases ms with
  | nil => rfl
  | cons m ms =>
    exact congrArg₂ and (memberWhole_memberFiniteOrNull m) (membersWhole_membersFiniteOrNull ms)
termination_by structural ms
theorem memberWhole_memberFiniteOrNull (m : Text × Json) :
    memberEvery isWholeLeaf (fun k => !k.isTorn) (memberFiniteOrNull m) =
      memberEvery isWholeLeaf (fun k => !k.isTorn) m := by
  obtain ⟨k, j⟩ := m
  exact congrArg (and (!k.isTorn)) (allWhole_finiteOrNull j)
termination_by structural m
end

/-- A graph that can be written into a response: not too many values stand in one another in it,
and no text in it is torn. -/
def IsWritable (g : Json) : Prop := g.height ≤ 256 ∧ g.allWhole = true

section Dumper

variable {x : Dumper} {n : Nat} {g : Json} {members : Json → Members}

def Writes (x : Dumper) (g : Json) : Prop :=
  ∃ shown, x.dump maxGraphHeight g = some shown ∧ (shown.allFinite && shown.allWhole) = true

theorem writes_iff_of_named (h : g.allNamed = true) : Writes x g ↔ IsWritable g := by
  rw [Writes, x.dump_of_named h, IsWritable]
  by_cases hlow : g.height ≤ maxGraphHeight
  · have hlow' : g.height ≤ 256 := hlow
    simp [hlow, hlow', allFinite_finiteOrNull, allWhole_finiteOrNull]
  · have hlow' : ¬ g.height ≤ 256 := hlow
    simp [hlow, hlow']

theorem IsWritable.writes (h : IsWritable g) : Writes x g :=
  (writes_iff_of_named (allNamed_of_allWhole h.2)).2 h

theorem status_withGraph (h : Writes x g) : (withGraph x n g members).status = n := by
  obtain ⟨shown, hshown, hwritten⟩ := h
  rw [withGraph, hshown]
  dsimp only
  rw [if_pos hwritten]
  rfl

theorem withGraph_of_not_writes (h : ¬ Writes x g) : withGraph x n g members = .internalError := by
  unfold withGraph
  split
  · rename_i shown hshown
    exact if_neg fun hwritten => h ⟨shown, hshown, hwritten⟩
  · rfl

end Dumper

/-! ### Results and failures -/

def statusOf? : Failure → Option Nat
  | .graph _ | .insecure _ => some 422
  | .strategyNotFound _ | .walletNotFound _ | .assignmentNotFound _ _ => some 404
  | .walletNotDeployed _ | .walletDeploying _ => some 409
  | .engine _ => some 502
  | _ => none

theorem status_ofFailure {f : Failure} {n : Nat} (h : statusOf? f = some n) :
    (ofFailure f).status = n := by
  cases f <;> cases h <;> rfl

/-- A result that cannot be written into a response. -/
inductive Unwritable (x : Dumper) : Result → Prop where
  | strategy {row : Strategy} (h : ¬ Writes x row.graph) : Unwritable x (.strategy (some row))
  | assigned {a : Assigned} {name : Text} (hname : name ∈ a.row.markets)
    (htorn : name.isTorn = true) : Unwritable x (.assigned a)

theorem unwritable_strategy_iff {x : Dumper} {row : Strategy} (h : row.graph.allNamed = true) :
    Unwritable x (.strategy (some row)) ↔ 256 < row.graph.height ∨ row.graph.allWhole = false := by
  have hwrites : ¬ Writes x row.graph ↔ 256 < row.graph.height ∨ row.graph.allWhole = false := by
    rw [writes_iff_of_named h, IsWritable, not_and_or, Nat.not_le, Bool.not_eq_true]
  rw [← hwrites]
  constructor
  · rintro ⟨hrow⟩
    exact hrow
  · exact .strategy

theorem ofAssignment_of_torn {n : Nat} {a : Assignment} {name : Text} (hname : name ∈ a.markets)
    (htorn : name.isTorn = true) : ofAssignment n a = .internalError :=
  if_pos (List.any_eq_true.2 ⟨name, hname, htorn⟩)

theorem ofAssignment_of_whole {n : Nat} {a : Assignment}
    (h : ∀ name ∈ a.markets, name.isTorn = false) : ofAssignment n a = ofJson n (assignedJson a) :=
  if_neg fun hany => by
    obtain ⟨name, hname, htorn⟩ := List.any_eq_true.1 hany
    rw [h name hname] at htorn
    cases htorn

end StrategyDesk.Service.Response
