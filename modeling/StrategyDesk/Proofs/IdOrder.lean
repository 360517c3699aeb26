import StrategyDesk.Proofs.Soundness

set_option autoImplicit false

namespace StrategyDesk
open Engine

variable {σ : Type}

namespace Store

def Ascending (s : Store) : Prop := s.assignments.Pairwise fun a b => a.id < b.id

/-- The assignments with a property, in the order of their ids. -/
structure Lists (s : Store) (p : Assignment → Prop) (rows : List Assignment) : Prop where
  ascending : rows.Pairwise fun a b => a.id < b.id
  mem_iff : ∀ a, a ∈ rows ↔ a ∈ s.assignments ∧ p a

variable {s : Store}

theorem Ascending.lists_filter (h : s.Ascending) (keep : Assignment → Bool) :
    s.Lists (fun a => keep a = true) (s.assignments.filter keep) :=
  ⟨h.filter keep, fun _ => List.mem_filter⟩

theorem Lists.congr {p q : Assignment → Prop} {rows : List Assignment} (h : s.Lists p rows)
    (hpq : ∀ a, p a ↔ q a) : s.Lists q rows :=
  ⟨h.ascending, fun a => (h.mem_iff a).trans (and_congr_right fun _ => hpq a)⟩

/-! ### What operations pick -/

theorem lists_ofStrategy (h : s.Ascending) (id : Int) :
    s.Lists (fun a => a.strategyId = id) (s.ofStrategy id) :=
  (h.lists_filter _).congr fun a => by simp

theorem lists_stoppedOf (h : s.Ascending) (id : Int) :
    s.Lists (fun a => a.strategyId = id ∧ a.running = false) (s.stoppedOf id) := by
  rw [stoppedOf, ofStrategy, List.filter_filter]
  exact (h.lists_filter _).congr fun a => by simp [and_comm]

theorem lists_runningOf (h : s.Ascending) (id : Int) :
    s.Lists (fun a => a.strategyId = id ∧ a.running = true) (s.runningOf id) := by
  rw [runningOf, ofStrategy, List.filter_filter]
  exact (h.lists_filter _).congr fun a => by simp [and_comm]

theorem lists_runningOn (h : s.Ascending) (id : Int) :
    s.Lists (fun a => a.walletId = id ∧ a.running = true) (s.runningOn id) := by
  rw [runningOn, ofWallet, List.filter_filter]
  exact (h.lists_filter _).congr fun a => by simp [and_comm]

/-! ### Ids under changes of the tables -/

def assignmentIds (s : Store) : List Int := s.assignments.map Assignment.id

theorem ascending_iff : s.Ascending ↔ s.assignmentIds.Pairwise (· < ·) := List.pairwise_map.symm

theorem map_id_eq {f : Assignment → Assignment} (hf : ∀ a ∈ s.assignments, (f a).id = a.id) :
    (s.assignments.map f).map Assignment.id = s.assignmentIds := by
  rw [List.map_map]
  exact List.map_congr_left hf

theorem assignmentIds_onAssignmentsOf (s : Store) (id : Int) {f : Assignment → Assignment}
    (hf : ∀ a, (f a).id = a.id) : (s.onAssignmentsOf id f).assignmentIds = s.assignmentIds :=
  map_id_eq fun a _ => by
    split
    · exact hf a
    · rfl

theorem assignmentIds_start (s : Store) (id : Int) : (s.start id).assignmentIds = s.assignmentIds :=
  assignmentIds_onAssignmentsOf s id fun a => by cases a.running <;> rfl

theorem assignmentIds_stop (s : Store) (id : Int) : (s.stop id).assignmentIds = s.assignmentIds :=
  assignmentIds_onAssignmentsOf s id fun a => by cases a.running <;> rfl

theorem assignmentIds_place {walletId strategyId : Int} {request : AssignRequest}
    {markets : List Text} {a : Assignment}
    (ha : request.row (s.assignment? walletId strategyId)
      (s.blankAssignment walletId strategyId) markets = .ok a) :
    (s.place (s.assignment? walletId strategyId) a).assignmentIds.Sublist
      (s.assignmentIds ++ [s.nextAssignmentId]) := by
  obtain ⟨limit, paper, -, -, rfl⟩ := AssignRequest.row_eq ha
  cases hold : s.assignment? walletId strategyId with
  | none =>
    have hids : (s.place none { s.blankAssignment walletId strategyId with
        markets, limit, paper := paper.getD false }).assignmentIds =
        s.assignmentIds ++ [s.nextAssignmentId] := List.map_append
    exact hids ▸ List.Sublist.refl _
  | some old =>
    have hids : (s.onAssignment old.id fun _ => { old with
        markets, limit, paper := paper.getD false }).assignmentIds = s.assignmentIds :=
      map_id_eq fun b _ => by
        split
        · exact Eq.symm ‹_›
        · rfl
    exact hids ▸ List.sublist_append_left _ _

end Store

open Store in
theorem Operation.Done.assignmentIds {d : Desk σ} {o : Operation} {r : Result} {s : Store}
    (h : o.Done d r s) :
    s.assignmentIds.Sublist (d.store.assignmentIds ++ [d.store.nextAssignmentId]) := by
  have hkept {t : Store} (ht : t.assignmentIds.Sublist d.store.assignmentIds) :
      t.assignmentIds.Sublist (d.store.assignmentIds ++ [d.store.nextAssignmentId]) :=
    ht.trans (List.sublist_append_left _ _)
  cases h with
  | assignStrategy _ _ _ ha => exact assignmentIds_place ha
  | activate =>
    rw [assignmentIds_start]
    exact hkept (List.Sublist.refl _)
  | deactivate =>
    rw [assignmentIds_stop]
    exact hkept (List.Sublist.refl _)
  | deleteStrategy => exact hkept (List.filter_sublist.map _)
  | deleteWallet =>
    refine hkept ?_
    rw [Store.assignmentIds, withoutWallet, assignments_refreshAll]
    exact List.filter_sublist.map _
  | unassignStrategy => exact hkept (List.filter_sublist.map _)
  | _ => exact hkept (List.Sublist.refl _)

theorem Operation.ascending_run (e : Behaviour σ) {d : Desk σ} (o : Operation)
    (h : d.store.Ascending) : (o.run e d).desk.store.Ascending := by
  cases o.run_course e d with
  | refused _ hstore | stopped _ hstore =>
    rw [hstore]
    exact h
  | done _ hdone =>
    rw [Store.ascending_iff] at h ⊢
    refine List.Pairwise.sublist hdone.assignmentIds (List.pairwise_append.2
      ⟨h, List.pairwise_singleton _ _, fun i hi j hj => ?_⟩)
    rw [List.mem_singleton.1 hj]
    exact lt_nextId hi

/-- The assignments of a reachable desk stand in the order of their ids. -/
theorem Desk.ascending_run (e : Behaviour σ) (engine : σ) (ids : Form.Supply) (room : Room)
    (os : List Operation) :
    ((Desk.fresh engine ids room).run e os).store.Ascending :=
  Desk.history_induction (motive := fun _ d => d.store.Ascending) e engine ids room
    List.Pairwise.nil (fun _ _ o h => o.ascending_run e h) os

end StrategyDesk
