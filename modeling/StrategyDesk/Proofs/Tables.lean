import Mathlib.Data.List.Nodup
import StrategyDesk.Proofs.Endings

set_option autoImplicit false

namespace StrategyDesk

def Assignment.pair (a : Assignment) : Int × Int := (a.walletId, a.strategyId)

namespace Store

/-- Rows have ids of their own, assignments have pairs of their own and both their sides, and a
start is noted exactly while an assignment runs. -/
structure Linked (s : Store) : Prop where
  walletIds : (s.wallets.map Wallet.id).Nodup
  strategyIds : (s.strategies.map Strategy.id).Nodup
  assignmentIds : (s.assignments.map Assignment.id).Nodup
  pairs : (s.assignments.map Assignment.pair).Nodup
  hasWallet : ∀ a ∈ s.assignments, a.walletId ∈ s.wallets.map Wallet.id
  hasStrategy : ∀ a ∈ s.assignments, a.strategyId ∈ s.strategies.map Strategy.id
  started : ∀ a ∈ s.assignments, a.started = a.running

/-! ### Looking rows up -/

theorem eq_of_find_ok {α : Type} {row : Option α} {id : Int} {missing : Failure} {r : α}
    (h : find row id missing = .ok r) : row = some r ∧ Desk.isStorable id = true := by
  unfold find at h
  split at h
  · rename_i hid
    cases row with
    | none => cases h
    | some r' =>
      simp only [Except.ok.injEq] at h
      exact ⟨by rw [h], hid⟩
  · cases h

theorem strategy?_of_find {s : Store} {id : Int} {r : Strategy}
    (h : s.findStrategy id = .ok r) : s.strategy? id = some r :=
  (eq_of_find_ok h).1

theorem wallet?_of_find {s : Store} {id : Int} {w : Wallet}
    (h : s.findWallet id = .ok w) : s.wallet? id = some w :=
  (eq_of_find_ok h).1

theorem assignment?_of_find {s : Store} {walletId strategyId : Int} {a : Assignment}
    (h : s.findAssignment walletId strategyId = .ok a) :
    s.assignment? walletId strategyId = some a := by
  unfold findAssignment at h
  split at h
  · split at h
    · rename_i b hb
      simp only [Except.ok.injEq] at h
      rw [hb, h]
    · cases h
  · cases h

@[simp]
theorem strategies_place (s : Store) (old : Option Assignment) (a : Assignment) :
    (s.place old a).strategies = s.strategies := by
  cases old <;> rfl

theorem mem_of_wallet? {s : Store} {id : Int} {w : Wallet} (h : s.wallet? id = some w) :
    w ∈ s.wallets ∧ w.id = id :=
  ⟨List.mem_of_find?_eq_some h, by simpa using List.find?_some h⟩

theorem mem_of_strategy? {s : Store} {id : Int} {r : Strategy} (h : s.strategy? id = some r) :
    r ∈ s.strategies ∧ r.id = id :=
  ⟨List.mem_of_find?_eq_some h, by simpa using List.find?_some h⟩

theorem mem_of_assignment? {s : Store} {walletId strategyId : Int} {a : Assignment}
    (h : s.assignment? walletId strategyId = some a) :
    a ∈ s.assignments ∧ a.pair = (walletId, strategyId) := by
  have hp := List.find?_some h
  simp only [Assignment.isPair, Bool.and_eq_true, beq_iff_eq] at hp
  exact ⟨List.mem_of_find?_eq_some h, by rw [Assignment.pair, hp.1, hp.2]⟩

theorem pair_ne_of_assignment? {s : Store} {walletId strategyId : Int} {a : Assignment}
    (h : s.assignment? walletId strategyId = none) (ha : a ∈ s.assignments) :
    a.pair ≠ (walletId, strategyId) := by
  have hp := List.find?_eq_none.1 h a ha
  intro hpair
  simp only [Assignment.pair, Prod.mk.injEq] at hpair
  exact hp (by simp [Assignment.isPair, hpair])

theorem exists_wallet? {s : Store} {id : Int} (h : id ∈ s.wallets.map Wallet.id) :
    ∃ w, s.wallet? id = some w := by
  obtain ⟨w, hw, rfl⟩ := List.mem_map.1 h
  exact Option.isSome_iff_exists.1 (List.find?_isSome.2 ⟨w, hw, by simp⟩)

namespace Linked

variable {s : Store}

theorem assignment_eq (h : s.Linked) {a b : Assignment} (ha : a ∈ s.assignments)
    (hb : b ∈ s.assignments) (hid : a.id = b.id) : a = b :=
  List.inj_on_of_nodup_map h.assignmentIds ha hb hid

theorem assignment_eq_of_pair (h : s.Linked) {a b : Assignment} (ha : a ∈ s.assignments)
    (hb : b ∈ s.assignments) (hpair : a.pair = b.pair) : a = b :=
  List.inj_on_of_nodup_map h.pairs ha hb hpair

/-! Rows that are there are found. -/

theorem wallet?_eq (h : s.Linked) {w : Wallet} (hw : w ∈ s.wallets) :
    s.wallet? w.id = some w := by
  obtain ⟨v, hv⟩ := exists_wallet? (List.mem_map_of_mem (f := Wallet.id) hw)
  obtain ⟨hmem, hid⟩ := mem_of_wallet? hv
  rw [hv, List.inj_on_of_nodup_map h.walletIds hmem hw hid]

theorem strategy?_eq (h : s.Linked) {r : Strategy} (hr : r ∈ s.strategies) :
    s.strategy? r.id = some r := by
  have hsome : (s.strategy? r.id).isSome = true := List.find?_isSome.2 ⟨r, hr, by simp⟩
  obtain ⟨q, hq⟩ := Option.isSome_iff_exists.1 hsome
  obtain ⟨hmem, hid⟩ := mem_of_strategy? hq
  rw [hq, List.inj_on_of_nodup_map h.strategyIds hmem hr hid]

theorem assignment?_eq (h : s.Linked) {a : Assignment} (ha : a ∈ s.assignments) :
    s.assignment? a.walletId a.strategyId = some a := by
  have hsome : (s.assignment? a.walletId a.strategyId).isSome = true :=
    List.find?_isSome.2 ⟨a, ha, by simp [Assignment.isPair]⟩
  obtain ⟨b, hb⟩ := Option.isSome_iff_exists.1 hsome
  obtain ⟨hmem, hpair⟩ := mem_of_assignment? hb
  rw [hb, h.assignment_eq_of_pair hmem ha hpair]

theorem findWallet_eq (h : s.Linked) {w : Wallet} (hw : w ∈ s.wallets)
    (hid : Desk.isStorable w.id = true) : s.findWallet w.id = .ok w := by
  simp only [findWallet, find, hid, h.wallet?_eq hw, ↓reduceIte]

theorem findStrategy_eq (h : s.Linked) {r : Strategy} (hr : r ∈ s.strategies)
    (hid : Desk.isStorable r.id = true) : s.findStrategy r.id = .ok r := by
  simp only [findStrategy, find, hid, h.strategy?_eq hr, ↓reduceIte]

theorem exists_findStrategy (h : s.Linked) {id : Int} (hmem : id ∈ s.strategies.map Strategy.id)
    (hid : Desk.isStorable id = true) : ∃ r, s.findStrategy id = .ok r := by
  obtain ⟨r, hr, rfl⟩ := List.mem_map.1 hmem
  exact ⟨r, h.findStrategy_eq hr hid⟩

theorem findAssignment_eq (h : s.Linked) {a : Assignment} (ha : a ∈ s.assignments)
    (hw : Desk.isStorable a.walletId = true) (hs : Desk.isStorable a.strategyId = true) :
    s.findAssignment a.walletId a.strategyId = .ok a := by
  simp only [findAssignment, hw, hs, h.assignment?_eq ha, Bool.and_self, ↓reduceIte]

/-! ### Links under changes of the tables -/

theorem empty : (Store.empty).Linked := by
  constructor <;> simp [Store.empty]

theorem addWallet (h : s.Linked) {w : Wallet} (hid : w.id = s.nextWalletId) :
    (s.addWallet w).Linked where
  walletIds := by
    have hnew : ∀ v ∈ s.wallets, v.id ≠ w.id := fun v hv => by
      have := lt_nextId (List.mem_map_of_mem (f := Wallet.id) hv)
      rw [hid, nextWalletId]
      omega
    simpa [Store.addWallet, List.nodup_append] using ⟨h.walletIds, hnew⟩
  strategyIds := h.strategyIds
  assignmentIds := h.assignmentIds
  pairs := h.pairs
  hasWallet := fun a ha => by
    have := h.hasWallet a ha
    simp only [Store.addWallet, List.map_append, List.mem_append]
    exact Or.inl this
  hasStrategy := h.hasStrategy
  started := h.started

theorem addStrategy (h : s.Linked) {r : Strategy} (hid : r.id = s.nextStrategyId) :
    (s.addStrategy r).Linked where
  walletIds := h.walletIds
  strategyIds := by
    have hnew : ∀ v ∈ s.strategies, v.id ≠ r.id := fun v hv => by
      have := lt_nextId (List.mem_map_of_mem (f := Strategy.id) hv)
      rw [hid, nextStrategyId]
      omega
    simpa [Store.addStrategy, List.nodup_append] using ⟨h.strategyIds, hnew⟩
  assignmentIds := h.assignmentIds
  pairs := h.pairs
  hasWallet := h.hasWallet
  hasStrategy := fun a ha => by
    have := h.hasStrategy a ha
    simp only [Store.addStrategy, List.map_append, List.mem_append]
    exact Or.inl this
  started := h.started

theorem addAssignment (h : s.Linked) {a : Assignment} (hid : a.id = s.nextAssignmentId)
    (hpair : ∀ b ∈ s.assignments, b.pair ≠ a.pair) (hw : a.walletId ∈ s.wallets.map Wallet.id)
    (hs : a.strategyId ∈ s.strategies.map Strategy.id) (hstarted : a.started = a.running) :
    (s.addAssignment a).Linked where
  walletIds := h.walletIds
  strategyIds := h.strategyIds
  assignmentIds := by
    have hnew : ∀ b ∈ s.assignments, b.id ≠ a.id := fun b hb => by
      have := lt_nextId (List.mem_map_of_mem (f := Assignment.id) hb)
      rw [hid, nextAssignmentId]
      omega
    simpa [Store.addAssignment, List.nodup_append] using ⟨h.assignmentIds, hnew⟩
  pairs := by
    simpa [Store.addAssignment, List.nodup_append] using ⟨h.pairs, hpair⟩
  hasWallet := fun b hb => by
    rcases List.mem_append.1 hb with hb | hb
    · exact h.hasWallet b hb
    · rw [List.mem_singleton.1 hb]
      exact hw
  hasStrategy := fun b hb => by
    rcases List.mem_append.1 hb with hb | hb
    · exact h.hasStrategy b hb
    · rw [List.mem_singleton.1 hb]
      exact hs
  started := fun b hb => by
    rcases List.mem_append.1 hb with hb | hb
    · exact h.started b hb
    · rw [List.mem_singleton.1 hb]
      exact hstarted

theorem of_ids {s' : Store} (h : s.Linked)
    (hw : s'.wallets.map Wallet.id = s.wallets.map Wallet.id)
    (hs : s'.strategies.map Strategy.id = s.strategies.map Strategy.id)
    (ha : s'.assignments = s.assignments) : s'.Linked := by
  constructor
  · rw [hw]
    exact h.walletIds
  · rw [hs]
    exact h.strategyIds
  · rw [ha]
    exact h.assignmentIds
  · rw [ha]
    exact h.pairs
  · rw [ha, hw]
    exact h.hasWallet
  · rw [ha, hs]
    exact h.hasStrategy
  · rw [ha]
    exact h.started

theorem map_assignments (h : s.Linked) (g : Assignment → Assignment)
    (hg : ∀ a ∈ s.assignments, (g a).id = a.id ∧ (g a).pair = a.pair ∧
      (g a).started = (g a).running) :
    Linked { s with assignments := s.assignments.map g } where
  walletIds := h.walletIds
  strategyIds := h.strategyIds
  assignmentIds := by
    have hid : (s.assignments.map g).map Assignment.id = s.assignments.map Assignment.id := by
      simpa using fun a ha => (hg a ha).1
    rw [hid]
    exact h.assignmentIds
  pairs := by
    have hpair : (s.assignments.map g).map Assignment.pair = s.assignments.map Assignment.pair := by
      simpa using fun a ha => (hg a ha).2.1
    rw [hpair]
    exact h.pairs
  hasWallet := fun b hb => by
    obtain ⟨a, ha, rfl⟩ := List.mem_map.1 hb
    have hw : (g a).walletId = a.walletId := congrArg Prod.fst (hg a ha).2.1
    rw [hw]
    exact h.hasWallet a ha
  hasStrategy := fun b hb => by
    obtain ⟨a, ha, rfl⟩ := List.mem_map.1 hb
    have hs : (g a).strategyId = a.strategyId := congrArg Prod.snd (hg a ha).2.1
    rw [hs]
    exact h.hasStrategy a ha
  started := fun b hb => by
    obtain ⟨a, ha, rfl⟩ := List.mem_map.1 hb
    exact (hg a ha).2.2

theorem sublist {s' : Store} (h : s.Linked) (hw : s'.wallets.Sublist s.wallets)
    (hs : s'.strategies.Sublist s.strategies) (ha : s'.assignments.Sublist s.assignments)
    (hsides : ∀ a ∈ s'.assignments, a.walletId ∈ s'.wallets.map Wallet.id ∧
      a.strategyId ∈ s'.strategies.map Strategy.id) : s'.Linked where
  walletIds := h.walletIds.sublist (hw.map _)
  strategyIds := h.strategyIds.sublist (hs.map _)
  assignmentIds := h.assignmentIds.sublist (ha.map _)
  pairs := h.pairs.sublist (ha.map _)
  hasWallet := fun a h => (hsides a h).1
  hasStrategy := fun a h => (hsides a h).2
  started := fun a h' => h.started a (ha.subset h')

end Linked

/-! ### Strategies that change in place -/

section Strategies

variable {s : Store}

theorem strategyIds_onStrategy {id : Int} {f : Strategy → Strategy}
    (hf : ∀ r ∈ s.strategies, r.id = id → (f r).id = id) :
    (s.onStrategy id f).strategies.map Strategy.id = s.strategies.map Strategy.id := by
  simp only [onStrategy, List.map_map]
  refine List.map_congr_left fun r hr => ?_
  by_cases hid : r.id = id
  · simp [hid, hf r hr hid]
  · simp [hid]

theorem Linked.onStrategy (h : s.Linked) {id : Int} {f : Strategy → Strategy}
    (hf : ∀ r ∈ s.strategies, r.id = id → (f r).id = id) : (s.onStrategy id f).Linked :=
  h.of_ids rfl (strategyIds_onStrategy hf) rfl

theorem Linked.refreshActive (h : s.Linked) (id : Int) : (s.refreshActive id).Linked :=
  h.onStrategy fun _ _ hid => hid

theorem Linked.refreshAll (h : s.Linked) (ids : List Int) :
    (ids.foldl Store.refreshActive s).Linked := by
  induction ids generalizing s with
  | nil => exact h
  | cons id ids ih => exact ih (h.refreshActive id)

theorem assignments_refreshAll (ids : List Int) :
    (ids.foldl refreshActive s).assignments = s.assignments := by
  induction ids generalizing s with
  | nil => rfl
  | cons id ids ih => exact ih

theorem exists_of_strategies {α : Type} {g : Strategy → α} {s s' : Store}
    (h : s'.strategies.map g = s.strategies.map g) {r : Strategy} (hr : r ∈ s'.strategies) :
    ∃ old ∈ s.strategies, g old = g r := by
  have hmem := List.mem_map_of_mem (f := g) hr
  rw [h] at hmem
  exact List.mem_map.1 hmem

/-! Starts, stops and removals of assignments change nothing of strategies but the flag. -/

section Flag

variable {α : Type} {g : Strategy → α} (hg : ∀ r b, g { r with active := b } = g r)
include hg

theorem strategies_refreshActive (s : Store) (id : Int) :
    (s.refreshActive id).strategies.map g = s.strategies.map g := by
  simp only [refreshActive, onStrategy, List.map_map]
  refine List.map_congr_left fun r _ => ?_
  rw [Function.comp_apply]
  split
  · exact hg r _
  · rfl

theorem strategies_start (s : Store) (id : Int) :
    (s.start id).strategies.map g = s.strategies.map g :=
  strategies_refreshActive hg (s.onAssignmentsOf id _) id

theorem strategies_stop (s : Store) (id : Int) :
    (s.stop id).strategies.map g = s.strategies.map g := by
  simp only [stop, onStrategy, onAssignmentsOf, List.map_map]
  refine List.map_congr_left fun r _ => ?_
  rw [Function.comp_apply]
  split
  · exact hg r _
  · rfl

theorem strategies_withoutWallet (s : Store) (id : Int) :
    (s.withoutWallet id).strategies.map g = s.strategies.map g := by
  have hall : ∀ (ids : List Int) (s : Store),
      (ids.foldl refreshActive s).strategies.map g = s.strategies.map g := by
    intro ids
    induction ids with
    | nil => exact fun _ => rfl
    | cons i ids ih => exact fun s => (ih _).trans (strategies_refreshActive hg s i)
  exact hall _ (s.dropWallet id)

theorem strategies_withoutAssignment (s : Store) (a : Assignment) :
    (s.withoutAssignment a).strategies.map g = s.strategies.map g :=
  strategies_refreshActive hg (s.dropAssignment a.id) a.strategyId

end Flag

end Strategies

/-! ### Assignments that change in place -/

theorem assignments_start (s : Store) (id : Int) :
    (s.start id).assignments = s.assignments.map fun a =>
      if a.strategyId = id ∧ a.running = false then { a with running := true, started := true }
      else a := by
  refine List.map_congr_left fun a _ => ?_
  by_cases hid : a.strategyId = id
  · cases hrun : a.running <;> simp [hid, hrun, Assignment.start]
  · simp [hid]

theorem assignments_stop (s : Store) (id : Int) :
    (s.stop id).assignments = s.assignments.map fun a =>
      if a.strategyId = id ∧ a.running = true then { a with running := false, started := false }
      else a := by
  refine List.map_congr_left fun a _ => ?_
  by_cases hid : a.strategyId = id
  · cases hrun : a.running <;> simp [hid, hrun, Assignment.stop]
  · simp [hid]

end Store

end StrategyDesk
