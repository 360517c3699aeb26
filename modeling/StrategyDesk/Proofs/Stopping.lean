import StrategyDesk.Proofs.Exchanges
import StrategyDesk.Proofs.IdOrder

/-!
Stopping a strategy, halting it before it is removed, and its kill switch. All of them call the
engine for a list of assignments up to the first call that fails, and take nothing back. Only a stop
that went through changes rows, and stopping once more does nothing.
-/

set_option autoImplicit false

namespace StrategyDesk
open Engine

variable {σ : Type}

namespace Store

variable {s : Store}

/-! ### The tables after a stop -/

theorem stop_eq (s : Store) (id : Int) : s.stop id =
    { wallets := s.wallets
      strategies := s.strategies.map fun r => if r.id = id then { r with active := false } else r
      assignments := s.assignments.map fun a =>
        if a.strategyId = id ∧ a.running = true then { a with running := false, started := false }
        else a } := by
  rw [← assignments_stop]
  rfl

theorem mem_runningOf {id : Int} {a : Assignment} :
    a ∈ s.runningOf id ↔ a ∈ s.assignments ∧ a.strategyId = id ∧ a.running = true := by
  simp only [runningOf, ofStrategy, List.mem_filter, beq_iff_eq, and_assoc]

theorem runningOf_stop (s : Store) (id : Int) : (s.stop id).runningOf id = [] := by
  rw [List.eq_nil_iff_forall_not_mem]
  intro b hb
  obtain ⟨hmem, hid, hrun⟩ := mem_runningOf.1 hb
  rw [assignments_stop] at hmem
  obtain ⟨a, -, rfl⟩ := List.mem_map.1 hmem
  split at hrun
  · cases hrun
  · rename_i hnot
    exact hnot ⟨by split at hid <;> exact hid, hrun⟩

theorem Sound.stop_eq_self (h : s.Sound) {id : Int} (hidle : s.runningOf id = []) :
    s.stop id = s := by
  have hnot : ∀ a ∈ s.assignments, ¬ (a.strategyId = id ∧ a.running = true) := by
    intro a ha hrun
    have hmem := mem_runningOf.2 ⟨ha, hrun⟩
    rw [hidle] at hmem
    cases hmem
  have hstrategies : (s.stop id).strategies = s.strategies := by
    refine (List.map_congr_left fun r hr => ?_).trans (List.map_id _)
    split
    · rename_i hid
      have hactive : r.active = false := by
        rw [h.active r hr, Bool.eq_false_iff, ne_eq, hasRunning_iff, hid]
        intro hex
        obtain ⟨a, ha, hrun⟩ := hex
        exact hnot a ha hrun
      change { r with active := false } = r
      rw [← hactive]
    · rfl
  have hassignments : (s.stop id).assignments = s.assignments := by
    rw [assignments_stop]
    exact (List.map_congr_left fun a ha => if_neg (hnot a ha)).trans (List.map_id _)
  exact congrArg₂ (Store.mk s.wallets) hstrategies hassignments

end Store

theorem Desk.deactivate_of_idle (e : Behaviour σ) {d : Desk σ} (h : d.store.Sound) {r : Strategy}
    {id : Int} (hr : d.store.findStrategy id = .ok r) (hidle : d.store.runningOf id = []) :
    (Operation.deactivate id).run e d = d.answer (.walletIds []) := by
  simp only [Desk.run_eq, Operation.ending, Desk.deactivate, hr, hidle, h.stop_eq_self hidle]
  rfl

theorem Operation.store_of_deactivate {e : Behaviour σ} {d : Desk σ} {id : Int} {a : Result}
    (h : ((deactivate id).run e d).result = .ok a) :
    ((deactivate id).run e d).desk.store = d.store.stop id := by
  have hdone := done_of_ok h
  generalize ((deactivate id).run e d).desk.store = s at hdone ⊢
  cases hdone
  rfl

theorem Operation.deactivate_again {e : Behaviour σ} {d : Desk σ} (hs : d.store.Sound)
    {r : Strategy} (hr : r ∈ d.store.strategies) (hid : Desk.isStorable r.id = true) {a : Result}
    (ha : ((deactivate r.id).run e d).result = .ok a) (e' : Behaviour σ) :
    (deactivate r.id).run e' ((deactivate r.id).run e d).desk =
      ((deactivate r.id).run e d).desk.answer (.walletIds []) := by
  have hstore := store_of_deactivate ha
  have hsound := (deactivate r.id).sound_run e hs
  have hids : r.id ∈ ((deactivate r.id).run e d).desk.store.strategies.map Strategy.id := by
    rw [hstore, Store.strategies_stop (g := Strategy.id) fun _ _ => rfl]
    exact List.mem_map_of_mem hr
  obtain ⟨q, hq⟩ := hsound.toLinked.exists_findStrategy hids hid
  exact Desk.deactivate_of_idle e' hsound hq (hstore ▸ Store.runningOf_stop _ _)

/-- How the operations end on a reachable desk that stop, halt, kill or release a strategy or halt a
wallet. Each is for a list of assignments in the order of their ids, and calls the engine for each
with its own pair up to the first call that fails. Rows change in one case alone: a stop that was
done clears the running ones and the flag of the strategy, and then there is nothing more to
stop. -/
theorem stop_endings (e : Behaviour σ) (engine : σ) (ids : Form.Supply) (room : Room)
    (os : List Operation) :
    let d := (Desk.fresh engine ids room).run e os
    (∀ r ∈ d.store.strategies, Desk.isStorable r.id = true →
      let running := d.store.runningOf r.id
      let all := d.store.ofStrategy r.id
      let x := (Operation.deactivate r.id).run e d
      d.store.Lists (fun a => a.strategyId = r.id ∧ a.running = true) running ∧
      d.store.Lists (fun a => a.strategyId = r.id) all ∧
      Swept e d (running.map fun a => .deactivate a.walletId a.strategyId)
        (.walletIds (running.map Assignment.walletId))
        { wallets := d.store.wallets
          strategies := d.store.strategies.map fun q =>
            if q.id = r.id then { q with active := false } else q
          assignments := d.store.assignments.map fun a =>
            if a.strategyId = r.id ∧ a.running = true then
              { a with running := false, started := false }
            else a } x ∧
      (∀ a, x.result = .ok a → ∀ e' : Behaviour σ,
        (Operation.deactivate r.id).run e' x.desk = x.desk.answer (.walletIds [])) ∧
      Swept e d (running.map fun a => .deactivate a.walletId a.strategyId) .nothing d.store
        ((Operation.haltStrategy r.id).run e d) ∧
      Swept e d (all.map fun a => .kill a.walletId a.strategyId) .nothing d.store
        ((Operation.kill r.id).run e d) ∧
      Swept e d (all.map fun a => .unkill a.walletId a.strategyId) .nothing d.store
        ((Operation.unkill r.id).run e d)) ∧
    ∀ w ∈ d.store.wallets, Desk.isStorable w.id = true →
      let running := d.store.runningOn w.id
      d.store.Lists (fun a => a.walletId = w.id ∧ a.running = true) running ∧
      Swept e d (running.map fun a => .deactivate a.walletId a.strategyId) .nothing d.store
        ((Operation.haltWallet w.id).run e d) := by
  intro d
  have hs : d.store.Sound := Desk.sound_run e engine ids room os
  have hascending : d.store.Ascending := Desk.ascending_run e engine ids room os
  constructor
  · intro r hr hid running all x
    have hfind := hs.toLinked.findStrategy_eq hr hid
    refine ⟨Store.lists_runningOf hascending r.id, Store.lists_ofStrategy hascending r.id, ?_,
      fun a ha e' => Operation.deactivate_again hs hr hid ha e', ?_, ?_, ?_⟩
    · rw [← Store.stop_eq]
      simp only [x, Desk.run_eq, Operation.ending, Desk.deactivate, hfind]
      exact swept_sweeping Result.walletIds
    · simp only [Desk.run_eq, Operation.ending, Desk.haltStrategy, hfind]
      exact swept_sweeping fun _ => .nothing
    · simp only [Desk.run_eq, Operation.ending, Desk.kill, hfind]
      exact swept_sweeping fun _ => .nothing
    · simp only [Desk.run_eq, Operation.ending, Desk.unkill, hfind]
      exact swept_sweeping fun _ => .nothing
  · intro w hw hid running
    have hfind := hs.toLinked.findWallet_eq hw hid
    refine ⟨Store.lists_runningOn hascending w.id, ?_⟩
    simp only [Desk.run_eq, Operation.ending, Desk.haltWallet, hfind]
    exact swept_sweeping fun _ => .nothing

def twoRunning : List Operation :=
  [.addWallet (some Wallet.deployed) none none, .addWallet (some Wallet.deployed) none none,
    .createStrategy (some 1) (some "s") none (.obj [("mode", .str "node")]),
    .assignStrategy 1 1 ⟨.null, .int 100, .null⟩, .assignStrategy 2 1 ⟨.null, .int 100, .null⟩,
    .activate 1]

def Engine.keepingSecond : Behaviour Unit := fun s c =>
  match c with
  | .deactivate 2 _ => (.answered 503 .null, s)
  | _ => (.answered 200 .null, s)

/-- The first wallet was stopped on the engine, and all rows stay: both are shown as running. -/
theorem stop_endings_of_twoRunning :
    let d := (Desk.fresh () .counted .direct).run keepingSecond twoRunning
    let r : Strategy := ⟨1, 1, "s", none, .flow, .obj [("mode", .str "node")], true⟩
    let x := (Operation.deactivate r.id).run keepingSecond d
    r ∈ d.store.strategies ∧ Desk.isStorable r.id = true ∧
      x.sent.map (fun y => (y.call.verb, y.call.pair?, y.succeeds)) =
        [(.deactivate, some (1, 1), true), (.deactivate, some (2, 1), false)] ∧
      d.store.Lists (fun a => a.strategyId = r.id ∧ a.running = true)
        (d.store.runningOf r.id) ∧
      (d.store.runningOf r.id).map Assignment.walletId = [1, 2] := by
  intro d r x
  have hstrategies : d.store.strategies = [r] := by decide +kernel
  have hr : r ∈ d.store.strategies := hstrategies ▸ List.mem_singleton_self r
  exact ⟨hr, by decide, by decide +kernel,
    ((stop_endings keepingSecond () .counted .direct twoRunning).1 r hr (by decide)).1,
      by decide +kernel⟩

end StrategyDesk
