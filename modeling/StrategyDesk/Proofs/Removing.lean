import StrategyDesk.Proofs.Stopping

/-!
Removing strategies, wallets and assignments. What a removal takes away is told by three properties
of rows, and so are the tables after it: nothing else changes but the flags of strategies that lose
an assignment. Before a row goes the engine is called for each running assignment that goes with it,
and a call that fails leaves everything in place. So nothing that runs is ever removed unless the
engine has just stopped it.
-/

set_option autoImplicit false

namespace StrategyDesk
open Engine

variable {σ : Type}

structure Removal where
  wallet : Wallet → Bool
  strategy : Strategy → Bool
  assignment : Assignment → Bool

namespace Removal

def ofStrategy (id : Int) : Removal :=
  ⟨fun _ => false, fun r => r.id == id, fun a => a.strategyId == id⟩

def ofWallet (id : Int) : Removal :=
  ⟨fun w => w.id == id, fun _ => false, fun a => a.walletId == id⟩

def ofPair (walletId strategyId : Int) : Removal :=
  ⟨fun _ => false, fun _ => false, fun a => a.isPair walletId strategyId⟩

end Removal

namespace Store

/-- The tables without what a removal takes away. A strategy that stays and loses an assignment is
active exactly while it keeps one that runs. -/
def minus (s : Store) (m : Removal) : Store :=
  let kept := s.assignments.filter fun a => !m.assignment a
  { wallets := s.wallets.filter fun w => !m.wallet w
    strategies := (s.strategies.filter fun r => !m.strategy r).map fun r =>
      if s.assignments.any fun a => m.assignment a && a.strategyId == r.id then
        { r with active := kept.any fun a => a.strategyId == r.id && a.running }
      else r
    assignments := kept }

variable {s : Store}

theorem hasRunning_eq_any (s : Store) (id : Int) :
    s.hasRunning id = s.assignments.any fun a => a.strategyId == id && a.running := by
  rw [hasRunning, ofStrategy, List.any_filter]

theorem refreshAll_eq (s : Store) (ids : List Int) : ids.foldl refreshActive s =
    { s with
      strategies := s.strategies.map fun r =>
        if r.id ∈ ids then { r with active := s.hasRunning r.id } else r } := by
  induction ids generalizing s with
  | nil => simp
  | cons id ids ih =>
    -- What a strategy is refreshed by is in the assignments, which no refreshing changes.
    have hrows : (s.refreshActive id).strategies.map (fun r =>
          if r.id ∈ ids then { r with active := s.hasRunning r.id } else r) =
        s.strategies.map fun r =>
          if r.id ∈ id :: ids then { r with active := s.hasRunning r.id } else r := by
      simp only [refreshActive, onStrategy, List.map_map]
      refine List.map_congr_left fun r _ => ?_
      by_cases hid : r.id = id
      · by_cases hmem : id ∈ ids <;> simp [hid, hmem]
      · by_cases hmem : r.id ∈ ids <;> simp [hid, hmem]
    rw [List.foldl_cons, ih]
    exact congrArg (fun rs => Store.mk s.wallets rs s.assignments) hrows

theorem dropStrategy_eq (s : Store) (id : Int) : s.dropStrategy id = s.minus (.ofStrategy id) := by
  have hwallets : s.wallets = s.wallets.filter fun _ => !false := by simp
  have hstrategies : s.strategies.filter (fun r => r.id != id) =
      (s.minus (.ofStrategy id)).strategies := by
    refine ((List.map_congr_left fun r hr => if_neg fun hany => ?_).trans (List.map_id _)).symm
    obtain ⟨a, -, ha⟩ := List.any_eq_true.1 hany
    simp only [Removal.ofStrategy, Bool.and_eq_true, beq_iff_eq] at ha
    have hid := bne_iff_ne.1 (List.mem_filter.1 hr).2
    exact hid (ha.2.symm.trans ha.1)
  rw [dropStrategy, hstrategies]
  exact congrArg (fun ws => Store.mk ws _ _) hwallets

theorem withoutWallet_eq (s : Store) (id : Int) : s.withoutWallet id = s.minus (.ofWallet id) := by
  have hlost (r : Strategy) : r.id ∈ (s.ofWallet id).map Assignment.strategyId ↔
      (s.assignments.any fun a => a.walletId == id && a.strategyId == r.id) = true := by
    simp [ofWallet, and_assoc]
  rw [withoutWallet, refreshAll_eq]
  simp only [minus, Removal.ofWallet, Bool.not_false, List.filter_true, hlost, hasRunning_eq_any]
  rfl

theorem Linked.isPair_iff (h : s.Linked) {a b : Assignment} (ha : a ∈ s.assignments)
    (hb : b ∈ s.assignments) : b.isPair a.walletId a.strategyId = true ↔ b = a := by
  rw [Assignment.isPair, Bool.and_eq_true, beq_iff_eq, beq_iff_eq]
  constructor
  · intro hsides
    exact h.assignment_eq_of_pair hb ha (Prod.ext hsides.1 hsides.2)
  · intro heq
    rw [heq]
    exact ⟨rfl, rfl⟩

theorem Linked.withoutAssignment_eq (h : s.Linked) {a : Assignment} (ha : a ∈ s.assignments) :
    s.withoutAssignment a = s.minus (.ofPair a.walletId a.strategyId) := by
  have hpair : ∀ b ∈ s.assignments, b.isPair a.walletId a.strategyId = (b.id == a.id) := by
    intro b hb
    rw [Bool.eq_iff_iff, h.isPair_iff ha hb, beq_iff_eq]
    exact ⟨congrArg Assignment.id, h.assignment_eq hb ha⟩
  have hkept : s.assignments.filter (fun b => b.id != a.id) =
      s.assignments.filter fun b => !b.isPair a.walletId a.strategyId :=
    List.filter_congr fun b hb => by rw [hpair b hb]; rfl
  have hlost (r : Strategy) : r.id = a.strategyId ↔
      (s.assignments.any fun b => b.isPair a.walletId a.strategyId && b.strategyId == r.id) =
        true := by
    rw [List.any_eq_true]
    simp only [Bool.and_eq_true, beq_iff_eq]
    constructor
    · intro hid
      exact ⟨a, ha, (h.isPair_iff ha ha).2 rfl, hid.symm⟩
    · intro hex
      obtain ⟨b, hb, hb', hid⟩ := hex
      rw [← hid, (h.isPair_iff ha hb).1 hb']
  have hstrategies : (s.withoutAssignment a).strategies =
      (s.minus (.ofPair a.walletId a.strategyId)).strategies := by
    simp only [minus, Removal.ofPair, Bool.not_false, List.filter_true, ← hlost, ← hkept]
    refine List.map_congr_left fun r _ => ?_
    split
    case isTrue hid =>
      have hflag : (s.dropAssignment a.id).hasRunning a.strategyId =
          (s.dropAssignment a.id).assignments.any fun b => b.strategyId == r.id && b.running := by
        rw [hasRunning_eq_any, hid]
      exact congrArg (fun b => { r with active := b }) hflag
    case isFalse => rfl
  refine (congrArg₂ (Store.mk s.wallets) hstrategies hkept).trans ?_
  simp only [minus, Removal.ofPair, Bool.not_false, List.filter_true]

end Store

/-! ### How a removal ends -/

/-- How a removal ends: the engine is called for the running assignments that go, in the order of
their ids, and if no call fails the tables are the old ones without what goes. -/
structure Removes (e : Behaviour σ) (d : Desk σ) (m : Removal) (x : Ending σ Result) : Prop where
  swept : ∃ rows, d.store.Lists (fun a => m.assignment a = true ∧ a.running = true) rows ∧
    Swept e d (rows.map fun a => .deactivate a.walletId a.strategyId) .nothing (d.store.minus m) x
  isOk_iff : (∃ a, x.result = .ok a) ↔ ∀ y ∈ x.sent, y.succeeds = true

theorem removes_sweeping {e : Behaviour σ} {d : Desk σ} {m : Removal} {rows : List Assignment}
    {after : Store} {lines : Int → Int → Log} {last : Log}
    (hrows : d.store.Lists (fun a => m.assignment a = true ∧ a.running = true) rows)
    (hafter : after = d.store.minus m) :
    Removes e d m ((d.sweeping e (rows.map Assignment.stopCall) lines () after last).map
      fun _ => .nothing) := by
  subst hafter
  have hswept : Swept e d (rows.map Assignment.stopCall) .nothing (d.store.minus m)
      ((d.sweeping e (rows.map Assignment.stopCall) lines () (d.store.minus m) last).map
        fun _ => .nothing) :=
    swept_sweeping fun _ => .nothing
  exact ⟨⟨rows, hrows, hswept⟩, hswept.isOk_iff⟩

/-! ### What runs is stopped before it goes -/

open Store in
theorem Store.Linked.stays_place {s : Store} (h : s.Linked) {walletId strategyId : Int}
    {request : AssignRequest} {markets : List Text} {new a : Assignment}
    (hnew : request.row (s.assignment? walletId strategyId)
      (s.blankAssignment walletId strategyId) markets = .ok new) (ha : a ∈ s.assignments) :
    ∃ b ∈ (s.place (s.assignment? walletId strategyId) new).assignments,
      b.id = a.id ∧ b.pair = a.pair := by
  obtain ⟨limit, paper, -, -, rfl⟩ := AssignRequest.row_eq hnew
  cases hold : s.assignment? walletId strategyId with
  | none => exact ⟨a, List.mem_append_left _ ha, rfl, rfl⟩
  | some old =>
    refine ⟨_, List.mem_map_of_mem ha, ?_⟩
    split
    · rename_i hid
      have heq := h.assignment_eq ha (mem_of_assignment? hold).1 hid
      rw [heq]
      exact ⟨rfl, rfl⟩
    · exact ⟨rfl, rfl⟩

theorem mem_runningStops {as : List Assignment} {a : Assignment} (ha : a ∈ as)
    (hrun : a.running = true) :
    Assignment.stopCall a ∈ (as.filter Assignment.running).map Assignment.stopCall :=
  List.mem_map_of_mem (List.mem_filter.2 ⟨ha, hrun⟩)

namespace Operation

theorem Done.stays_or_stopped {d : Desk σ} {o : Operation} {r : Result} {s : Store}
    (h : o.Done d r s) (hs : d.store.Linked) {a : Assignment} (ha : a ∈ d.store.assignments) :
    (∃ b ∈ s.assignments, b.id = a.id ∧ b.pair = a.pair) ∨
      (a.running = true → Assignment.stopCall a ∈ o.calls d.store) := by
  cases h with
  | deleteStrategy =>
    rename_i id _ _
    by_cases hid : a.strategyId = id
    · refine Or.inr (mem_runningStops (List.mem_filter.2 ⟨ha, ?_⟩))
      exact beq_iff_eq.2 hid
    · exact Or.inl ⟨a, List.mem_filter.2 ⟨ha, bne_iff_ne.2 hid⟩, rfl, rfl⟩
  | deleteWallet =>
    rename_i id _ _ _
    by_cases hid : a.walletId = id
    · refine Or.inr (mem_runningStops (List.mem_filter.2 ⟨ha, ?_⟩))
      exact beq_iff_eq.2 hid
    · refine Or.inl ⟨a, ?_, rfl, rfl⟩
      rw [Store.withoutWallet, Store.assignments_refreshAll]
      exact List.mem_filter.2 ⟨ha, bne_iff_ne.2 hid⟩
  | unassignStrategy hfind =>
    rename_i gone
    by_cases hid : a.id = gone.id
    · have hgone := Store.assignment?_of_find hfind
      have heq := hs.assignment_eq ha (Store.mem_of_assignment? hgone).1 hid
      refine Or.inr fun hrun => ?_
      rw [heq] at hrun ⊢
      simp [calls, hgone, hrun]
    · exact Or.inl ⟨a, List.mem_filter.2 ⟨ha, bne_iff_ne.2 hid⟩, rfl, rfl⟩
  | assignStrategy _ _ _ hrow =>
    exact Or.inl (hs.stays_place hrow ha)
  | activate =>
    rw [Store.assignments_start]
    exact Or.inl ⟨_, List.mem_map_of_mem ha, by split <;> rfl, by split <;> rfl⟩
  | deactivate =>
    rw [Store.assignments_stop]
    exact Or.inl ⟨_, List.mem_map_of_mem ha, by split <;> rfl, by split <;> rfl⟩
  | _ => exact Or.inl ⟨a, ha, rfl, rfl⟩

/-- What runs does not go in an operation, unless the engine agrees in it to stop its pair. -/
theorem stays_or_stopped (e : Behaviour σ) {d : Desk σ} (o : Operation) (hs : d.store.Linked)
    {a : Assignment} (ha : a ∈ d.store.assignments) (hrun : a.running = true) :
    (∃ b ∈ (o.run e d).desk.store.assignments, b.id = a.id ∧ b.pair = a.pair) ∨
      ∃ x ∈ (o.run e d).sent,
        x.call = .deactivate a.walletId a.strategyId ∧ x.succeeds = true := by
  cases o.run_course e d with
  | refused _ hstore | stopped _ hstore =>
    rw [hstore]
    exact Or.inl ⟨a, ha, rfl, rfl⟩
  | done _ hdone hfailure hsent =>
    refine (hdone.stays_or_stopped hs ha).imp_right fun hstop => ?_
    have hcalls : (o.run e d).sent.map Exchange.call = o.calls d.store := by
      rw [hsent]
      exact sendWhileOk_calls_of_ok hfailure
    obtain ⟨x, hx, hcall⟩ := List.mem_map.1 (hcalls ▸ hstop hrun)
    exact ⟨x, hx, hcall, succeeds_of_sendWhileOk hfailure x (hsent ▸ hx)⟩

end Operation

theorem Store.Linked.lists_ofPair {s : Store} (h : s.Linked) {a : Assignment}
    (ha : a ∈ s.assignments) :
    s.Lists (fun b => b.isPair a.walletId a.strategyId = true ∧ b.running = true)
      (if a.running then [a] else []) := by
  refine ⟨by split <;> simp, fun b => ?_⟩
  constructor
  · intro hb
    split at hb
    · rename_i hrun
      rw [List.mem_singleton.1 hb]
      exact ⟨ha, (h.isPair_iff ha ha).2 rfl, hrun⟩
    · cases hb
  · intro hb
    obtain ⟨hmem, hpair, hrun⟩ := hb
    obtain rfl := (h.isPair_iff ha hmem).1 hpair
    rw [if_pos hrun]
    exact List.mem_singleton_self b

/-- How the removal of a strategy, of a wallet that is not being deployed, or of an assignment ends
on a reachable desk. And no operation at all removes an assignment that runs without having had it
stopped. -/
theorem removal_endings (e : Behaviour σ) (engine : σ) (ids : Form.Supply) (room : Room)
    (os : List Operation) :
    let d := (Desk.fresh engine ids room).run e os
    (∀ r ∈ d.store.strategies, Desk.isStorable r.id = true →
      Removes e d (.ofStrategy r.id) ((Operation.deleteStrategy r.id).run e d)) ∧
    (∀ w ∈ d.store.wallets, Desk.isStorable w.id = true → w.status ≠ Wallet.deploying →
      Removes e d (.ofWallet w.id) ((Operation.deleteWallet w.id).run e d)) ∧
    (∀ a ∈ d.store.assignments, Desk.isStorable a.walletId = true →
      Desk.isStorable a.strategyId = true →
      Removes e d (.ofPair a.walletId a.strategyId)
        ((Operation.unassignStrategy a.walletId a.strategyId).run e d)) ∧
    ∀ (o : Operation), ∀ a ∈ d.store.assignments, a.running = true →
      (∃ b ∈ (o.run e d).desk.store.assignments, b.id = a.id ∧ b.pair = a.pair) ∨
        ∃ x ∈ (o.run e d).sent,
          x.call = .deactivate a.walletId a.strategyId ∧ x.succeeds = true := by
  intro d
  have hs : d.store.Linked := (Desk.sound_run e engine ids room os).toLinked
  have hascending : d.store.Ascending := Desk.ascending_run e engine ids room os
  refine ⟨fun r hr hid => ?_, fun w hw hid hstatus => ?_, fun a ha hwid hsid => ?_,
    fun o a ha hrun => o.stays_or_stopped e hs ha hrun⟩
  · have hrows := (Store.lists_runningOf hascending r.id).congr
      (q := fun a => (Removal.ofStrategy r.id).assignment a = true ∧ a.running = true)
      fun a => and_congr_left fun _ => beq_iff_eq.symm
    simp only [Desk.run_eq, Operation.ending, Desk.deleteStrategy, hs.findStrategy_eq hr hid]
    exact removes_sweeping hrows (d.store.dropStrategy_eq r.id)
  · have hrows := (Store.lists_runningOn hascending w.id).congr
      (q := fun a => (Removal.ofWallet w.id).assignment a = true ∧ a.running = true)
      fun a => and_congr_left fun _ => beq_iff_eq.symm
    have hidle : w.isDeploying = false := beq_eq_false_iff_ne.2 hstatus
    simp only [Desk.run_eq, Operation.ending, Desk.deleteWallet, hs.findWallet_eq hw hid, hidle,
      Bool.false_eq_true, ↓reduceIte]
    exact removes_sweeping hrows (d.store.withoutWallet_eq w.id)
  · have hcalls : (if a.running then [Assignment.stopCall a] else []) =
        (if a.running then [a] else []).map Assignment.stopCall := by
      split <;> rfl
    simp only [Desk.run_eq, Operation.ending, Desk.unassignStrategy, hs.findAssignment_eq ha hwid
      hsid, hcalls]
    exact removes_sweeping (hs.lists_ofPair ha) (hs.withoutAssignment_eq ha)

/-- The first wallet is given up, and the strategy stays active for the second, which is not given
up as the engine does not stop it. -/
theorem removal_endings_of_twoRunning :
    let d := (Desk.fresh () .counted .direct).run keepingSecond twoRunning
    let x := (Operation.unassignStrategy 1 1).run keepingSecond d
    let y := (Operation.deleteStrategy 1).run keepingSecond x.desk
    (∃ a ∈ d.store.assignments, a.pair = (1, 1) ∧ a.running = true) ∧
      Removes keepingSecond d (.ofPair 1 1) x ∧
      x.desk.store.assignments.map Assignment.pair = [(2, 1)] ∧
      x.desk.store.strategies.map Strategy.active = [true] ∧
      y.result = .error (.engine ⟨"deactivate", some 2, some 1, some 503, ""⟩) ∧
      y.desk.store = x.desk.store := by
  intro d x y
  have hrows : d.store.assignments.map (fun a => (a.pair, a.running)) =
      [((1, 1), true), ((2, 1), true)] := by decide +kernel
  obtain ⟨a, ha, heq⟩ := List.mem_map.1 (hrows ▸ List.mem_cons_self)
  obtain ⟨hpair, hrun⟩ := Prod.mk.inj heq
  obtain ⟨hw, hsid⟩ := Prod.mk.inj hpair
  have hremoves := (removal_endings keepingSecond () .counted .direct twoRunning).2.2.1 a ha
  rw [hw, hsid] at hremoves
  have hstays : y.desk.store = x.desk.store := by decide +kernel
  exact ⟨⟨a, ha, hpair, hrun⟩, hremoves (by decide) (by decide), by decide +kernel,
    by decide +kernel, by set_option maxRecDepth 8000 in rfl, hstays⟩

end StrategyDesk
