import StrategyDesk.Proofs.Exchanges
import StrategyDesk.Proofs.IdOrder

/-!
Starting a strategy, from its first check to its last call. A start is refused for the first wallet
that is not deployed; it runs through the stopped assignments in the order of their ids; and if one
of its calls fails, it takes back those before it and changes no row. What ran before is never
spoken of, and starting once more does nothing.
-/

set_option autoImplicit false

namespace StrategyDesk
open Engine

variable {σ : Type}

namespace Store

def Deployed (s : Store) (walletId : Int) : Prop :=
  ∃ w ∈ s.wallets, w.id = walletId ∧ w.status = Wallet.deployed

variable {s : Store}

theorem Linked.isReady_iff (h : s.Linked) {a : Assignment} :
    s.isReady a = true ↔ s.Deployed a.walletId := by
  unfold isReady
  split
  · rename_i w hw
    obtain ⟨hmem, hid⟩ := mem_of_wallet? hw
    rw [Wallet.isDeployed, beq_iff_eq]
    constructor
    · intro hstatus
      exact ⟨w, hmem, hid, hstatus⟩
    · intro hdeployed
      obtain ⟨v, hv, hvid, hstatus⟩ := hdeployed
      rwa [List.inj_on_of_nodup_map h.walletIds hmem hv (hid.trans hvid.symm)]
  · rename_i hnone
    refine iff_of_false Bool.false_ne_true fun hdeployed => ?_
    obtain ⟨v, hv, hvid, -⟩ := hdeployed
    rw [← hvid, h.wallet?_eq hv] at hnone
    cases hnone

/-! ### The tables after a start -/

theorem hasRunning_start (s : Store) (id : Int) :
    (s.start id).hasRunning id = s.assignments.any fun a => a.strategyId == id := by
  rw [Bool.eq_iff_iff, hasRunning_iff, assignments_start, List.any_eq_true]
  constructor
  · intro hex
    obtain ⟨b, hb, hid, -⟩ := hex
    obtain ⟨a, ha, rfl⟩ := List.mem_map.1 hb
    refine ⟨a, ha, beq_iff_eq.2 ?_⟩
    split at hid <;> exact hid
  · intro hex
    obtain ⟨a, ha, hid⟩ := hex
    have hid := beq_iff_eq.1 hid
    refine ⟨_, List.mem_map_of_mem ha, ?_⟩
    cases hrun : a.running <;> simp [hid, hrun]

theorem strategies_start_eq (s : Store) (id : Int) :
    (s.start id).strategies = s.strategies.map fun r =>
      if r.id = id then { r with active := s.assignments.any fun a => a.strategyId == id }
      else r := by
  rw [← hasRunning_start]
  rfl

theorem stoppedOf_start (s : Store) (id : Int) : (s.start id).stoppedOf id = [] := by
  rw [List.eq_nil_iff_forall_not_mem]
  intro b hb
  obtain ⟨hmem, hid, hstopped⟩ := mem_of_stoppedOf hb
  rw [assignments_start] at hmem
  obtain ⟨a, -, rfl⟩ := List.mem_map.1 hmem
  split at hstopped
  · cases hstopped
  · rename_i hnot
    exact hnot ⟨by split at hid <;> exact hid, hstopped⟩

theorem Sound.start_eq_self (h : s.Sound) {id : Int} (hidle : s.stoppedOf id = []) :
    s.start id = s := by
  have hassignments : (s.start id).assignments = s.assignments := by
    rw [assignments_start]
    refine (List.map_congr_left fun a ha => if_neg fun hstopped => ?_).trans (List.map_id _)
    have hmem : a ∈ s.stoppedOf id := by
      simp only [stoppedOf, ofStrategy, List.mem_filter, beq_iff_eq, Bool.not_eq_true']
      exact ⟨⟨ha, hstopped.1⟩, hstopped.2⟩
    rw [hidle] at hmem
    cases hmem
  have hrunning : (s.start id).hasRunning id = s.hasRunning id :=
    hasRunning_congr fun _ => runs_congr hassignments
  have hstrategies : (s.start id).strategies = s.strategies := by
    refine (List.map_congr_left fun r hr => ?_).trans (List.map_id _)
    split
    · rename_i hid
      change { r with active := (s.start id).hasRunning id } = r
      rw [hrunning, ← hid, ← h.active r hr]
    · rfl
  exact congrArg₂ (Store.mk s.wallets) hstrategies hassignments

end Store

/-! ### How a start ends -/

/-- How a start of a strategy ends, told of its stopped assignments: it is refused for the first
that has no deployed wallet, it starts them all, or it takes back those before one that failed. -/
inductive Activated (d : Desk σ) (r : Strategy) (rows : List Assignment) :
    Ending σ Result → Prop where
  | refused {before after : List Assignment} {a : Assignment} (hrows : rows = before ++ a :: after)
    (hbefore : ∀ b ∈ before, d.store.Deployed b.walletId)
    (ha : ¬ d.store.Deployed a.walletId) :
    Activated d r rows ⟨.error (.walletNotDeployed a.walletId), d, [], []⟩
  | started {x : Ending σ Result} (hdeployed : ∀ a ∈ rows, d.store.Deployed a.walletId)
    (hcalls : x.sent.map Exchange.call =
      rows.map fun a => .activate a.walletId r.id (d.store.termsOf r a))
    (hok : ∀ y ∈ x.sent, y.succeeds = true)
    (hresult : x.result = .ok (.walletIds (rows.map Assignment.walletId)))
    (hwallets : x.desk.store.wallets = d.store.wallets)
    (hstrategies : x.desk.store.strategies = d.store.strategies.map fun q =>
      if q.id = r.id then { q with active := d.store.assignments.any fun a => a.strategyId == r.id }
      else q)
    (hassignments : x.desk.store.assignments = d.store.assignments.map fun a =>
      if a.strategyId = r.id ∧ a.running = false then { a with running := true, started := true }
      else a) : Activated d r rows x
  | undone {x : Ending σ Result} {before after : List Assignment} {a : Assignment}
    {starts undoings : List Exchange} {y : Exchange} {f : Failure}
    (hdeployed : ∀ a ∈ rows, d.store.Deployed a.walletId) (hrows : rows = before ++ a :: after)
    (hsent : x.sent = starts ++ y :: undoings)
    (hstarts : starts.map Exchange.call =
      before.map fun b => .activate b.walletId r.id (d.store.termsOf r b))
    (hok : ∀ z ∈ starts, z.succeeds = true)
    (hy : y.call = .activate a.walletId r.id (d.store.termsOf r a))
    (hfailed : y.reply.outcome y.call = .error f)
    (hundoings : undoings.map Exchange.call = before.map fun b => .deactivate b.walletId r.id)
    (hresult : x.result = .error f) (hstore : x.desk.store = d.store) : Activated d r rows x

theorem Activated.of_failure {d : Desk σ} {r : Strategy} {rows : List Assignment}
    {sent undoings : List Exchange} {f : Failure} {x : Ending σ Result}
    (hdeployed : ∀ a ∈ rows, d.store.Deployed a.walletId) (hids : ∀ a ∈ rows, a.strategyId = r.id)
    (hfailure : ∃ ys y rest, sent = ys ++ [y] ∧ (∀ z ∈ ys, z.succeeds = true) ∧
      y.reply.outcome y.call = .error f ∧
      rows.map (d.store.activation r) = ys.map Exchange.call ++ y.call :: rest)
    (hundoings : undoings.map Exchange.call = Desk.undoing sent)
    (hsent : x.sent = sent ++ undoings) (hresult : x.result = .error f)
    (hstore : x.desk.store = d.store) : Activated d r rows x := by
  obtain ⟨starts, y, rest, rfl, hok, hy, hcalls⟩ := hfailure
  obtain ⟨before, tail, hrows, hstarts, htail⟩ := List.map_eq_append_iff.1 hcalls
  obtain ⟨a, after, rfl, ha, -⟩ := List.map_eq_cons_iff.1 htail
  have hids : ∀ b ∈ before, b.strategyId = r.id := fun b hb =>
    hids b (hrows ▸ List.mem_append_left _ hb)
  have hsent : x.sent = starts ++ y :: undoings := by rw [hsent, List.append_assoc]; rfl
  refine .undone hdeployed hrows hsent hstarts.symm hok ha.symm hy ?_ hresult hstore
  rw [hundoings, Desk.undoing_activations hids hstarts.symm hok (not_succeeds_of_outcome hy)]
  exact List.map_congr_left fun b hb => by rw [Assignment.stopCall, hids b hb]

theorem Desk.activated (e : Behaviour σ) {d : Desk σ} (h : d.store.Linked) {r : Strategy}
    (hr : d.store.findStrategy r.id = .ok r) :
    Activated d r (d.store.stoppedOf r.id) ((Operation.activate r.id).run e d) ∧
      Answers e d.engine ((Operation.activate r.id).run e d).sent
        ((Operation.activate r.id).run e d).desk.engine := by
  simp only [Desk.run_eq, Operation.ending, Desk.activate, hr]
  split
  · rename_i a ha
    obtain ⟨hnot, before, after, hrows, hbefore⟩ := List.find?_eq_some_iff_append.1 ha
    refine ⟨.refused hrows (fun b hb => ?_) fun hdeployed => ?_, .nil⟩
    · exact h.isReady_iff.1 (by simpa using hbefore b hb)
    · rw [h.isReady_iff.2 hdeployed] at hnot
      cases hnot
  · rename_i hready
    have hdeployed : ∀ a ∈ d.store.stoppedOf r.id, d.store.Deployed a.walletId := fun a ha =>
      h.isReady_iff.1 (by simpa using List.find?_eq_none.1 hready a ha)
    have hids : ∀ a ∈ d.store.stoppedOf r.id, a.strategyId = r.id := fun a ha =>
      (Store.mem_of_stoppedOf ha).2.1
    have hanswers := answers_sendWhileOk (e := e) d.engine
      ((d.store.stoppedOf r.id).map (d.store.activation r))
    split
    · rename_i hf
      exact ⟨.started hdeployed (sendWhileOk_calls_of_ok hf) (succeeds_of_sendWhileOk hf) rfl rfl
        (Store.strategies_start_eq _ _) (Store.assignments_start _ _), hanswers⟩
    · rename_i f hf
      exact ⟨.of_failure hdeployed hids (sendWhileOk_split_of_failure hf) (sendAll_calls e _ _) rfl
        rfl rfl, hanswers.append (answers_sendAll _ _)⟩

theorem Activated.mem_of_call {d : Desk σ} {r : Strategy} {rows : List Assignment}
    {x : Ending σ Result} (h : Activated d r rows x) {y : Exchange} (hy : y ∈ x.sent) :
    ∃ a ∈ rows, y.call.pair? = some (a.walletId, r.id) := by
  have hmem {as : List Assignment} {f : Assignment → Call} {ys : List Exchange}
      (hcalls : ys.map Exchange.call = as.map f) (hy : y ∈ ys) : ∃ a ∈ as, f a = y.call :=
    List.mem_map.1 (hcalls ▸ List.mem_map_of_mem hy)
  cases h with
  | refused => cases hy
  | started _ hcalls =>
    obtain ⟨a, ha, hcall⟩ := hmem hcalls hy
    exact ⟨a, ha, by rw [← hcall]; rfl⟩
  | undone _ hrows hsent hstarts _ hfailed _ hundoings =>
    rw [hsent, List.mem_append, List.mem_cons] at hy
    rcases hy with hy | rfl | hy
    · obtain ⟨a, ha, hcall⟩ := hmem hstarts hy
      exact ⟨a, hrows ▸ List.mem_append_left _ ha, by rw [← hcall]; rfl⟩
    · exact ⟨_, hrows ▸ List.mem_append_right _ List.mem_cons_self, by rw [hfailed]; rfl⟩
    · obtain ⟨a, ha, hcall⟩ := hmem hundoings hy
      exact ⟨a, hrows ▸ List.mem_append_left _ ha, by rw [← hcall]; rfl⟩

theorem Desk.activate_of_idle (e : Behaviour σ) {d : Desk σ} (h : d.store.Sound) {r : Strategy}
    {id : Int} (hr : d.store.findStrategy id = .ok r) (hidle : d.store.stoppedOf id = []) :
    (Operation.activate id).run e d = d.answer (.walletIds []) := by
  simp only [Desk.run_eq, Operation.ending, Desk.activate, hr, hidle, h.start_eq_self hidle]
  rfl

theorem Operation.store_of_activate {e : Behaviour σ} {d : Desk σ} {id : Int} {a : Result}
    (h : ((activate id).run e d).result = .ok a) :
    ((activate id).run e d).desk.store = d.store.start id := by
  have hdone := done_of_ok h
  generalize ((activate id).run e d).desk.store = s at hdone ⊢
  cases hdone
  rfl

theorem Operation.activate_again {e : Behaviour σ} {d : Desk σ} (hs : d.store.Sound)
    {r : Strategy} (hr : r ∈ d.store.strategies) (hid : Desk.isStorable r.id = true) {a : Result}
    (ha : ((activate r.id).run e d).result = .ok a) (e' : Behaviour σ) :
    (activate r.id).run e' ((activate r.id).run e d).desk =
      ((activate r.id).run e d).desk.answer (.walletIds []) := by
  have hstore := store_of_activate ha
  have hsound := (activate r.id).sound_run e hs
  have hids : r.id ∈ ((activate r.id).run e d).desk.store.strategies.map Strategy.id := by
    rw [hstore, Store.strategies_start (g := Strategy.id) fun _ _ => rfl]
    exact List.mem_map_of_mem hr
  obtain ⟨q, hq⟩ := hsound.toLinked.exists_findStrategy hids hid
  exact Desk.activate_of_idle e' hsound hq (hstore ▸ Store.stoppedOf_start _ _)

/-- How a start of a strategy ends on a reachable desk, by its stopped assignments in the order of
their ids. It speaks of no pair that ran before, and once it is done a further start of the strategy
does nothing, whatever engine it may find. An id that is out of the range of lookups is not given
out before 2 ^ 63 rows were made. -/
theorem activation_endings (e : Behaviour σ) (engine : σ) (ids : Form.Supply) (room : Room)
    (os : List Operation) {r : Strategy}
    (hr : r ∈ ((Desk.fresh engine ids room).run e os).store.strategies)
    (hid : Desk.isStorable r.id = true) :
    let d := (Desk.fresh engine ids room).run e os
    let rows := d.store.stoppedOf r.id
    let x := (Operation.activate r.id).run e d
    d.store.Lists (fun a => a.strategyId = r.id ∧ a.running = false) rows ∧
      Activated d r rows x ∧ Answers e d.engine x.sent x.desk.engine ∧
      (∀ b ∈ d.store.assignments, b.strategyId = r.id → b.running = true →
        ∀ y ∈ x.sent, y.call.pair? ≠ some (b.walletId, r.id)) ∧
      ∀ a, x.result = .ok a → ∀ e' : Behaviour σ,
        (Operation.activate r.id).run e' x.desk = x.desk.answer (.walletIds []) := by
  intro d rows x
  have hs : d.store.Sound := Desk.sound_run e engine ids room os
  have hfind := hs.toLinked.findStrategy_eq hr hid
  obtain ⟨hactivated, hanswers⟩ := Desk.activated e hs.toLinked hfind
  refine ⟨Store.lists_stoppedOf (Desk.ascending_run e engine ids room os) r.id, hactivated,
    hanswers, fun b hb hbid hrun y hy hpair => ?_,
    fun a ha e' => Operation.activate_again hs hr hid ha e'⟩
  obtain ⟨a, ha, hcall⟩ := hactivated.mem_of_call hy
  obtain ⟨hmem, haid, hstopped⟩ := Store.mem_of_stoppedOf ha
  rw [hcall, Option.some.injEq, Prod.mk.injEq] at hpair
  refine hs.toLinked.not_runs hmem hstopped ⟨b, hb, ?_, hrun⟩
  rw [Assignment.pair, Assignment.pair, hpair.1, hbid, haid]

def twoMore : List Operation :=
  [.addWallet (some Wallet.deployed) none none, .addWallet (some Wallet.deployed) none none,
    .addWallet (some Wallet.deployed) none none,
    .createStrategy (some 1) (some "s") none (.obj [("mode", .str "node")]),
    .assignStrategy 1 1 ⟨.null, .int 100, .null⟩, .activate 1,
    .assignStrategy 2 1 ⟨.null, .int 100, .null⟩, .assignStrategy 3 1 ⟨.null, .int 100, .null⟩]

def Engine.refusingThird : Behaviour Unit := fun s c =>
  match c with
  | .activate 3 _ _ => (.answered 500 .null, s)
  | .deactivate _ _ => (.unreachable "timeout" "", s)
  | _ => (.answered 200 .null, s)

/-- The start on the second wallet is taken back, though in vain; the first is left alone. -/
theorem activation_endings_of_twoMore :
    let d := (Desk.fresh () .counted .direct).run refusingThird twoMore
    let r : Strategy := ⟨1, 1, "s", none, .flow, .obj [("mode", .str "node")], true⟩
    let x := (Operation.activate r.id).run refusingThird d
    r ∈ d.store.strategies ∧ Desk.isStorable r.id = true ∧
      x.sent.map (fun y => (y.call.verb, y.call.pair?, y.succeeds)) =
        [(.activate, some (2, 1), true), (.activate, some (3, 1), false),
          (.deactivate, some (2, 1), false)] ∧
      Activated d r (d.store.stoppedOf r.id) x := by
  intro d r x
  have hstrategies : d.store.strategies = [r] := by decide +kernel
  have hr : r ∈ d.store.strategies := hstrategies ▸ List.mem_singleton_self r
  subst d
  have hactivated := activation_endings refusingThird () .counted .direct twoMore (r := r)
  exact ⟨hr, by decide, by decide +kernel, (hactivated hr (by decide)).2.1⟩

end StrategyDesk
