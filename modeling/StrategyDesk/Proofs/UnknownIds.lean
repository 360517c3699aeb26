import StrategyDesk.Proofs.Requests

/-!
Requests about rows that are not there. The row is looked up before anything else is done, so such
a request changes nothing and tells the engine nothing. It is answered with the sentence of the
missing row, unless one of the ids that were looked up is too large for a look-up: then it is an
internal error.
-/

set_option autoImplicit false

namespace StrategyDesk

/-! ### Operations about missing rows -/

namespace Operation

/-- An operation is about a row that the tables do not have: the ids that are looked up for it, up
to the first that names no row, and the failure that tells of it. A pair is looked up at once. -/
inductive Misses (s : Store) : Operation → List Int → Failure → Prop where
  | updateStrategy {id : Int} {name description : Option Text} {g : Option Json}
    (hid : id ∉ s.strategies.map Strategy.id) :
    Misses s (.updateStrategy id name description g) [id] (.strategyNotFound id)
  | deleteStrategy {id : Int} (hid : id ∉ s.strategies.map Strategy.id) :
    Misses s (.deleteStrategy id) [id] (.strategyNotFound id)
  | activate {id : Int} (hid : id ∉ s.strategies.map Strategy.id) :
    Misses s (.activate id) [id] (.strategyNotFound id)
  | deactivate {id : Int} (hid : id ∉ s.strategies.map Strategy.id) :
    Misses s (.deactivate id) [id] (.strategyNotFound id)
  | kill {id : Int} (hid : id ∉ s.strategies.map Strategy.id) :
    Misses s (.kill id) [id] (.strategyNotFound id)
  | unkill {id : Int} (hid : id ∉ s.strategies.map Strategy.id) :
    Misses s (.unkill id) [id] (.strategyNotFound id)
  | deleteWallet {id : Int} (hid : id ∉ s.wallets.map Wallet.id) :
    Misses s (.deleteWallet id) [id] (.walletNotFound id)
  | assignOnUnknown {walletId strategyId : Int} {r : AssignRequest}
    (hwallet : walletId ∉ s.wallets.map Wallet.id) :
    Misses s (.assignStrategy walletId strategyId r) [walletId] (.walletNotFound walletId)
  | assignUnknown {walletId strategyId : Int} {r : AssignRequest}
    (hwallet : walletId ∈ s.wallets.map Wallet.id)
    (hstrategy : strategyId ∉ s.strategies.map Strategy.id) :
    Misses s (.assignStrategy walletId strategyId r) [walletId, strategyId]
      (.strategyNotFound strategyId)
  | unassign {walletId strategyId : Int}
    (hpair : walletId ∉ s.wallets.map Wallet.id ∨ strategyId ∉ s.strategies.map Strategy.id ∨
      (walletId, strategyId) ∉ s.assignments.map Assignment.pair) :
    Misses s (.unassignStrategy walletId strategyId) [walletId, strategyId]
      (.assignmentNotFound walletId strategyId)

end Operation

def Desk.lookupFailure (looked : List Int) (missing : Failure) : Failure :=
  if looked.all isStorable then missing else .crash .tooLarge

namespace Store
open Desk

variable {s : Store}

theorem find_none {α : Type} (id : Int) (missing : Failure) :
    find (none : Option α) id missing = .error (lookupFailure [id] missing) := by
  cases hid : isStorable id <;> simp [find, lookupFailure, hid]

theorem findStrategy_of_unknown {id : Int} (h : id ∉ s.strategies.map Strategy.id) :
    s.findStrategy id = .error (lookupFailure [id] (.strategyNotFound id)) := by
  have hnone : s.strategy? id = none :=
    List.find?_eq_none.2 fun r hr => by simpa using fun hid => h (List.mem_map.2 ⟨r, hr, hid⟩)
  rw [findStrategy, hnone, find_none]

theorem findWallet_of_unknown {id : Int} (h : id ∉ s.wallets.map Wallet.id) :
    s.findWallet id = .error (lookupFailure [id] (.walletNotFound id)) := by
  have hnone : s.wallet? id = none :=
    List.find?_eq_none.2 fun w hw => by simpa using fun hid => h (List.mem_map.2 ⟨w, hw, hid⟩)
  rw [findWallet, hnone, find_none]

theorem findAssignment_of_unknown {walletId strategyId : Int}
    (h : (walletId, strategyId) ∉ s.assignments.map Assignment.pair) :
    s.findAssignment walletId strategyId =
      .error (lookupFailure [walletId, strategyId] (.assignmentNotFound walletId strategyId)) := by
  have hnone : s.assignment? walletId strategyId = none := by
    cases hfind : s.assignment? walletId strategyId with
    | none => rfl
    | some a =>
      obtain ⟨ha, hpair⟩ := mem_of_assignment? hfind
      exact absurd (List.mem_map.2 ⟨a, ha, hpair⟩) h
  rw [findAssignment, hnone, lookupFailure, List.all_cons, List.all_cons, List.all_nil,
    Bool.and_true]
  split <;> rfl

theorem Linked.pair_unknown (hs : s.Linked) {walletId strategyId : Int}
    (h : walletId ∉ s.wallets.map Wallet.id ∨ strategyId ∉ s.strategies.map Strategy.id ∨
      (walletId, strategyId) ∉ s.assignments.map Assignment.pair) :
    (walletId, strategyId) ∉ s.assignments.map Assignment.pair := by
  intro hmem
  obtain ⟨a, ha, hpair⟩ := List.mem_map.1 hmem
  obtain ⟨rfl, rfl⟩ := Prod.mk.inj hpair
  obtain hwallet | hstrategy | hpair := h
  · exact hwallet (hs.hasWallet a ha)
  · exact hstrategy (hs.hasStrategy a ha)
  · exact hpair hmem

end Store

variable {σ : Type}

theorem Operation.Misses.run_eq {o : Operation} {looked : List Int} {f : Failure}
    (e : Engine.Behaviour σ) {d : Desk σ} (hs : d.store.Linked) (h : o.Misses d.store looked f) :
    o.run e d = d.refuse (Desk.lookupFailure looked f) := by
  rw [Desk.run_eq]
  cases h with
  | updateStrategy hid =>
    simp only [ending, Desk.updateStrategy, Store.findStrategy_of_unknown hid]
    rfl
  | deleteStrategy hid =>
    simp only [ending, Desk.deleteStrategy, Store.findStrategy_of_unknown hid]
    rfl
  | activate hid =>
    simp only [ending, Desk.activate, Store.findStrategy_of_unknown hid]
    rfl
  | deactivate hid =>
    simp only [ending, Desk.deactivate, Store.findStrategy_of_unknown hid]
    rfl
  | kill hid =>
    simp only [ending, Desk.kill, Store.findStrategy_of_unknown hid]
    rfl
  | unkill hid =>
    simp only [ending, Desk.unkill, Store.findStrategy_of_unknown hid]
    rfl
  | deleteWallet hid =>
    simp only [ending, Desk.deleteWallet, Store.findWallet_of_unknown hid]
    rfl
  | assignOnUnknown hwallet =>
    simp only [ending, Desk.assignStrategy, Store.findWallet_of_unknown hwallet]
    rfl
  | @assignUnknown walletId strategyId r hwallet hstrategy =>
    obtain ⟨w, hw⟩ := Store.exists_wallet? hwallet
    -- The wallet is there, but its id may be too large to be looked up.
    cases hstorable : Desk.isStorable walletId with
    | false =>
      simp only [ending, Desk.assignStrategy, Store.findWallet, Store.find, hstorable,
        Desk.lookupFailure, List.all_cons, Bool.false_and]
      rfl
    | true =>
      simp only [ending, Desk.assignStrategy, Store.findWallet, Store.find, hw, hstorable,
        Store.findStrategy_of_unknown hstrategy, Desk.lookupFailure, List.all_cons, Bool.true_and]
      rfl
  | unassign hpair =>
    simp only [ending, Desk.unassignStrategy,
      Store.findAssignment_of_unknown (hs.pair_unknown hpair)]
    rfl

theorem Operation.Misses.ofFailure_eq {s : Store} {o : Operation} {looked : List Int} {f : Failure}
    (h : o.Misses s looked f) :
    Service.Response.ofFailure f = .ofJson 404 (.obj [("error", .str f.message)]) := by
  cases h <;> rfl

/-! ### Requests about missing rows -/

namespace Service

/-- A request about a row that is not there leaves every reachable desk as it is and sends no call.
It is answered with the sentence of the missing row exactly if each of the ids that were looked up
has a place among the signed numbers of 64 bits; if one has none, it is an internal error. -/
theorem unknown_ids_not_found (s : Setup) (w : Outside σ) (engine : σ)
    (supply : Form.Supply) (room : Room) (os : List Operation)
    {r : Request} {e : Endpoint} {ids : PathIds} {o : Operation} {looked : List Int} {f : Failure}
    (hleads : Leads r.method (Net.segments (Net.path r.target)) e ids)
    (hasks : Asks ids (Carries w.requests.levels r.body) e o)
    (hmisses : o.Misses ((Desk.fresh engine supply room).run w.engine os).store looked f) :
    let d := (Desk.fresh engine supply room).run w.engine os
    let served := serve s w d r
    served.desk = d ∧ served.sent = [] ∧ served.asked = [] ∧
      ((∀ id ∈ looked, -Desk.idBound ≤ id ∧ id < Desk.idBound) →
        served.response = .ofJson 404 (.obj [("error", .str f.message)])) ∧
      ((∃ id ∈ looked, id < -Desk.idBound ∨ Desk.idBound ≤ id) →
        served.response = .internalError) := by
  intro d served
  have hlinked : d.store.Linked := (Desk.sound_run w.engine engine supply room os).toLinked
  have hrun : o.run w.engine d = d.refuse (Desk.lookupFailure looked f) :=
    hmisses.run_eq w.engine hlinked
  have hcommand : commandOf w.requests.levels r = .ok (.operate o) :=
    (commandOf_eq_operate_iff (route_of_leads hleads)).2 hasks
  have hserved : served = ⟨.ofFailure (Desk.lookupFailure looked f), d, [], [],
      Response.failureLog (Desk.lookupFailure looked f)⟩ := by
    have hfailed : (o.run w.engine d).result = .error (Desk.lookupFailure looked f) := by
      rw [hrun]
      rfl
    calc served = operate w d o := serve_of_command hcommand
      _ = _ := operate_of_failure hfailed
      _ = _ := by
        rw [hrun]
        rfl
  have hstorable : ∀ id, Desk.isStorable id = true ↔ -Desk.idBound ≤ id ∧ id < Desk.idBound :=
    fun id => decide_eq_true_iff
  rw [hserved]
  refine ⟨rfl, rfl, rfl, fun hall => ?_, fun ⟨id, hid, hlarge⟩ => ?_⟩
  · have hlooked : looked.all Desk.isStorable = true :=
      List.all_eq_true.2 fun id hid => (hstorable id).2 (hall id hid)
    rw [Desk.lookupFailure, if_pos hlooked, hmisses.ofFailure_eq]
  · have hlooked : ¬ looked.all Desk.isStorable = true := fun hall => by
      have := (hstorable id).1 (List.all_eq_true.1 hall id hid)
      omega
    rw [Desk.lookupFailure, if_neg hlooked]
    rfl

def assignedPair : List Operation :=
  [.addWallet (some Wallet.deployed) none none,
    .createStrategy (some 1) (some "s") none (.obj [("mode", .str "node")]),
    .assignStrategy 1 1 ⟨.null, .int 100, .null⟩]

def strangeText : List Char := "\x7b\"strategy_id\": \"7\"\x7d".toList

theorem carries_strangeText : Carries willing.requests.levels (some strangeText.utf8Encode)
    (.obj [("strategy_id", .str "7")]) :=
  carries_utf8Encode rfl (by decide +kernel)

/-- A strategy that does not exist is assigned to a wallet that does. -/
theorem unknown_ids_not_found_of_assignedPair :
    let d := (Desk.fresh () .counted .direct).run willing.engine assignedPair
    let r := firstAssignment strangeText.utf8Encode
    let ids : PathIds := [("wallet_id", "1")]
    let o := Operation.assignStrategy 1 7 ⟨.null, .int 100, .bool false⟩
    Leads r.method (Net.segments (Net.path r.target)) .assign ids ∧
      Asks ids (Carries willing.requests.levels r.body) .assign o ∧
      o.Misses d.store [1, 7] (.strategyNotFound 7) ∧
      d.store.assignments.map Assignment.pair = [(1, 1)] ∧
      (serve localSetup willing d r).desk = d ∧
      (serve localSetup willing d r).sent = [] ∧
      (serve localSetup willing d r).response = .ofJson 404
        (.obj [("error", .str "Strategy #7 does not exist")]) := by
  intro d r ids o
  have hleads : Leads r.method (Net.segments (Net.path r.target)) .assign ids :=
    leads_firstAssignment _
  have hasks : Asks ids (Carries willing.requests.levels r.body) .assign o :=
    .assign ⟨"1", rfl, .numeral rfl⟩ carries_strangeText ⟨_, rfl, .numeral rfl⟩ (Or.inr ⟨rfl, rfl⟩)
      (Or.inr ⟨rfl, rfl⟩) (Or.inr ⟨rfl, rfl⟩)
  have hmisses : o.Misses d.store [1, 7] (.strategyNotFound 7) :=
    .assignUnknown (by decide +kernel) (by decide +kernel)
  obtain ⟨hdesk, hsent, -, hfound, -⟩ :=
    unknown_ids_not_found localSetup willing () .counted .direct assignedPair hleads hasks hmisses
  exact ⟨hleads, hasks, hmisses, by decide +kernel, hdesk, hsent, hfound (by decide)⟩

/-- A path can ask for an id that no look-up takes, and no row can have it. -/
theorem internalError_of_largeId :
    let r : Request := ⟨"DELETE", "/strategies/9223372036854775808", none⟩
    let ids : PathIds := [("strategy_id", "9223372036854775808")]
    Leads r.method (Net.segments (Net.path r.target)) .delete ids ∧
      Asks ids (Carries willing.requests.levels r.body) .delete (.deleteStrategy Desk.idBound) ∧
      Desk.idBound ∉ (Desk.fresh () .counted .direct).store.strategies.map Strategy.id ∧
      (serve localSetup willing (Desk.fresh () .counted .direct) r).response.status = 500 := by
  intro r ids
  have hsegments : Net.segments (Net.path r.target) = ["strategies", "9223372036854775808"] := by
    decide +kernel
  refine ⟨?_, .delete ⟨"9223372036854775808", rfl, .numeral rfl⟩, List.not_mem_nil,
    by decide +kernel⟩
  rw [hsegments]
  exact .delete (by decide)

end Service

end StrategyDesk
