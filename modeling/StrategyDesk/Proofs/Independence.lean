import StrategyDesk.Proofs.Starting

/-!
Operations on different strategies. Such an operation reads the wallets, the row of its own strategy
and the assignments of it, and changes no other row. So two of them tell the same whichever of them
comes first, and leave the same tables, if the engine answers a call by what the call is about. It
does not matter whether they are done, are refused, or fail halfway and take back what they started.
-/

set_option autoImplicit false

namespace StrategyDesk
open Engine

variable {σ : Type}

/-! ### Engines without a memory -/

namespace Engine

/-- An engine whose answers are told from the verb, the wallet and the strategy of a call. -/
def AnswersByPair (e : Behaviour σ) : Prop :=
  ∃ reply : Verb → Option (Int × Int) → Reply, ∀ s c, (e s c).1 = reply c.verb c.pair?

variable {e : Behaviour σ}

theorem AnswersByPair.reply_eq (h : AnswersByPair e) (s t : σ) (c : Call) :
    (e t c).1 = (e s c).1 := by
  obtain ⟨reply, hreply⟩ := h
  rw [hreply, hreply]

theorem sendWhileOk_congr (h : AnswersByPair e) (s t : σ) (cs : List Call) :
    (sendWhileOk e t cs).sent = (sendWhileOk e s cs).sent ∧
      (sendWhileOk e t cs).failure = (sendWhileOk e s cs).failure := by
  induction cs generalizing s t with
  | nil => exact ⟨rfl, rfl⟩
  | cons c cs ih =>
    obtain ⟨hsent, hfailure⟩ := ih (e s c).2 (e t c).2
    simp only [sendWhileOk, h.reply_eq s t c]
    split
    · exact ⟨rfl, rfl⟩
    · exact ⟨congrArg (_ :: ·) hsent, hfailure⟩

theorem sendAll_congr (h : AnswersByPair e) (s t : σ) (cs : List Call) :
    (sendAll e t cs).1 = (sendAll e s cs).1 := by
  induction cs generalizing s t with
  | nil => rfl
  | cons c cs ih => simp only [sendAll, h.reply_eq s t c, ih (e s c).2 (e t c).2]

end Engine

/-! ### What is told of an operation -/

/-- What an operation tells: its result, the calls that it sent, and what it reported. -/
def Ending.told {α : Type} (x : Ending σ α) : Except Failure α × List Exchange × Log :=
  (x.result, x.sent, x.log)

theorem Ending.told_map {α β : Type} {x y : Ending σ α} (h : y.told = x.told) (f : α → β) :
    (y.map f).told = (x.map f).told :=
  congrArg (fun t : Except Failure α × List Exchange × Log => (t.1.map f, t.2)) h

section Sweeping

variable {e : Behaviour σ} (he : AnswersByPair e) {α : Type} {d d' : Desk σ} {calls : List Call}
  {lines : Int → Int → Log} {a : α} {s s' : Store} {last : Log}
include he

theorem Desk.told_sweeping :
    (d'.sweeping e calls lines a s' last).told = (d.sweeping e calls lines a s last).told := by
  obtain ⟨hsent, hfailure⟩ := sendWhileOk_congr he d.engine d'.engine calls
  simp only [Desk.sweeping, hsent, hfailure]
  split <;> rfl

theorem Desk.told_found (row : Except Failure Strategy) :
    Ending.told (match row with
      | .error f => d'.refuse f
      | .ok _ => d'.sweeping e calls lines a s' last) =
    Ending.told (match row with
      | .error f => d.refuse f
      | .ok _ => d.sweeping e calls lines a s last) := by
  cases row with
  | error f => rfl
  | ok r => exact told_sweeping he

end Sweeping

/-! ### The part of the tables that belongs to a strategy -/

namespace Store

/-- Tables with the same wallets, and the same row and assignments of a strategy. -/
structure SameFor (s t : Store) (id : Int) : Prop where
  wallets : t.wallets = s.wallets
  strategy : t.strategy? id = s.strategy? id
  assignments : t.ofStrategy id = s.ofStrategy id

namespace SameFor

variable {s t : Store} {id : Int}

theorem findStrategy_eq (h : s.SameFor t id) : t.findStrategy id = s.findStrategy id := by
  rw [findStrategy, findStrategy, h.strategy]

theorem stoppedOf_eq (h : s.SameFor t id) : t.stoppedOf id = s.stoppedOf id := by
  rw [stoppedOf, stoppedOf, h.assignments]

theorem runningOf_eq (h : s.SameFor t id) : t.runningOf id = s.runningOf id := by
  rw [runningOf, runningOf, h.assignments]

theorem isReady_eq (h : s.SameFor t id) : t.isReady = s.isReady := by
  funext a
  simp only [isReady, wallet?, h.wallets]

theorem activation_eq (h : s.SameFor t id) : t.activation = s.activation := by
  funext r a
  simp only [activation, termsOf, wallet?, h.wallets]

end SameFor

end Store

/-- A change of the rows of one strategy: what becomes of its own row, which is told from its
assignments, and what becomes of each of them. -/
structure StrategyChange where
  row : List Assignment → Strategy → Option Strategy
  assignment : Assignment → Option Assignment
  keepsId : ∀ as r r', row as r = some r' → r'.id = r.id
  keepsStrategy : ∀ a a', assignment a = some a' → a'.strategyId = a.strategyId

namespace StrategyChange

def start : StrategyChange where
  row as r := some { r with active := !as.isEmpty }
  assignment a := some (if a.running then a else a.start)
  keepsId _ _ _ h := by cases h; rfl
  keepsStrategy a _ h := by cases h; cases a.running <;> rfl

def stop : StrategyChange where
  row _ r := some { r with active := false }
  assignment a := some (if a.running then a.stop else a)
  keepsId _ _ _ h := by cases h; rfl
  keepsStrategy a _ h := by cases h; cases a.running <;> rfl

def drop : StrategyChange where
  row _ _ := none
  assignment _ := none
  keepsId _ _ _ h := nomatch h
  keepsStrategy _ _ h := nomatch h

def keep : StrategyChange where
  row _ r := some r
  assignment := some
  keepsId _ _ _ h := by cases h; rfl
  keepsStrategy _ _ h := by cases h; rfl

end StrategyChange

namespace Store

def changed (s : Store) (id : Int) (c : StrategyChange) : Store where
  wallets := s.wallets
  strategies := s.strategies.filterMap fun r =>
    if r.id = id then c.row (s.ofStrategy id) r else some r
  assignments := s.assignments.filterMap fun a =>
    if a.strategyId = id then c.assignment a else some a

theorem strategies_changed (s : Store) (id : Int) (c : StrategyChange) :
    (s.changed id c).strategies = s.strategies.filterMap fun r =>
      if r.id = id then c.row (s.ofStrategy id) r else some r := rfl

theorem assignments_changed (s : Store) (id : Int) (c : StrategyChange) :
    (s.changed id c).assignments = s.assignments.filterMap fun a =>
      if a.strategyId = id then c.assignment a else some a := rfl

theorem isEmpty_ofStrategy (s : Store) (id : Int) :
    (!(s.ofStrategy id).isEmpty) = s.assignments.any fun a => a.strategyId == id := by
  rw [Bool.eq_iff_iff, List.any_eq_true, Bool.not_eq_true', List.isEmpty_eq_false_iff,
    ofStrategy, ne_eq, List.filter_eq_nil_iff]
  simp only [not_forall, not_not, exists_prop]

theorem start_eq_changed (s : Store) (id : Int) : s.start id = s.changed id .start := by
  have hstrategies : (s.start id).strategies = (s.changed id .start).strategies := by
    rw [strategies_start_eq, ← isEmpty_ofStrategy, strategies_changed, ← List.filterMap_eq_map]
    exact List.filterMap_congr fun r _ => by
      rw [Function.comp_apply, StrategyChange.start]
      split <;> rfl
  have hassignments : (s.start id).assignments = (s.changed id .start).assignments := by
    rw [assignments_changed, start, refreshActive, onStrategy, onAssignmentsOf,
      ← List.filterMap_eq_map]
    exact List.filterMap_congr fun a _ => by
      rw [Function.comp_apply, StrategyChange.start]
      split <;> rfl
  exact congrArg₂ (Store.mk s.wallets) hstrategies hassignments

theorem stop_eq_changed (s : Store) (id : Int) : s.stop id = s.changed id .stop := by
  rw [changed, stop, onStrategy, onAssignmentsOf, ← List.filterMap_eq_map,
    ← List.filterMap_eq_map]
  refine congrArg₂ (Store.mk s.wallets) (List.filterMap_congr fun r _ => ?_)
    (List.filterMap_congr fun a _ => ?_)
  · rw [Function.comp_apply, StrategyChange.stop]
    split <;> rfl
  · rw [Function.comp_apply, StrategyChange.stop]
    split <;> rfl

theorem dropStrategy_eq_changed (s : Store) (id : Int) :
    s.dropStrategy id = s.changed id .drop := by
  rw [changed, dropStrategy, ← List.filterMap_eq_filter, ← List.filterMap_eq_filter]
  refine congrArg₂ (Store.mk s.wallets) (List.filterMap_congr fun r _ => ?_)
    (List.filterMap_congr fun a _ => ?_)
  · by_cases hid : r.id = id <;> simp [Option.guard, StrategyChange.drop, hid]
  · by_cases hid : a.strategyId = id <;> simp [Option.guard, StrategyChange.drop, hid]

theorem changed_keep (s : Store) (id : Int) : s.changed id .keep = s := by
  simp only [changed, StrategyChange.keep, ite_self, List.filterMap_some]

section Different

variable {i j : Int} (hij : i ≠ j)
include hij

theorem ofStrategy_changed (s : Store) (c : StrategyChange) :
    (s.changed i c).ofStrategy j = s.ofStrategy j := by
  rw [ofStrategy, ofStrategy, assignments_changed, List.filter_filterMap,
    ← List.filterMap_eq_filter]
  refine List.filterMap_congr fun a _ => ?_
  by_cases hid : a.strategyId = i
  · rw [if_pos hid]
    cases hchanged : c.assignment a with
    | none => simp [Option.guard, hid, hij]
    | some a' =>
      have hkept := c.keepsStrategy a a' hchanged
      simp [Option.guard, Option.filter, hkept, hid, hij]
  · simp [hid, Option.guard, Option.filter]

theorem strategy?_changed (s : Store) (c : StrategyChange) :
    (s.changed i c).strategy? j = s.strategy? j := by
  rw [strategy?, strategy?, strategies_changed]
  generalize s.ofStrategy i = as
  induction s.strategies with
  | nil => rfl
  | cons r rs ih =>
    by_cases hid : r.id = i
    · have hother : (r.id == j) = false := beq_eq_false_iff_ne.2 fun h => hij (hid.symm.trans h)
      rw [List.find?_cons, hother]
      cases hchanged : c.row as r with
      | none => simpa [hid, hchanged] using ih
      | some r' =>
        have hkept : (r'.id == j) = false := by rwa [c.keepsId as r r' hchanged]
        simpa [hid, hchanged, List.find?_cons, hkept] using ih
    · simp only [List.filterMap_cons, if_neg hid, List.find?_cons, ih]

theorem sameFor_changed (s : Store) (c : StrategyChange) : s.SameFor (s.changed i c) j :=
  ⟨rfl, strategy?_changed hij s c, ofStrategy_changed hij s c⟩

theorem change_comm {α : Type} (key : α → Int) {f g : α → Option α}
    (hf : ∀ x y, f x = some y → key y = key x) (hg : ∀ x y, g x = some y → key y = key x) (x : α) :
    ((if key x = i then f x else some x).bind fun y => if key y = j then g y else some y) =
      (if key x = j then g x else some x).bind fun y => if key y = i then f y else some y := by
  by_cases hi : key x = i
  · have hj : key x ≠ j := fun h => hij (hi.symm.trans h)
    rw [if_pos hi, if_neg hj, Option.bind_some, if_pos hi]
    cases hx : f x with
    | none => rfl
    | some y => rw [Option.bind_some, hf x y hx, if_neg hj]
  · rw [if_neg hi, Option.bind_some]
    by_cases hj : key x = j
    · rw [if_pos hj]
      cases hx : g x with
      | none => rfl
      | some y => rw [Option.bind_some, hg x y hx, if_neg hi]
    · rw [if_neg hj, Option.bind_some, if_neg hi]

theorem changed_comm (s : Store) (c c' : StrategyChange) :
    (s.changed i c).changed j c' = (s.changed j c').changed i c := by
  have hi := ofStrategy_changed hij s c
  have hj := ofStrategy_changed hij.symm s c'
  refine congrArg₂ (Store.mk s.wallets) ?_ ?_
  · rw [hi, hj, strategies_changed, strategies_changed, List.filterMap_filterMap,
      List.filterMap_filterMap]
    exact List.filterMap_congr fun r _ =>
      change_comm hij Strategy.id (c.keepsId _) (c'.keepsId _) r
  · rw [assignments_changed, assignments_changed, List.filterMap_filterMap,
      List.filterMap_filterMap]
    exact List.filterMap_congr fun a _ =>
      change_comm hij Assignment.strategyId c.keepsStrategy c'.keepsStrategy a

end Different

end Store

/-! ### Operations on one strategy -/

namespace Operation

/-- The operations that run or remove a strategy. -/
inductive Handles (id : Int) : Operation → Prop where
  | activate : Handles id (.activate id)
  | deactivate : Handles id (.deactivate id)
  | haltStrategy : Handles id (.haltStrategy id)
  | kill : Handles id (.kill id)
  | unkill : Handles id (.unkill id)
  | deleteStrategy : Handles id (.deleteStrategy id)

def change : Operation → StrategyChange
  | activate _ => .start
  | deactivate _ => .stop
  | deleteStrategy _ => .drop
  | _ => .keep

variable {o : Operation} {id : Int}

theorem Handles.eq_changed (ho : o.Handles id) {d : Desk σ} {r : Result} {s : Store}
    (h : o.Done d r s) : s = d.store.changed id o.change := by
  cases ho with
  | activate =>
    cases h
    exact Store.start_eq_changed _ _
  | deactivate =>
    cases h
    exact Store.stop_eq_changed _ _
  | deleteStrategy =>
    cases h
    exact Store.dropStrategy_eq_changed _ _
  | haltStrategy | kill | unkill =>
    cases h
    exact (Store.changed_keep _ _).symm

theorem Handles.exists_change (ho : o.Handles id) (e : Behaviour σ) (d : Desk σ) :
    ∃ c, ∀ d' : Desk σ, (o.run e d').result = (o.run e d).result →
      (o.run e d').desk.store = d'.store.changed id c := by
  cases hresult : (o.run e d).result with
  | ok r =>
    refine ⟨o.change, fun d' h => ?_⟩
    exact ho.eq_changed (done_of_ok h)
  | error f =>
    refine ⟨.keep, fun d' h => ?_⟩
    rw [Store.changed_keep]
    cases o.run_course e d' with
    | refused _ hstore | stopped _ hstore => exact hstore
    | done hok =>
      rw [h] at hok
      cases hok

/-- What an operation on a strategy tells depends on the wallets and on what belongs to the
strategy alone. -/
theorem Handles.told_congr (ho : o.Handles id) {e : Behaviour σ} (he : AnswersByPair e)
    {d d' : Desk σ} (h : d.store.SameFor d'.store id) : (o.run e d').told = (o.run e d).told := by
  have hfind := h.findStrategy_eq
  rw [Desk.run_eq, Desk.run_eq]
  cases ho with
  | activate =>
    refine Ending.told_map ?_ _
    simp only [Desk.activate, hfind, h.stoppedOf_eq, h.isReady_eq, h.activation_eq]
    cases d.store.findStrategy id with
    | error f => rfl
    | ok r =>
      dsimp only
      split
      · rfl
      · generalize (d.store.stoppedOf id).map (d.store.activation r) = calls
        obtain ⟨hsent, hfailure⟩ := sendWhileOk_congr he d.engine d'.engine calls
        simp only [hsent, hfailure]
        split
        · rfl
        · rw [Ending.told, Ending.told, sendAll_congr he (sendWhileOk e d.engine calls).engine
            (sendWhileOk e d'.engine calls).engine]
  | deactivate =>
    refine Ending.told_map ?_ _
    simp only [Desk.deactivate, hfind, h.runningOf_eq]
    exact Desk.told_found he _
  | haltStrategy =>
    refine Ending.told_map ?_ _
    simp only [Desk.haltStrategy, hfind, h.runningOf_eq]
    exact Desk.told_found he _
  | kill =>
    refine Ending.told_map ?_ _
    simp only [Desk.kill, hfind, h.assignments]
    exact Desk.told_found he _
  | unkill =>
    refine Ending.told_map ?_ _
    simp only [Desk.unkill, hfind, h.assignments]
    exact Desk.told_found he _
  | deleteStrategy =>
    refine Ending.told_map ?_ _
    simp only [Desk.deleteStrategy, hfind, h.runningOf_eq]
    exact Desk.told_found he _

end Operation

/-- Two operations on different strategies may come in either order, on any desk: each of them has
the same result or failure, the same exchanges with the engine and the same report in both orders,
and the tables after both are the same. -/
theorem operations_commute {e : Behaviour σ} (he : AnswersByPair e) (d : Desk σ) {i j : Int}
    (hij : i ≠ j) {o p : Operation} (ho : o.Handles i) (hp : p.Handles j) :
    let first := o.run e d
    let second := p.run e first.desk
    let first' := p.run e d
    let second' := o.run e first'.desk
    (second'.result = first.result ∧ second'.sent = first.sent ∧ second'.log = first.log) ∧
      (second.result = first'.result ∧ second.sent = first'.sent ∧ second.log = first'.log) ∧
      second.desk.store = second'.desk.store := by
  intro first second first' second'
  obtain ⟨c, hc⟩ := ho.exists_change e d
  obtain ⟨c', hc'⟩ := hp.exists_change e d
  have hfirst : first.desk.store = d.store.changed i c := hc d rfl
  have hfirst' : first'.desk.store = d.store.changed j c' := hc' d rfl
  have htold' : second'.told = first.told := ho.told_congr he
    (hfirst' ▸ Store.sameFor_changed hij.symm d.store c')
  have htold : second.told = first'.told := hp.told_congr he
    (hfirst ▸ Store.sameFor_changed hij d.store c)
  simp only [Ending.told, Prod.mk.injEq] at htold htold'
  refine ⟨htold', htold, ?_⟩
  calc second.desk.store = first.desk.store.changed j c' := hc' first.desk htold.1
    _ = (d.store.changed i c).changed j c' := by rw [hfirst]
    _ = (d.store.changed j c').changed i c := Store.changed_comm hij d.store c c'
    _ = first'.desk.store.changed i c := by rw [hfirst']
    _ = second'.desk.store := (hc first'.desk htold'.1).symm

def sharedWallets : List Operation :=
  [.addWallet (some Wallet.deployed) none none, .addWallet (some Wallet.deployed) none none,
    .createStrategy (some 1) (some "s") none (.obj [("mode", .str "node")]),
    .createStrategy (some 1) (some "t") none (.obj [("mode", .str "node")]),
    .assignStrategy 1 1 ⟨.null, .int 100, .null⟩, .assignStrategy 1 2 ⟨.null, .int 100, .null⟩,
    .assignStrategy 2 1 ⟨.null, .int 100, .null⟩, .assignStrategy 2 2 ⟨.null, .int 100, .null⟩,
    .activate 2]

def Engine.refusalOfPair : Verb → Option (Int × Int) → Reply
  | .activate, some (2, 1) => .answered 500 .null
  | _, _ => .answered 200 .null

def Engine.refusingPair : Behaviour Nat := fun n c => (refusalOfPair c.verb c.pair?, n + 1)

/-- The first strategy is started in vain, before or after the second was removed: its start on the
first wallet is taken back either way, and what remains is that it runs nowhere. -/
theorem operations_commute_of_sharedWallets :
    let d := (Desk.fresh 0 .counted .direct).run refusingPair sharedWallets
    let first := (Operation.activate 1).run refusingPair d
    let second := (Operation.deleteStrategy 2).run refusingPair first.desk
    let first' := (Operation.deleteStrategy 2).run refusingPair d
    let second' := (Operation.activate 1).run refusingPair first'.desk
    AnswersByPair refusingPair ∧ (1 : Int) ≠ 2 ∧ (Operation.activate 1).Handles 1 ∧
      (Operation.deleteStrategy 2).Handles 2 ∧
      first.sent.map (fun x => (x.call.verb, x.call.pair?)) =
        [(.activate, some (1, 1)), (.activate, some (2, 1)), (.deactivate, some (1, 1))] ∧
      second'.sent = first.sent ∧ second.desk.store = second'.desk.store ∧
      second.desk.store.strategies.map (fun r => (r.id, r.active)) = [(1, false)] := by
  intro d
  have hpair : AnswersByPair refusingPair := ⟨refusalOfPair, fun _ _ => rfl⟩
  have hcalls : ((Operation.activate 1).run refusingPair d).sent.map
      (fun x => (x.call.verb, x.call.pair?)) =
        [(.activate, some (1, 1)), (.activate, some (2, 1)), (.deactivate, some (1, 1))] := by
    decide +kernel
  have hstrategies : ((Operation.deleteStrategy 2).run refusingPair
      ((Operation.activate 1).run refusingPair d).desk).desk.store.strategies.map
        (fun r => (r.id, r.active)) = [(1, false)] := by
    decide +kernel
  clear_value d
  intro first second first' second'
  obtain ⟨⟨-, hsent, -⟩, -, hstore⟩ := operations_commute hpair d (show (1 : Int) ≠ 2 by decide)
    Operation.Handles.activate Operation.Handles.deleteStrategy
  exact ⟨hpair, by decide, .activate, .deleteStrategy, hcalls, hsent, hstore, hstrategies⟩

end StrategyDesk
