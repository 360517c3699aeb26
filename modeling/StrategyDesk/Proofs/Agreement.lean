import StrategyDesk.Proofs.Exchanges
import StrategyDesk.Proofs.Soundness

/-!
What runs on the engine and what the tables show as running. A call that succeeded and started or
stopped a pair is a turn of that pair, and a pair is live after its last turn was a start. An
operation keeps the two sides in step if none of its calls that stop a pair fails: what it starts
is written down, what it stops is written off, and a start that fails halfway is taken back.
-/

set_option autoImplicit false

namespace StrategyDesk
open Engine

variable {σ : Type}

/-! ### Turns of a pair -/

namespace Engine

/-- What a call does to a pair if it succeeds: it starts the pair, stops it, or does neither. -/
def Call.turn? (p : Int × Int) : Call → Option Bool
  | .activate w s _ => if (w, s) = p then some true else none
  | .deactivate w s => if (w, s) = p then some false else none
  | _ => none

def Exchange.turn? (p : Int × Int) (x : Exchange) : Option Bool :=
  if x.succeeds then x.call.turn? p else none

def lastTurn (p : Int × Int) (xs : List Exchange) : Option Bool :=
  (xs.filterMap (Exchange.turn? p)).getLast?

/-- Whether the engine runs a pair after exchanges. -/
def IsLive (xs : List Exchange) (p : Int × Int) : Prop := lastTurn p xs = some true

instance (xs : List Exchange) (p : Int × Int) : Decidable (IsLive xs p) :=
  inferInstanceAs (Decidable (lastTurn p xs = some true))

variable {p : Int × Int} {xs ys : List Exchange}

theorem lastTurn_append : lastTurn p (xs ++ ys) = (lastTurn p ys).or (lastTurn p xs) := by
  simp [lastTurn, List.filterMap_append, List.getLast?_append]

theorem isLive_append :
    IsLive (xs ++ ys) p ↔ IsLive ys p ∨ lastTurn p ys = none ∧ IsLive xs p := by
  rw [IsLive, IsLive, IsLive, lastTurn_append]
  cases lastTurn p ys <;> simp

theorem mem_of_lastTurn {b : Bool} (h : lastTurn p xs = some b) :
    ∃ x ∈ xs, x.succeeds = true ∧ x.call.turn? p = some b := by
  obtain ⟨x, hx, hturn⟩ := List.mem_filterMap.1 (List.mem_of_getLast? h)
  rw [Exchange.turn?] at hturn
  split at hturn
  · rename_i hok
    exact ⟨x, hx, hok, hturn⟩
  · cases hturn

theorem lastTurn_eq_none (h : ∀ x ∈ xs, x.succeeds = true → x.call.turn? p = none) :
    lastTurn p xs = none := by
  cases hlast : lastTurn p xs with
  | none => rfl
  | some b =>
    obtain ⟨x, hx, hok, hturn⟩ := mem_of_lastTurn hlast
    rw [h x hx hok] at hturn
    cases hturn

theorem lastTurn_of_calls {as : List Assignment} {f : Assignment → Call} {b : Bool}
    (hcalls : xs.map Exchange.call = as.map f) (hok : ∀ x ∈ xs, x.succeeds = true)
    (hf : ∀ a ∈ as, (f a).turn? p = if a.pair = p then some b else none) :
    lastTurn p xs = if p ∈ as.map Assignment.pair then some b else none := by
  have hturns : ∀ x ∈ xs, x.call.turn? p = some b ∨ x.call.turn? p = none := by
    intro x hx
    obtain ⟨a, ha, hcall⟩ := List.mem_map.1 (hcalls ▸ List.mem_map_of_mem hx)
    rw [← hcall, hf a ha]
    split <;> simp
  split
  · rename_i hp
    obtain ⟨a, ha, hpair⟩ := List.mem_map.1 hp
    obtain ⟨x, hx, hcall⟩ := List.mem_map.1 (hcalls.symm ▸ List.mem_map_of_mem ha)
    have hturn : x.turn? p = some b := by
      rw [Exchange.turn?, if_pos (hok x hx), hcall, hf a ha, if_pos hpair]
    -- There is a last turn, and it is one of these, which are all alike.
    cases hlast : lastTurn p xs with
    | none =>
      have hnil := List.getLast?_eq_none_iff.1 hlast
      rw [List.filterMap_eq_nil_iff.1 hnil x hx] at hturn
      cases hturn
    | some c =>
      obtain ⟨y, hy, -, hyturn⟩ := mem_of_lastTurn hlast
      rcases hturns y hy with h | h
      · rw [← hyturn, h]
      · rw [h] at hyturn
        cases hyturn
  · rename_i hp
    refine lastTurn_eq_none fun x hx _ => ?_
    obtain ⟨a, ha, hcall⟩ := List.mem_map.1 (hcalls ▸ List.mem_map_of_mem hx)
    have hne : a.pair ≠ p := fun h => hp (h ▸ List.mem_map_of_mem ha)
    rw [← hcall, hf a ha, if_neg hne]

theorem turn_stopCall (a : Assignment) :
    (Assignment.stopCall a).turn? p = if a.pair = p then some false else none := rfl

end Engine

theorem Store.Linked.runs_place {s : Store} (h : s.Linked) {p : Int × Int}
    {walletId strategyId : Int} {request : AssignRequest} {markets : List Text} {a : Assignment}
    (ha : request.row (s.assignment? walletId strategyId)
      (s.blankAssignment walletId strategyId) markets = .ok a) :
    (s.place (s.assignment? walletId strategyId) a).Runs p ↔ s.Runs p := by
  obtain ⟨limit, paper, -, -, rfl⟩ := AssignRequest.row_eq ha
  cases hold : s.assignment? walletId strategyId with
  | none => exact Store.runs_addAssignment rfl
  | some old =>
    change (s.onAssignment old.id _).Runs p ↔ s.Runs p
    exact h.runs_onAssignment (Store.mem_of_assignment? hold).1 rfl rfl

/-! ### Tables that follow the calls -/

/-- The pairs that run in later tables are those whose last turn in between was a start, and those
without a turn that ran before. -/
def Store.Follows (s s' : Store) (xs : List Exchange) : Prop :=
  ∀ p, s'.Runs p ↔ IsLive xs p ∨ lastTurn p xs = none ∧ s.Runs p

namespace Store

variable {s s' : Store} {xs : List Exchange}

theorem follows_of_still (hruns : ∀ p, s'.Runs p ↔ s.Runs p)
    (hturn : ∀ p, lastTurn p xs = none) : s.Follows s' xs := by
  intro p
  simp [hruns, IsLive, hturn]

theorem follows_of_starts {new : List (Int × Int)} (hruns : ∀ p, s'.Runs p ↔ s.Runs p ∨ p ∈ new)
    (hturn : ∀ p, lastTurn p xs = if p ∈ new then some true else none) : s.Follows s' xs := by
  intro p
  by_cases hp : p ∈ new <;> simp [hruns, IsLive, hturn, hp]

theorem follows_of_stops {gone : List (Int × Int)} (hruns : ∀ p, s'.Runs p ↔ s.Runs p ∧ p ∉ gone)
    (hturn : ∀ p, lastTurn p xs = if p ∈ gone then some false else none) : s.Follows s' xs := by
  intro p
  by_cases hp : p ∈ gone <;> simp [hruns, IsLive, hturn, hp]

end Store

namespace Operation

/-- Whether an operation stops pairs on the engine alone. -/
def isHalt : Operation → Bool
  | haltStrategy _ | haltWallet _ => true
  | _ => false

theorem turn_activation {s : Store} {r : Strategy} {a : Assignment} (h : a.strategyId = r.id)
    (p : Int × Int) :
    (s.activation r a).turn? p = if a.pair = p then some true else none := by
  rw [Assignment.pair, h]
  rfl

theorem Done.follows {d : Desk σ} {o : Operation} {r : Result} {s' : Store}
    {xs : List Exchange} (h : o.Done d r s') (hs : d.store.Sound) (hhalt : o.isHalt = false)
    (hcalls : xs.map Exchange.call = o.calls d.store) (hok : ∀ x ∈ xs, x.succeeds = true) :
    d.store.Follows s' xs := by
  have hquiet : o.calls d.store = [] → ∀ p, lastTurn p xs = none := fun hnone p => by
    rw [hnone, List.map_eq_nil_iff] at hcalls
    rw [hcalls]
    rfl
  cases h with
  | addWallet | noWallet | setWalletStatus | getStrategy | createStrategy
  | updateStrategy | hasRunning =>
    exact Store.follows_of_still (fun _ => Store.runs_congr rfl) (hquiet rfl)
  | assignStrategy _ _ _ ha =>
    exact Store.follows_of_still (fun _ => hs.toLinked.runs_place ha) (hquiet rfl)
  | haltStrategy | haltWallet => cases hhalt
  | kill | unkill =>
    refine Store.follows_of_still (fun _ => Iff.rfl) fun p => lastTurn_eq_none fun x hx _ => ?_
    obtain ⟨a, -, hcall⟩ := List.mem_map.1 (hcalls ▸ List.mem_map_of_mem hx)
    rw [← hcall]
    rfl
  | deleteStrategy =>
    exact Store.follows_of_stops (fun _ => Store.runs_dropStrategy _ _) fun p =>
      lastTurn_of_calls hcalls hok fun a _ => turn_stopCall a
  | deactivate =>
    exact Store.follows_of_stops (fun _ => Store.runs_stop _ _) fun p =>
      lastTurn_of_calls hcalls hok fun a _ => turn_stopCall a
  | deleteWallet =>
    exact Store.follows_of_stops (fun _ => Store.runs_withoutWallet _ _) fun p =>
      lastTurn_of_calls hcalls hok fun a _ => turn_stopCall a
  | unassignStrategy ha =>
    have hfind := Store.assignment?_of_find ha
    refine Store.follows_of_stops
      (fun _ => hs.toLinked.runs_withoutAssignment (Store.mem_of_assignment? hfind).1) fun p =>
      lastTurn_of_calls (hcalls.trans ?_) hok fun a _ => turn_stopCall a
    simp only [calls, hfind]
    split <;> rfl
  | activate hr =>
    have hfind := Store.strategy?_of_find hr
    have hid := (Store.mem_of_strategy? hfind).2
    simp only [calls, hfind] at hcalls
    refine Store.follows_of_starts (fun _ => Store.runs_start _ _) fun p =>
      lastTurn_of_calls hcalls hok fun a ha => turn_activation ?_ p
    rw [hid, (Store.mem_of_stoppedOf ha).2.1]

theorem stops_or_still (s : Store) (o : Operation) (hactivate : ∀ id, o ≠ activate id) :
    (∀ c ∈ o.calls s, c.verb = .deactivate) ∨ ∀ c ∈ o.calls s, ∀ p, c.turn? p = none := by
  cases o with
  | activate id => exact absurd rfl (hactivate id)
  | deactivate | haltStrategy | deleteStrategy | haltWallet | deleteWallet =>
    refine Or.inl fun c hc => ?_
    obtain ⟨a, -, rfl⟩ := List.mem_map.1 hc
    rfl
  | unassignStrategy w id =>
    refine Or.inl fun c hc => ?_
    simp only [calls] at hc
    split at hc
    · split at hc
      · rw [List.mem_singleton.1 hc]
        rfl
      · cases hc
    · cases hc
  | kill | unkill =>
    refine Or.inr fun c hc p => ?_
    obtain ⟨a, -, rfl⟩ := List.mem_map.1 hc
    rfl
  | _ => exact Or.inr fun c hc => by cases hc

theorem undoing_sweep {e : Behaviour σ} {engine : σ} {s : Store} {r : Strategy} {f : Failure}
    (hf : (sendWhileOk e engine ((s.stoppedOf r.id).map (s.activation r))).failure = some f) :
    ∃ ys x as, (sendWhileOk e engine ((s.stoppedOf r.id).map (s.activation r))).sent = ys ++ [x] ∧
      (∀ y ∈ ys, y.succeeds = true) ∧ x.succeeds = false ∧ as <+: s.stoppedOf r.id ∧
      ys.map Exchange.call = as.map (s.activation r) ∧
      Desk.undoing (ys ++ [x]) = as.map Assignment.stopCall := by
  obtain ⟨ys, x, hsent, hys, hx⟩ := sent_of_sendWhileOk_failure hf
  have hx := not_succeeds_of_outcome hx
  have hprefix := sendWhileOk_calls e engine ((s.stoppedOf r.id).map (s.activation r))
  rw [hsent, List.map_append] at hprefix
  obtain ⟨as, has, hcalls⟩ := List.prefix_map_iff.1 ((List.prefix_append _ _).trans hprefix)
  have hundo := Desk.undoing_activations
    (fun a ha => (Store.mem_of_stoppedOf (has.subset ha)).2.1) hcalls hys hx
  exact ⟨ys, x, as, hsent, hys, hx, has, hcalls, hundo⟩

theorem follows_of_undone {e : Behaviour σ} {d : Desk σ} {id : Int} {f : Failure}
    (hs : d.store.Sound) (hf : ((activate id).sweep e d).failure = some f)
    (hback : ∀ x ∈ (sendAll e ((activate id).sweep e d).engine
      ((activate id).takingBack ((activate id).sweep e d).sent)).1, x.succeeds = true) :
    d.store.Follows d.store (((activate id).sweep e d).sent ++
      (sendAll e ((activate id).sweep e d).engine
        ((activate id).takingBack ((activate id).sweep e d).sent)).1) := by
  simp only [sweep, calls, takingBack] at hf hback ⊢
  cases hfind : d.store.strategy? id with
  | none =>
    rw [hfind] at hf
    cases hf
  | some r =>
    obtain rfl := (Store.mem_of_strategy? hfind).2
    simp only [hfind] at hf hback ⊢
    obtain ⟨ys, x, as, hsent, hys, hx, has, hcalls, hundo⟩ := undoing_sweep hf
    rw [hsent] at hback ⊢
    -- What was started had been stopped, so the tables show none of it as running.
    have hidle : ∀ p, d.store.Runs p → p ∉ as.map Assignment.pair := by
      intro p hp hmem
      obtain ⟨a, ha, rfl⟩ := List.mem_map.1 hmem
      obtain ⟨hmem, -, hstopped⟩ := Store.mem_of_stoppedOf (has.subset ha)
      exact hs.toLinked.not_runs hmem hstopped hp
    have hstarted : ∀ p, lastTurn p ys = if p ∈ as.map Assignment.pair then some true else none :=
      fun p => lastTurn_of_calls hcalls hys fun a ha =>
        turn_activation (Store.mem_of_stoppedOf (has.subset ha)).2.1 p
    have hfailed : ∀ p, lastTurn p [x] = none := fun p => lastTurn_eq_none fun y hy hok => by
      rw [List.mem_singleton.1 hy, hx] at hok
      cases hok
    refine Store.follows_of_stops (fun p => (and_iff_left_of_imp (hidle p)).symm) fun p => ?_
    rw [lastTurn_append, lastTurn_append, hfailed, hstarted,
      lastTurn_of_calls ((sendAll_calls _ _ _).trans hundo) hback fun a _ => turn_stopCall a]
    split <;> rfl

theorem Done.store_of_isHalt {d : Desk σ} {o : Operation} {r : Result} {s' : Store}
    (h : o.Done d r s') (hhalt : o.isHalt = true) : s' = d.store := by
  cases h with
  | haltStrategy | haltWallet => rfl
  | _ => cases hhalt

theorem takingBack_of_ne {o : Operation} (h : ∀ id, o ≠ activate id) (xs : List Exchange) :
    o.takingBack xs = [] := by
  cases o with
  | activate id => exact absurd rfl (h id)
  | _ => rfl

end Operation

/-- The calls that take back what a start had reached when it failed. -/
def Event.compensations (v : Event σ) : List Exchange :=
  match v.operation with
  | .activate _ => v.ending.sent.filter fun x => x.call.verb = .deactivate
  | _ => []

theorem isLive_false_of_stops {xs : List Exchange} {p : Int × Int}
    (h : ∀ x ∈ xs, x.call.verb = .deactivate ∨ x.call.turn? p = none) : ¬ IsLive xs p := by
  intro hlive
  obtain ⟨x, hx, -, hturn⟩ := mem_of_lastTurn hlive
  rcases h x hx with h | h
  · cases hc : x.call <;> rw [hc] at h hturn <;> simp [Call.verb, Call.turn?] at h hturn
  · rw [h] at hturn
    cases hturn

/-- Calls that were sent up to one that failed, by an operation that starts nothing: they stop pairs
and so does the one that failed, or none of them is a turn. -/
theorem Operation.follows_or_stopped {e : Behaviour σ} {d : Desk σ} {o : Operation} {f : Failure}
    (hactivate : ∀ id, o ≠ activate id) (hfailure : (o.sweep e d).failure = some f) :
    d.store.Follows d.store (o.sweep e d).sent ∨ (∀ p, ¬ IsLive (o.sweep e d).sent p) ∧
      ∃ x ∈ (o.sweep e d).sent, x.call.verb = .deactivate ∧ x.succeeds = false := by
  rcases o.stops_or_still d.store hactivate with hstops | hstill
  · obtain ⟨x, hx, houtcome⟩ := exists_sent_of_failure hfailure
    have hverb : ∀ y ∈ (o.sweep e d).sent, y.call.verb = .deactivate := fun y hy =>
      hstops _ (mem_calls_of_sweep hy)
    exact Or.inr ⟨fun p => isLive_false_of_stops fun y hy => Or.inl (hverb y hy),
      x, hx, hverb x hx, not_succeeds_of_outcome houtcome⟩
  · exact Or.inl (Store.follows_of_still (fun _ => Iff.rfl) fun p =>
      lastTurn_eq_none fun x hx _ => hstill _ (mem_calls_of_sweep hx) p)

/-- The tables follow the calls of an operation, or it stopped something that they still show: a
halt is not written down, and a stop that failed may have come after others that did not. -/
theorem Operation.follows_run (e : Behaviour σ) {d : Desk σ} (o : Operation) (hs : d.store.Sound)
    (hback : ∀ x ∈ Event.compensations ⟨d, o, o.run e d⟩, x.succeeds = true) :
    d.store.Follows (o.run e d).desk.store (o.run e d).sent ∨
      (o.run e d).desk.store = d.store ∧ (∀ p, ¬ IsLive (o.run e d).sent p) ∧
        (o.isHalt = true ∨
          ∃ x ∈ (o.run e d).sent, x.call.verb = .deactivate ∧ x.succeeds = false) := by
  cases o.run_course e d with
  | refused _ hstore hsent =>
    rw [hstore, hsent]
    exact Or.inl (Store.follows_of_still (fun _ => Iff.rfl) fun _ => rfl)
  | done _ hdone hfailure hsent =>
    have hcalls : (o.run e d).sent.map Exchange.call = o.calls d.store := by
      rw [hsent]
      exact sendWhileOk_calls_of_ok hfailure
    have hok : ∀ x ∈ (o.run e d).sent, x.succeeds = true := by
      rw [hsent]
      exact succeeds_of_sendWhileOk hfailure
    cases hhalt : o.isHalt with
    | false => exact Or.inl (hdone.follows hs hhalt hcalls hok)
    | true =>
      refine Or.inr ⟨hdone.store_of_isHalt hhalt, fun p => isLive_false_of_stops fun x hx => ?_,
        Or.inl rfl⟩
      have hx : x.call ∈ o.calls d.store := hcalls ▸ List.mem_map_of_mem hx
      have hactivate : ∀ id, o ≠ activate id := fun id h => by
        rw [h] at hhalt
        cases hhalt
      rcases o.stops_or_still d.store hactivate with h | h
      · exact Or.inl (h _ hx)
      · exact Or.inr (h _ hx p)
  | stopped _ hstore hfailure hsent =>
    -- Only a start has something to take back.
    by_cases hactivate : ∃ id, o = activate id
    · obtain ⟨id, rfl⟩ := hactivate
      rw [hstore, hsent]
      refine Or.inl (follows_of_undone hs hfailure fun x hx => hback x ?_)
      have hcall : x.call ∈ (activate id).takingBack ((activate id).sweep e d).sent := by
        have hmem := List.mem_map_of_mem (f := Exchange.call) hx
        rwa [sendAll_calls] at hmem
      simp only [Event.compensations, List.mem_filter, decide_eq_true_eq]
      exact ⟨hsent ▸ List.mem_append_right _ hx, verb_of_mem_takingBack hcall⟩
    · have hactivate : ∀ id, o ≠ activate id := fun id h => hactivate ⟨id, h⟩
      rw [takingBack_of_ne hactivate, sendAll, List.append_nil] at hsent
      rw [hstore, hsent]
      rcases follows_or_stopped hactivate hfailure with hfollows | ⟨hstill, hfailed⟩
      · exact Or.inl hfollows
      · exact Or.inr ⟨rfl, hstill, Or.inr hfailed⟩

/-! ### Runs -/

def exchanges (h : List (Event σ)) : List Exchange := h.flatMap fun v => v.ending.sent

theorem exchanges_append_singleton (h : List (Event σ)) (v : Event σ) :
    exchanges (h ++ [v]) = exchanges h ++ v.ending.sent := by
  simp [exchanges]

theorem Desk.runs_of_isLive (e : Behaviour σ) (engine : σ) (ids : Form.Supply) (room : Room)
    (os : List Operation)
    (hback : ∀ v ∈ (Desk.fresh engine ids room).history e os, ∀ x ∈ v.compensations,
      x.succeeds = true)
    {p : Int × Int} (hp : IsLive (exchanges ((Desk.fresh engine ids room).history e os)) p) :
    ((Desk.fresh engine ids room).run e os).store.Runs p := by
  refine (Desk.sound_induction (motive := fun h d =>
    (∀ v ∈ h, ∀ x ∈ v.compensations, x.succeeds = true) →
      ∀ p, IsLive (exchanges h) p → d.store.Runs p) e engine ids room ?_ ?_ os).2 hback p hp
  · intro _ p hp
    cases hp
  · intro h d o hs ih hback p hp
    rw [exchanges_append_singleton, isLive_append] at hp
    have hbefore := ih fun v hv => hback v (List.mem_append_left _ hv)
    rcases o.follows_run e hs (hback _ (by simp)) with hfollows | ⟨hstore, hstill, -⟩
    · exact (hfollows p).2 (hp.imp_right fun hp => ⟨hp.1, hbefore p hp.2⟩)
    · rw [hstore]
      rcases hp with hp | hp
      · exact absurd hp (hstill p)
      · exact hbefore p hp.2

theorem Desk.isLive_iff_runs (e : Behaviour σ) (engine : σ) (ids : Form.Supply) (room : Room)
    (os : List Operation)
    (hhalt : ∀ v ∈ (Desk.fresh engine ids room).history e os, v.operation.isHalt = false)
    (hstops : ∀ v ∈ (Desk.fresh engine ids room).history e os, ∀ x ∈ v.ending.sent,
      x.call.verb = .deactivate → x.succeeds = true) (p : Int × Int) :
    IsLive (exchanges ((Desk.fresh engine ids room).history e os)) p ↔
      ((Desk.fresh engine ids room).run e os).store.Runs p := by
  refine (Desk.sound_induction (motive := fun h d =>
    (∀ v ∈ h, v.operation.isHalt = false ∧ ∀ x ∈ v.ending.sent,
        x.call.verb = .deactivate → x.succeeds = true) →
      ∀ p, IsLive (exchanges h) p ↔ d.store.Runs p) e engine ids room ?_ ?_ os).2
    (fun v hv => ⟨hhalt v hv, hstops v hv⟩) p
  · intro _ p
    simp [IsLive, lastTurn, exchanges, Store.Runs, Desk.fresh, Store.empty]
  · intro h d o hs ih hgood p
    have hbefore := ih (fun v hv => hgood v (List.mem_append_left _ hv)) p
    obtain ⟨hhalt, hstops⟩ := hgood ⟨d, o, o.run e d⟩ (by simp)
    have hback : ∀ x ∈ Event.compensations ⟨d, o, o.run e d⟩, x.succeeds = true := by
      intro x hx
      unfold Event.compensations at hx
      split at hx
      · simp only [List.mem_filter, decide_eq_true_eq] at hx
        exact hstops x hx.1 hx.2
      · cases hx
    rcases o.follows_run e hs hback with hfollows | ⟨-, -, hhalted | ⟨x, hx, hverb, hfailed⟩⟩
    · rw [exchanges_append_singleton, isLive_append, hbefore]
      exact (hfollows p).symm
    · rw [hhalt] at hhalted
      cases hhalted
    · rw [hstops x hx hverb] at hfailed
      cases hfailed

/-- The engine and the tables agree after every step of a run. If what failed starts had reached
was always taken back, every live pair is shown as running; if moreover nothing was halted and no
stop failed, the live pairs are exactly those that are shown as running. -/
theorem live_pairs (e : Behaviour σ) (engine : σ) (ids : Form.Supply) (room : Room)
    (os : List Operation) :
    let h := (Desk.fresh engine ids room).history e os
    ((∀ v ∈ h, ∀ x ∈ v.compensations, x.succeeds = true) →
      ∀ done, done <+: os → ∀ p,
        IsLive (exchanges ((Desk.fresh engine ids room).history e done)) p →
          ((Desk.fresh engine ids room).run e done).store.Runs p) ∧
    ((∀ v ∈ h, v.operation.isHalt = false) →
      (∀ v ∈ h, ∀ x ∈ v.ending.sent, x.call.verb = .deactivate → x.succeeds = true) →
      ∀ done, done <+: os → ∀ p,
        IsLive (exchanges ((Desk.fresh engine ids room).history e done)) p ↔
          ((Desk.fresh engine ids room).run e done).store.Runs p) := by
  intro h
  have hmem : ∀ done, done <+: os → ∀ v ∈ (Desk.fresh engine ids room).history e done, v ∈ h := by
    intro done hdone v hv
    obtain ⟨rest, rfl⟩ := hdone
    simp only [h, Desk.history_append]
    exact List.mem_append_left _ hv
  constructor
  · intro hback done hdone p hp
    exact Desk.runs_of_isLive e engine ids room done (fun v hv => hback v (hmem done hdone v hv)) hp
  · intro hhalt hstops done hdone p
    exact Desk.isLive_iff_runs e engine ids room done (fun v hv => hhalt v (hmem done hdone v hv))
      (fun v hv => hstops v (hmem done hdone v hv)) p

def twoTries : List Operation :=
  [.addWallet (some Wallet.deployed) none none, .addWallet (some Wallet.deployed) none none,
    .createStrategy (some 1) (some "s") none (.obj [("mode", .str "node")]),
    .assignStrategy 1 1 ⟨.null, .int 100, .null⟩, .assignStrategy 2 1 ⟨.null, .int 100, .null⟩,
    .activate 1, .activate 1]

def Engine.refusingOnce : Behaviour Nat := fun n _ =>
  (.answered (if n = 1 then 503 else 200) .null, n + 1)

/-- The first start fails on the second wallet and is taken back, the second one is done. -/
theorem live_pairs_of_twoTries :
    let h := (Desk.fresh 0 .counted .direct).history refusingOnce twoTries
    (exchanges h).map (fun x => (x.call.verb, x.call.pair?, x.succeeds)) =
        [(.activate, some (1, 1), true), (.activate, some (2, 1), false),
          (.deactivate, some (1, 1), true), (.activate, some (1, 1), true),
          (.activate, some (2, 1), true)] ∧
      IsLive (exchanges h) (2, 1) ∧
      ((Desk.fresh 0 .counted .direct).run refusingOnce twoTries).store.Runs (2, 1) := by
  intro h
  have hlive : IsLive (exchanges h) (2, 1) := by decide +kernel
  have hhalt : ∀ v ∈ h, v.operation.isHalt = false := by decide +kernel
  have hstops : ∀ v ∈ h, ∀ x ∈ v.ending.sent, x.call.verb = .deactivate → x.succeeds = true := by
    decide +kernel
  have hiff := (live_pairs refusingOnce 0 .counted .direct twoTries).2 hhalt hstops twoTries
    (List.prefix_refl _)
  exact ⟨by decide +kernel, hlive, (hiff (2, 1)).1 hlive⟩

end StrategyDesk
