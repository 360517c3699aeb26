import StrategyDesk.Proofs.Sessions

set_option autoImplicit false

namespace StrategyDesk
open Engine

variable {σ : Type}

namespace Engine

theorem sent_of_sendWhileOk_failure {e : Behaviour σ} {s : σ} {cs : List Call} {f : Failure}
    (h : (sendWhileOk e s cs).failure = some f) :
    ∃ ys x, (sendWhileOk e s cs).sent = ys ++ [x] ∧ (∀ y ∈ ys, y.succeeds = true) ∧
      x.reply.outcome x.call = .error f := by
  induction cs generalizing s with
  | nil => simp [sendWhileOk] at h
  | cons c cs ih =>
    simp only [sendWhileOk] at h ⊢
    split at h
    · rename_i g hg
      simp only [Option.some.injEq] at h
      subst h
      exact ⟨[], ⟨c, (e s c).1⟩, by simp, by simp, hg⟩
    · rename_i body hbody
      have hc : (e s c).1.succeeds = true := Reply.outcome_isOk_iff.1 ⟨body, hbody⟩
      obtain ⟨ys, x, hsent, hys, hx⟩ := ih h
      refine ⟨⟨c, (e s c).1⟩ :: ys, x, by simp [hsent], ?_, hx⟩
      intro y hy
      rcases List.mem_cons.1 hy with rfl | hy
      · exact hc
      · exact hys y hy

theorem isEngineFault_of_outcome {c : Call} {r : Reply} {f : Failure}
    (h : r.outcome c = .error f) : f.isEngineFault = true := by
  unfold Reply.outcome at h
  split at h
  · cases h
  · rename_i t _
    simp only [Except.error.injEq] at h
    subst h
    cases t <;> rfl

end Engine

/-! ### Refusals -/

namespace Store

theorem isEngineFault_of_find {α : Type} {row : Option α} {id : Int} {missing f : Failure}
    (h : find row id missing = .error f) (hm : missing.isEngineFault = false) :
    f.isEngineFault = false := by
  unfold find at h
  split at h
  · cases row with
    | none =>
      simp only [Except.error.injEq] at h
      rw [← h, hm]
    | some r => cases h
  · simp only [Except.error.injEq] at h
    rw [← h]
    rfl

theorem isEngineFault_of_findStrategy {s : Store} {id : Int} {f : Failure}
    (h : s.findStrategy id = .error f) : f.isEngineFault = false :=
  isEngineFault_of_find h rfl

theorem isEngineFault_of_findWallet {s : Store} {id : Int} {f : Failure}
    (h : s.findWallet id = .error f) : f.isEngineFault = false :=
  isEngineFault_of_find h rfl

theorem isEngineFault_of_findAssignment {s : Store} {walletId strategyId : Int} {f : Failure}
    (h : s.findAssignment walletId strategyId = .error f) : f.isEngineFault = false := by
  unfold findAssignment at h
  split at h
  · split at h
    · cases h
    · cases h
      rfl
  · cases h
    rfl

end Store

theorem Flow.isEngineFault_of_accept {g : Json} {f : Failure} (h : Flow.accept g = .error f) :
    f.isEngineFault = false := by
  unfold Flow.accept at h
  split at h
  · cases h
    rfl
  · unfold Flow.ensureSafe at h
    split at h
    · cases h
      rfl
    · cases h
    · cases h
      rfl

theorem Graph.isEngineFault_of_accept {room : Room} {next : Form.Supply} {g : Json} {f : Failure}
    (h : Graph.accept room next g = .error f) : f.isEngineFault = false := by
  unfold Graph.accept at h
  split at h
  · cases h
    rfl
  · split at h
    · rename_i e _
      cases h
      cases e <;> rfl
    · cases h
  · split at h
    · rename_i f' hf
      cases h
      exact Flow.isEngineFault_of_accept hf
    · cases h

theorem Desk.isEngineFault_of_acceptGiven {room : Room} {next : Form.Supply} {g : Option Json}
    {f : Failure} (h : Desk.acceptGiven room next g = .error f) : f.isEngineFault = false := by
  unfold Desk.acceptGiven at h
  split at h
  · cases h
  · rename_i g
    cases ha : Graph.accept room next g with
    | error f' =>
      rw [ha] at h
      cases h
      exact Graph.isEngineFault_of_accept ha
    | ok a =>
      rw [ha] at h
      cases h

theorem AssignRequest.isEngineFault_of_check {r : AssignRequest} {f : Failure}
    (h : r.check = .error f) : f.isEngineFault = false := by
  unfold AssignRequest.check at h
  split at h
  · cases h
    rfl
  · cases h
    rfl
  · unfold AssignRequest.marketsOf at h
    split at h
    · cases h
    · split at h
      · cases h
      · cases h
        rfl
    · cases h
    · cases h
    · cases h
      rfl

/-! ### What an operation wants to send -/

namespace Operation

def calls (s : Store) : Operation → List Call
  | activate id =>
    match s.strategy? id with
    | some r => (s.stoppedOf id).map (s.activation r)
    | none => []
  | deactivate id | haltStrategy id | deleteStrategy id => (s.runningOf id).map Assignment.stopCall
  | haltWallet id | deleteWallet id => (s.runningOn id).map Assignment.stopCall
  | unassignStrategy w id =>
    match s.assignment? w id with
    | some a => if a.running then [Assignment.stopCall a] else []
    | none => []
  | kill id => (s.ofStrategy id).map fun a => .kill a.walletId a.strategyId
  | unkill id => (s.ofStrategy id).map fun a => .unkill a.walletId a.strategyId
  | _ => []

/-- The calls that take back what an operation had reached before one of its calls failed. -/
def takingBack (sent : List Exchange) : Operation → List Call
  | activate _ => Desk.undoing sent
  | _ => []

/-- What an operation that is neither refused nor stopped results in, and the tables after it. -/
inductive Done (d : Desk σ) : Operation → Result → Store → Prop where
  | addWallet {status address key : Option String}
    (hfree : d.store.isTaken address = false) :
    Done d (.addWallet status address key) (.walletId d.store.nextWalletId)
      (d.store.addWallet ⟨d.store.nextWalletId, status.getD Wallet.pending, address, key.getD ""⟩)
  | noWallet {id : Int} {status : Option String} (hw : d.store.wallet? id = none) :
    Done d (.setWalletStatus id status) .nothing d.store
  | setWalletStatus {id : Int} {status : String} {w : Wallet} (hw : d.store.wallet? id = some w) :
    Done d (.setWalletStatus id (some status)) .nothing
      (d.store.onWallet id fun w => { w with status })
  | getStrategy {id : Int} (hid : Desk.isStorable id = true) :
    Done d (.getStrategy id) (.strategy (d.store.strategy? id)) d.store
  | createStrategy {user : Option Int} {name description : Option Text} {g : Json}
    {a : Accepted} {r : Strategy} (ha : Graph.accept d.room d.ids g = .ok a)
    (hr : Desk.newStrategy d.store user name description a = .ok r) :
    Done d (.createStrategy user name description g) (.strategy (some r)) (d.store.addStrategy r)
  | updateStrategy {id : Int} {name description : Option Text} {g : Option Json}
    {old new : Strategy} {a : Option Accepted} (hold : d.store.findStrategy id = .ok old)
    (ha : Desk.acceptGiven d.room d.ids g = .ok a)
    (hnew : Desk.revised old name description a = .ok new) :
    Done d (.updateStrategy id name description g) (.strategy (some new)) (d.revise old new).store
  | deleteStrategy {id : Int} {r : Strategy} (hr : d.store.findStrategy id = .ok r) :
    Done d (.deleteStrategy id) .nothing (d.store.dropStrategy id)
  | deleteWallet {id : Int} {w : Wallet} (hw : d.store.findWallet id = .ok w)
    (hidle : w.isDeploying = false) :
    Done d (.deleteWallet id) .nothing (d.store.withoutWallet id)
  | assignStrategy {walletId strategyId : Int} {r : AssignRequest} {w : Wallet} {s : Strategy}
    {markets : List Text} {a : Assignment} (hw : d.store.findWallet walletId = .ok w)
    (hs : d.store.findStrategy strategyId = .ok s) (hmarkets : r.check = .ok markets)
    (ha : r.row (d.store.assignment? walletId strategyId)
      (d.store.blankAssignment walletId strategyId) markets = .ok a) :
    Done d (.assignStrategy walletId strategyId r) (.assigned ⟨a, r.limit, r.echo⟩)
      (d.store.place (d.store.assignment? walletId strategyId) a)
  | unassignStrategy {walletId strategyId : Int} {a : Assignment}
    (ha : d.store.findAssignment walletId strategyId = .ok a) :
    Done d (.unassignStrategy walletId strategyId) .nothing (d.store.withoutAssignment a)
  | activate {id : Int} {r : Strategy} (hr : d.store.findStrategy id = .ok r)
    (hready : ∀ a ∈ d.store.stoppedOf id, d.store.isReady a = true) :
    Done d (.activate id) (.walletIds ((d.store.stoppedOf id).map Assignment.walletId))
      (d.store.start id)
  | deactivate {id : Int} {r : Strategy} (hr : d.store.findStrategy id = .ok r) :
    Done d (.deactivate id) (.walletIds ((d.store.runningOf id).map Assignment.walletId))
      (d.store.stop id)
  | haltStrategy {id : Int} {r : Strategy} (hr : d.store.findStrategy id = .ok r) :
    Done d (.haltStrategy id) .nothing d.store
  | haltWallet {id : Int} {w : Wallet} (hw : d.store.findWallet id = .ok w) :
    Done d (.haltWallet id) .nothing d.store
  | kill {id : Int} {r : Strategy} (hr : d.store.findStrategy id = .ok r) :
    Done d (.kill id) .nothing d.store
  | unkill {id : Int} {r : Strategy} (hr : d.store.findStrategy id = .ok r) :
    Done d (.unkill id) .nothing d.store
  | hasRunning {id : Int} (hid : Desk.isStorable id = true) :
    Done d (.hasRunning id) (.flag (d.store.hasRunning id)) d.store

theorem verb_of_mem_takingBack {o : Operation} {xs : List Exchange} {c : Call}
    (hc : c ∈ o.takingBack xs) : c.verb = .deactivate := by
  cases o with
  | activate id =>
    simp only [takingBack, Desk.undoing, List.mem_filterMap, Option.map_eq_some_iff] at hc
    obtain ⟨-, -, -, -, rfl⟩ := hc
    rfl
  | _ => cases hc

def sweep (e : Behaviour σ) (d : Desk σ) (o : Operation) : Sweep σ :=
  sendWhileOk e d.engine (o.calls d.store)

/-- How an operation can end: refused before a call, done, or stopped by a call that failed. -/
inductive Course (e : Behaviour σ) (d : Desk σ) (o : Operation) : Ending σ Result → Prop where
  | refused {x : Ending σ Result} {f : Failure} (hresult : x.result = .error f)
    (hstore : x.desk.store = d.store) (hsent : x.sent = []) (hfault : f.isEngineFault = false) :
    Course e d o x
  | done {x : Ending σ Result} {r : Result} (hresult : x.result = .ok r)
    (hdone : o.Done d r x.desk.store) (hfailure : (o.sweep e d).failure = none)
    (hsent : x.sent = (o.sweep e d).sent) : Course e d o x
  | stopped {x : Ending σ Result} {f : Failure} (hresult : x.result = .error f)
    (hstore : x.desk.store = d.store) (hfailure : (o.sweep e d).failure = some f)
    (hsent : x.sent = (o.sweep e d).sent ++
      (sendAll e (o.sweep e d).engine (o.takingBack (o.sweep e d).sent)).1) :
    Course e d o x

/-! ### Every operation takes one of the three courses -/

section Courses

variable {e : Behaviour σ} {d : Desk σ} {o : Operation} {α : Type}

theorem course_refuse {f : Failure} (g : α → Result) (hf : f.isEngineFault = false) :
    Course e d o ((d.refuse f).map g) :=
  .refused rfl rfl rfl hf

theorem course_quiet {x : Ending σ Result} {r : Result} (hcalls : o.calls d.store = [])
    (hresult : x.result = .ok r) (hsent : x.sent = []) (hdone : o.Done d r x.desk.store) :
    Course e d o x := by
  have hsweep : o.sweep e d = ⟨[], d.engine, none⟩ := by simp [sweep, hcalls, sendWhileOk]
  exact .done hresult hdone (by simp [hsweep]) (by simp [hsweep, hsent])

theorem course_sweeping {calls : List Call} {lines : Int → Int → Log} {result : α}
    {store : Store} {last : Log} (g : α → Result) (hcalls : o.calls d.store = calls)
    (hback : ∀ sent, o.takingBack sent = []) (hdone : o.Done d (g result) store) :
    Course e d o ((d.sweeping e calls lines result store last).map g) := by
  have hsweep : o.sweep e d = sendWhileOk e d.engine calls := by rw [sweep, hcalls]
  unfold Desk.sweeping
  cases hf : (sendWhileOk e d.engine calls).failure with
  | none =>
    refine .done (r := g result) ?_ ?_ (by rw [hsweep, hf]) ?_ <;>
      simp [Ending.map, Except.map, hf, hsweep, hdone]
  | some f =>
    refine .stopped (f := f) ?_ ?_ (by rw [hsweep, hf]) ?_ <;>
      simp [Ending.map, Except.map, hf, hsweep, hback, sendAll]

end Courses

theorem run_course (e : Behaviour σ) (d : Desk σ) (o : Operation) :
    Course e d o (o.run e d) := by
  rw [Desk.run_eq]
  cases o with
  | addWallet status address key =>
    simp only [ending, Desk.addWallet]
    split
    · exact course_refuse _ rfl
    · rename_i hfree
      exact course_quiet rfl rfl rfl (.addWallet (by simpa using hfree))
  | setWalletStatus id status =>
    simp only [ending, Desk.setWalletStatus]
    split
    · exact course_refuse _ rfl
    · split
      · rename_i hw
        exact course_quiet rfl rfl rfl (.noWallet hw)
      · exact course_refuse _ rfl
      · rename_i hw
        exact course_quiet rfl rfl rfl (.setWalletStatus hw)
  | getStrategy id =>
    simp only [ending, Desk.getStrategy]
    split
    · rename_i hid
      exact course_quiet rfl rfl rfl (.getStrategy hid)
    · exact course_refuse _ rfl
  | createStrategy user name description g =>
    simp only [ending, Desk.createStrategy]
    split
    · rename_i ha
      exact .refused rfl rfl rfl (Graph.isEngineFault_of_accept ha)
    · rename_i a ha
      split
      · exact .refused rfl rfl rfl rfl
      · rename_i r hr
        exact course_quiet rfl rfl rfl (.createStrategy ha hr)
  | updateStrategy id name description g =>
    simp only [ending, Desk.updateStrategy]
    split
    · rename_i hr
      exact course_refuse _ (Store.isEngineFault_of_findStrategy hr)
    · rename_i old hold
      split
      · rename_i ha
        exact .refused rfl rfl rfl (Desk.isEngineFault_of_acceptGiven ha)
      · rename_i a ha
        split
        · exact .refused rfl rfl rfl rfl
        · rename_i new hnew
          exact course_quiet rfl rfl rfl (.updateStrategy hold ha hnew)
  | deleteStrategy id =>
    simp only [ending, Desk.deleteStrategy]
    split
    · rename_i hr
      exact course_refuse _ (Store.isEngineFault_of_findStrategy hr)
    · rename_i r hr
      exact course_sweeping _ rfl (fun _ => rfl) (.deleteStrategy hr)
  | deleteWallet id =>
    simp only [ending, Desk.deleteWallet]
    split
    · rename_i hw
      exact course_refuse _ (Store.isEngineFault_of_findWallet hw)
    · rename_i w hw
      split
      · exact course_refuse _ rfl
      · rename_i hidle
        exact course_sweeping _ rfl (fun _ => rfl) (.deleteWallet hw (by simpa using hidle))
  | assignStrategy walletId strategyId r =>
    simp only [ending, Desk.assignStrategy]
    split
    · rename_i hw
      exact course_refuse _ (Store.isEngineFault_of_findWallet hw)
    · rename_i w hw
      split
      · rename_i hs
        exact course_refuse _ (Store.isEngineFault_of_findStrategy hs)
      · rename_i s hs
        split
        · rename_i hr
          exact course_refuse _ (AssignRequest.isEngineFault_of_check hr)
        · rename_i markets hmarkets
          simp only [Desk.assignPair]
          split
          · exact .refused rfl rfl rfl rfl
          · rename_i a ha
            exact course_quiet rfl rfl rfl (.assignStrategy hw hs hmarkets ha)
  | unassignStrategy walletId strategyId =>
    simp only [ending, Desk.unassignStrategy]
    split
    · rename_i ha
      exact course_refuse _ (Store.isEngineFault_of_findAssignment ha)
    · rename_i a ha
      refine course_sweeping _ ?_ (fun _ => rfl) (.unassignStrategy ha)
      simp only [calls, Store.assignment?_of_find ha]
  | activate id =>
    simp only [ending, Desk.activate]
    split
    · rename_i hr
      exact course_refuse _ (Store.isEngineFault_of_findStrategy hr)
    · rename_i r hr
      split
      · exact course_refuse _ rfl
      · rename_i hready
        -- The calls of the operation are told from the tables alone, its code has the row at hand.
        have hsweep : (activate id).sweep e d =
            sendWhileOk e d.engine ((d.store.stoppedOf id).map (d.store.activation r)) := by
          simp only [sweep, calls, Store.strategy?_of_find hr]
        split
        · rename_i hf
          refine .done rfl (.activate hr ?_) (by rw [hsweep, hf]) (by rw [hsweep]; rfl)
          simpa using hready
        · rename_i f hf
          exact .stopped rfl rfl (by rw [hsweep, hf]) (by rw [hsweep]; rfl)
  | deactivate id =>
    simp only [ending, Desk.deactivate]
    split
    · rename_i hr
      exact course_refuse _ (Store.isEngineFault_of_findStrategy hr)
    · rename_i r hr
      exact course_sweeping _ rfl (fun _ => rfl) (.deactivate hr)
  | haltStrategy id =>
    simp only [ending, Desk.haltStrategy]
    split
    · rename_i hr
      exact course_refuse _ (Store.isEngineFault_of_findStrategy hr)
    · rename_i r hr
      exact course_sweeping _ rfl (fun _ => rfl) (.haltStrategy hr)
  | haltWallet id =>
    simp only [ending, Desk.haltWallet]
    split
    · rename_i hw
      exact course_refuse _ (Store.isEngineFault_of_findWallet hw)
    · rename_i w hw
      exact course_sweeping _ rfl (fun _ => rfl) (.haltWallet hw)
  | kill id =>
    simp only [ending, Desk.kill]
    split
    · rename_i hr
      exact course_refuse _ (Store.isEngineFault_of_findStrategy hr)
    · rename_i r hr
      exact course_sweeping _ rfl (fun _ => rfl) (.kill hr)
  | unkill id =>
    simp only [ending, Desk.unkill]
    split
    · rename_i hr
      exact course_refuse _ (Store.isEngineFault_of_findStrategy hr)
    · rename_i r hr
      exact course_sweeping _ rfl (fun _ => rfl) (.unkill hr)
  | hasRunning id =>
    simp only [ending, Desk.hasRunning]
    split
    · rename_i hid
      exact course_quiet rfl rfl rfl (.hasRunning hid)
    · exact course_refuse _ rfl

theorem room_run (e : Behaviour σ) (d : Desk σ) (o : Operation) :
    (o.run e d).desk.room = d.room := rfl

theorem done_of_ok {e : Behaviour σ} {d : Desk σ} {o : Operation} {r : Result}
    (h : (o.run e d).result = .ok r) : o.Done d r (o.run e d).desk.store := by
  cases o.run_course e d with
  | refused herror | stopped herror =>
    rw [herror] at h
    cases h
  | done hok hdone =>
    rw [hok, Except.ok.injEq] at h
    exact h ▸ hdone

theorem exists_sent_of_failure {e : Behaviour σ} {d : Desk σ} {o : Operation}
    {f : Failure} (h : (o.sweep e d).failure = some f) :
    ∃ x ∈ (o.sweep e d).sent, x.reply.outcome x.call = .error f := by
  obtain ⟨ys, x, hsent, -, hx⟩ := sent_of_sendWhileOk_failure h
  refine ⟨x, ?_, hx⟩
  rw [sweep, hsent]
  simp

theorem mem_calls_of_sweep {e : Behaviour σ} {d : Desk σ} {o : Operation} {x : Exchange}
    (hx : x ∈ (o.sweep e d).sent) : x.call ∈ o.calls d.store :=
  (sendWhileOk_calls e d.engine _).subset (List.mem_map_of_mem hx)

theorem mem_calls_of_sent {e : Behaviour σ} {d : Desk σ} {o : Operation} {x : Exchange}
    (hx : x ∈ (o.run e d).sent) : x.call ∈ o.calls d.store ∨ x.call.verb = .deactivate := by
  cases o.run_course e d with
  | refused _ _ hsent =>
    rw [hsent] at hx
    cases hx
  | done _ _ _ hsent =>
    rw [hsent] at hx
    exact Or.inl (mem_calls_of_sweep hx)
  | stopped _ _ _ hsent =>
    rw [hsent] at hx
    rcases List.mem_append.1 hx with hx | hx
    · exact Or.inl (mem_calls_of_sweep hx)
    · have hmem := List.mem_map_of_mem (f := Exchange.call) hx
      rw [sendAll_calls] at hmem
      exact Or.inr (verb_of_mem_takingBack hmem)

end Operation

end StrategyDesk
