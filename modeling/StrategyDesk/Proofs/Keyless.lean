import StrategyDesk.Proofs.Sessions

set_option autoImplicit false

namespace StrategyDesk
open Engine

variable {σ τ α : Type}

/-! ### Calls -/

namespace Engine

def Terms.keyless (t : Terms) : Terms := { t with privateKey := "" }

def Call.keyless : Call → Call
  | .activate w s t => .activate w s t.keyless
  | c => c

def Exchange.keyless (x : Exchange) : Exchange := ⟨x.call.keyless, x.reply⟩

@[simp]
theorem Call.pair?_keyless (c : Call) : c.keyless.pair? = c.pair? := by cases c <;> rfl

@[simp]
theorem Exchange.log_keyless (x : Exchange) : x.keyless.log = x.log := by
  obtain ⟨c, r⟩ := x
  cases c <;> cases r <;> rfl

@[simp]
theorem Reply.outcome_keyless (r : Reply) (c : Call) : r.outcome c.keyless = r.outcome c := by
  cases c <;> rfl

@[simp]
theorem Call.keyless_keyless (c : Call) : c.keyless.keyless = c.keyless := by cases c <;> rfl

@[simp]
theorem Exchange.keyless_keyless (x : Exchange) : x.keyless.keyless = x.keyless := by
  simp [Exchange.keyless]

/-- An engine that is seen through a view answers as one that is told no keys. -/
def IsBlind (e : Behaviour σ) (view : σ → τ) (f : Behaviour τ) : Prop :=
  ∀ s c, f (view s) c.keyless = ((e s c).1, view (e s c).2)

def Sweep.keyless (view : σ → τ) (x : Sweep σ) : Sweep τ :=
  ⟨x.sent.map Exchange.keyless, view x.engine, x.failure⟩

section IsBlind

variable {e : Behaviour σ} {view : σ → τ} {f : Behaviour τ}

theorem IsBlind.sendWhileOk (h : IsBlind e view f) (s : σ) (cs : List Call) :
    sendWhileOk f (view s) (cs.map Call.keyless) = (sendWhileOk e s cs).keyless view := by
  induction cs generalizing s with
  | nil => rfl
  | cons c cs ih =>
    simp only [List.map_cons, Engine.sendWhileOk, h s c, Reply.outcome_keyless]
    split
    · rfl
    · rw [ih]
      rfl

theorem IsBlind.sendAll (h : IsBlind e view f) (s : σ) (cs : List Call) :
    sendAll f (view s) (cs.map Call.keyless) =
      ((sendAll e s cs).1.map Exchange.keyless, view (sendAll e s cs).2) := by
  induction cs generalizing s with
  | nil => rfl
  | cons c cs ih =>
    simp only [List.map_cons, Engine.sendAll, h s c, ih]
    rfl

end IsBlind

end Engine

/-! ### Tables -/

def Wallet.keyless (w : Wallet) : Wallet := { w with privateKey := "" }

namespace Store

def keyless (s : Store) : Store := { s with wallets := s.wallets.map Wallet.keyless }

@[simp]
theorem wallet?_keyless (s : Store) (id : Int) :
    s.keyless.wallet? id = (s.wallet? id).map Wallet.keyless := List.find?_map

@[simp]
theorem nextWalletId_keyless (s : Store) : s.keyless.nextWalletId = s.nextWalletId := by
  simp only [nextWalletId, keyless, List.map_map]
  rfl

@[simp]
theorem isTaken_keyless (s : Store) (address : Option String) :
    s.keyless.isTaken address = s.isTaken address := by
  simp only [isTaken, keyless, List.any_map]
  rfl

@[simp]
theorem findWallet_keyless (s : Store) (id : Int) :
    s.keyless.findWallet id = (s.findWallet id).map Wallet.keyless := by
  simp only [findWallet, find, wallet?_keyless]
  split
  · cases s.wallet? id <;> rfl
  · rfl

@[simp]
theorem isReady_keyless (s : Store) (a : Assignment) : s.keyless.isReady a = s.isReady a := by
  simp only [isReady, wallet?_keyless]
  cases s.wallet? a.walletId <;> rfl

@[simp]
theorem activation_keyless (s : Store) (r : Strategy) (a : Assignment) :
    s.keyless.activation r a = (s.activation r a).keyless := by
  simp only [activation, termsOf, Call.keyless, Terms.keyless, wallet?_keyless]
  cases s.wallet? a.walletId <;> rfl

theorem addWallet_keyless (s : Store) (w : Wallet) :
    s.keyless.addWallet w.keyless = (s.addWallet w).keyless := by
  simp [addWallet, keyless]

theorem onWallet_keyless (s : Store) (id : Int) (status : String) :
    s.keyless.onWallet id (fun w => { w with status }) =
      (s.onWallet id fun w => { w with status }).keyless := by
  simp only [onWallet, keyless, List.map_map]
  congr 1
  refine List.map_congr_left fun w _ => ?_
  by_cases hid : w.id = id <;> simp [Wallet.keyless, hid]

theorem withoutWallet_keyless (s : Store) (id : Int) :
    s.keyless.withoutWallet id = (s.withoutWallet id).keyless := by
  have hrefresh : ∀ (ids : List Int) (s : Store),
      ids.foldl refreshActive s.keyless = (ids.foldl refreshActive s).keyless := by
    intro ids
    induction ids with
    | nil => exact fun _ => rfl
    | cons id ids ih => exact fun s => ih (s.refreshActive id)
  have hdrop : s.keyless.dropWallet id = (s.dropWallet id).keyless := by
    simp only [dropWallet, keyless, List.filter_map]
    rfl
  rw [withoutWallet, hdrop]
  exact hrefresh _ _

end Store

/-! ### Operations -/

def Desk.keyless (view : σ → τ) (d : Desk σ) : Desk τ :=
  ⟨d.store.keyless, view d.engine, d.ids, d.room⟩

def Ending.keyless (view : σ → τ) (x : Ending σ α) : Ending τ α :=
  ⟨x.result, x.desk.keyless view, x.sent.map Exchange.keyless, x.log⟩

def Operation.keyless : Operation → Operation
  | .addWallet status address _ => .addWallet status address none
  | o => o

namespace Desk

variable {e : Behaviour σ} {view : σ → τ} {f : Behaviour τ}

@[simp]
theorem exchangesLog_keyless (succeeded failed : Int → Int → Log) (sent : List Exchange) :
    exchangesLog succeeded failed (sent.map Exchange.keyless) =
      exchangesLog succeeded failed sent := by
  simp only [exchangesLog, List.flatMap_map, Exchange.log_keyless]
  simp only [Exchange.keyless, Call.pair?_keyless, Exchange.succeeds]
  rfl

theorem undoing_keyless (sent : List Exchange) :
    undoing (sent.map Exchange.keyless) = undoing sent := by
  simp only [undoing, List.filter_map, List.filterMap_map, Function.comp_def, Exchange.keyless,
    Call.pair?_keyless]
  rfl

theorem map_keyless_undoing (sent : List Exchange) :
    (undoing sent).map Call.keyless = undoing sent := by
  simp only [undoing, List.map_filterMap, Option.map_map]
  rfl

theorem sweeping_keyless (h : IsBlind e view f) (d : Desk σ) {calls : List Call}
    (hcalls : calls.map Call.keyless = calls) (lines : Int → Int → Log) (a : α)
    {s t : Store} (hs : t = s.keyless) (last : Log) :
    (d.keyless view).sweeping f calls lines a t last =
      (d.sweeping e calls lines a s last).keyless view := by
  have hsweep : sendWhileOk f (view d.engine) calls =
      (sendWhileOk e d.engine calls).keyless view := by
    rw [← h.sendWhileOk, hcalls]
  subst hs
  simp only [sweeping, keyless, hsweep, Sweep.keyless, exchangesLog_keyless]
  split <;> rfl

theorem map_keyless_stopCall (rows : List Assignment) :
    (rows.map Assignment.stopCall).map Call.keyless = rows.map Assignment.stopCall := by
  rw [List.map_map]
  rfl

@[simp]
theorem findStrategy_keyless (view : σ → τ) (d : Desk σ) (id : Int) :
    (d.keyless view).store.findStrategy id = d.store.findStrategy id := rfl

@[simp]
theorem findAssignment_keyless (view : σ → τ) (d : Desk σ) (walletId strategyId : Int) :
    (d.keyless view).store.findAssignment walletId strategyId =
      d.store.findAssignment walletId strategyId := rfl

@[simp]
theorem findWallet_keyless (view : σ → τ) (d : Desk σ) (id : Int) :
    (d.keyless view).store.findWallet id = (d.store.findWallet id).map Wallet.keyless :=
  d.store.findWallet_keyless id

theorem addWallet_keyless (d : Desk σ) (status address key : Option String) :
    (d.keyless view).addWallet status address none =
      (d.addWallet status address key).keyless view := by
  have hadd := d.store.addWallet_keyless
    ⟨d.store.nextWalletId, status.getD Wallet.pending, address, key.getD ""⟩
  simp only [Wallet.keyless] at hadd
  simp only [addWallet, keyless, Store.isTaken_keyless, Store.nextWalletId_keyless,
    Option.getD_none, hadd]
  split <;> rfl

theorem setWalletStatus_keyless (d : Desk σ) (id : Int) (status : Option String) :
    (d.keyless view).setWalletStatus id status = (d.setWalletStatus id status).keyless view := by
  simp only [setWalletStatus, keyless, Store.wallet?_keyless]
  split
  · rfl
  · cases d.store.wallet? id with
    | none => rfl
    | some w =>
      cases status with
      | none => rfl
      | some status =>
        simp only [Option.map_some, Store.onWallet_keyless]
        rfl

theorem getStrategy_keyless (d : Desk σ) (id : Int) :
    (d.keyless view).getStrategy id = (d.getStrategy id).keyless view := by
  unfold getStrategy
  split <;> rfl

theorem hasRunning_keyless (d : Desk σ) (id : Int) :
    (d.keyless view).hasRunning id = (d.hasRunning id).keyless view := by
  unfold hasRunning
  split <;> rfl

theorem createStrategy_keyless (d : Desk σ) (user : Option Int) (name description : Option Text)
    (g : Json) : (d.keyless view).createStrategy user name description g =
      (d.createStrategy user name description g).keyless view := by
  have hnew (a : Accepted) : newStrategy (d.keyless view).store user name description a =
    newStrategy d.store user name description a := rfl
  have hids : (d.keyless view).ids = d.ids := rfl
  have hroom : (d.keyless view).room = d.room := rfl
  simp only [createStrategy, hids, hroom, hnew]
  split
  · rfl
  · split <;> rfl

theorem updateStrategy_keyless (d : Desk σ) (id : Int) (name description : Option Text)
    (g : Option Json) : (d.keyless view).updateStrategy id name description g =
      (d.updateStrategy id name description g).keyless view := by
  have hids : (d.keyless view).ids = d.ids := rfl
  have hroom : (d.keyless view).room = d.room := rfl
  simp only [updateStrategy, findStrategy_keyless, hids, hroom]
  split
  · rfl
  · split
    · rfl
    · split <;> rfl

theorem assignStrategy_keyless (d : Desk σ) (walletId strategyId : Int) (r : AssignRequest) :
    (d.keyless view).assignStrategy walletId strategyId r =
      (d.assignStrategy walletId strategyId r).keyless view := by
  have hpair (markets : List Text) : (d.keyless view).assignPair walletId strategyId r markets =
      (d.assignPair walletId strategyId r markets).keyless view := by
    have hold : (d.keyless view).store.assignment? walletId strategyId =
      d.store.assignment? walletId strategyId := rfl
    have hblank : (d.keyless view).store.blankAssignment walletId strategyId =
      d.store.blankAssignment walletId strategyId := rfl
    simp only [assignPair, hold, hblank]
    split
    · rfl
    · cases d.store.assignment? walletId strategyId <;> rfl
  simp only [assignStrategy, findStrategy_keyless, findWallet_keyless, hpair]
  cases d.store.findWallet walletId with
  | error failure => rfl
  | ok w =>
    dsimp only [Except.map]
    split
    · rfl
    · split <;> rfl

/-! Operations that send calls without keys. -/

theorem deleteStrategy_keyless (h : IsBlind e view f) (d : Desk σ) (id : Int) :
    (d.keyless view).deleteStrategy f id = (d.deleteStrategy e id).keyless view := by
  simp only [deleteStrategy, findStrategy_keyless]
  split
  · rfl
  · exact sweeping_keyless h d (map_keyless_stopCall _) _ _ (by rfl) _

theorem deleteWallet_keyless (h : IsBlind e view f) (d : Desk σ) (id : Int) :
    (d.keyless view).deleteWallet f id = (d.deleteWallet e id).keyless view := by
  simp only [deleteWallet, findWallet_keyless]
  cases d.store.findWallet id with
  | error failure => rfl
  | ok w =>
    have hidle : w.keyless.isDeploying = w.isDeploying := rfl
    dsimp only [Except.map]
    rw [hidle]
    split
    · rfl
    · exact sweeping_keyless h d (map_keyless_stopCall _) _ _ (d.store.withoutWallet_keyless id) _

theorem unassignStrategy_keyless (h : IsBlind e view f) (d : Desk σ) (walletId strategyId : Int) :
    (d.keyless view).unassignStrategy f walletId strategyId =
      (d.unassignStrategy e walletId strategyId).keyless view := by
  simp only [unassignStrategy, findAssignment_keyless]
  split
  · rfl
  · rename_i a _
    refine sweeping_keyless h d ?_ _ _ (by rfl) _
    split <;> rfl

theorem deactivate_keyless (h : IsBlind e view f) (d : Desk σ) (id : Int) :
    (d.keyless view).deactivate f id = (d.deactivate e id).keyless view := by
  simp only [deactivate, findStrategy_keyless]
  split
  · rfl
  · exact sweeping_keyless h d (map_keyless_stopCall _) _ _ (by rfl) _

theorem haltStrategy_keyless (h : IsBlind e view f) (d : Desk σ) (id : Int) :
    (d.keyless view).haltStrategy f id = (d.haltStrategy e id).keyless view := by
  simp only [haltStrategy, findStrategy_keyless]
  split
  · rfl
  · exact sweeping_keyless h d (map_keyless_stopCall _) _ _ (by rfl) _

theorem haltWallet_keyless (h : IsBlind e view f) (d : Desk σ) (id : Int) :
    (d.keyless view).haltWallet f id = (d.haltWallet e id).keyless view := by
  simp only [haltWallet, findWallet_keyless]
  cases d.store.findWallet id with
  | error failure => rfl
  | ok w => exact sweeping_keyless h d (map_keyless_stopCall _) _ _ (by rfl) _

theorem kill_keyless (h : IsBlind e view f) (d : Desk σ) (id : Int) :
    (d.keyless view).kill f id = (d.kill e id).keyless view := by
  simp only [kill, findStrategy_keyless]
  split
  · rfl
  · refine sweeping_keyless h d ?_ _ _ (by rfl) _
    rw [List.map_map]
    rfl

theorem unkill_keyless (h : IsBlind e view f) (d : Desk σ) (id : Int) :
    (d.keyless view).unkill f id = (d.unkill e id).keyless view := by
  simp only [unkill, findStrategy_keyless]
  split
  · rfl
  · refine sweeping_keyless h d ?_ _ _ (by rfl) _
    rw [List.map_map]
    rfl

theorem activate_keyless (h : IsBlind e view f) (d : Desk σ) (id : Int) :
    (d.keyless view).activate f id = (d.activate e id).keyless view := by
  have hrows : d.store.keyless.stoppedOf id = d.store.stoppedOf id := rfl
  have hsweep (r : Strategy) : sendWhileOk f (view d.engine)
      ((d.store.stoppedOf id).map (d.store.keyless.activation r)) =
      (sendWhileOk e d.engine
        ((d.store.stoppedOf id).map (d.store.activation r))).keyless view := by
    rw [← h.sendWhileOk, List.map_map]
    exact congrArg _ (List.map_congr_left fun a _ => d.store.activation_keyless r a)
  -- Taking a start back names its pair alone, so these calls have no key to lose.
  have hback (s : σ) (sent : List Exchange) : sendAll f (view s) (undoing sent) =
      ((sendAll e s (undoing sent)).1.map Exchange.keyless,
        view (sendAll e s (undoing sent)).2) := by
    rw [← h.sendAll, map_keyless_undoing]
  simp only [activate, findStrategy_keyless]
  split
  · rfl
  · simp only [keyless, hrows, Store.isReady_keyless]
    split
    · rfl
    · simp only [hsweep, Sweep.keyless, exchangesLog_keyless, undoing_keyless, hback]
      split
      · rfl
      · simp only [Ending.keyless, List.map_append]
        rfl

end Desk

/-- The keys of wallets have no part in an operation but in the activations that it sends. -/
theorem Operation.run_keyless {e : Behaviour σ} {view : σ → τ} {f : Behaviour τ}
    (h : IsBlind e view f) (d : Desk σ) (o : Operation) :
    o.keyless.run f (d.keyless view) = (o.run e d).keyless view := by
  rw [Desk.run_eq, Desk.run_eq]
  cases o with
  | addWallet status address key =>
    exact congrArg (Ending.map _) (d.addWallet_keyless status address key)
  | setWalletStatus id status =>
    exact congrArg (Ending.map _) (d.setWalletStatus_keyless id status)
  | getStrategy id => exact congrArg (Ending.map _) (d.getStrategy_keyless id)
  | createStrategy user name description g =>
    exact congrArg (Ending.map _) (d.createStrategy_keyless user name description g)
  | updateStrategy id name description g =>
    exact congrArg (Ending.map _) (d.updateStrategy_keyless id name description g)
  | deleteStrategy id => exact congrArg (Ending.map _) (Desk.deleteStrategy_keyless h d id)
  | deleteWallet id => exact congrArg (Ending.map _) (Desk.deleteWallet_keyless h d id)
  | assignStrategy walletId strategyId r =>
    exact congrArg (Ending.map _) (d.assignStrategy_keyless walletId strategyId r)
  | unassignStrategy walletId strategyId =>
    exact congrArg (Ending.map _) (Desk.unassignStrategy_keyless h d walletId strategyId)
  | activate id => exact congrArg (Ending.map _) (Desk.activate_keyless h d id)
  | deactivate id => exact congrArg (Ending.map _) (Desk.deactivate_keyless h d id)
  | haltStrategy id => exact congrArg (Ending.map _) (Desk.haltStrategy_keyless h d id)
  | haltWallet id => exact congrArg (Ending.map _) (Desk.haltWallet_keyless h d id)
  | kill id => exact congrArg (Ending.map _) (Desk.kill_keyless h d id)
  | unkill id => exact congrArg (Ending.map _) (Desk.unkill_keyless h d id)
  | hasRunning id => exact congrArg (Ending.map _) (d.hasRunning_keyless id)

end StrategyDesk
