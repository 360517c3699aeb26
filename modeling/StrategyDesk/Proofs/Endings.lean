import StrategyDesk.Store.Operation

set_option autoImplicit false

namespace StrategyDesk
open Engine

namespace Ending

variable {σ α β : Type}

def map (f : α → β) (o : Ending σ α) : Ending σ β :=
  ⟨o.result.map f, o.desk, o.sent, o.log⟩

end Ending

namespace Store

def start (s : Store) (id : Int) : Store :=
  (s.onAssignmentsOf id fun a => if a.running then a else a.start).refreshActive id

def stop (s : Store) (id : Int) : Store :=
  (s.onAssignmentsOf id fun a => if a.running then a.stop else a).onStrategy id
    fun r => { r with active := false }

def withoutWallet (s : Store) (id : Int) : Store :=
  ((s.ofWallet id).map Assignment.strategyId).foldl refreshActive (s.dropWallet id)

def withoutAssignment (s : Store) (a : Assignment) : Store :=
  (s.dropAssignment a.id).refreshActive a.strategyId

def place (s : Store) (old : Option Assignment) (a : Assignment) : Store :=
  match old with
  | some _ => s.onAssignment a.id fun _ => a
  | none => s.addAssignment a

end Store

/-- The row for a pair: the old one with new terms, or a stopped one. -/
def AssignRequest.row (r : AssignRequest) (old : Option Assignment) (fresh : Assignment)
    (markets : List Text) : Except Crash Assignment := do
  let limit ← Limit.amount r.limit
  let paper ← r.paperFor old
  return { old.getD fresh with markets, limit, paper }

namespace Desk

variable {σ α : Type}

def refuse (d : Desk σ) (f : Failure) : Ending σ α := ⟨.error f, d, [], []⟩

def answer (d : Desk σ) (a : α) : Ending σ α := ⟨.ok a, d, [], []⟩

def exchangesLog (succeeded failed : Int → Int → Log) (sent : List Exchange) : Log :=
  sent.flatMap fun x =>
    x.log ++
      match x.call.pair? with
      | some (w, s) => if x.succeeds then succeeded w s else failed w s
      | none => []

def noLines (_ _ : Int) : Log := []

/-- The calls that take back what the engine was told before a call failed. -/
def undoing (sent : List Exchange) : List Call :=
  (sent.filter Exchange.succeeds).filterMap fun x =>
    x.call.pair?.map fun (w, s) => .deactivate w s

def activate (e : Behaviour σ) (d : Desk σ) (id : Int) : Ending σ (List Int) :=
  match d.store.findStrategy id with
  | .error f => d.refuse f
  | .ok r =>
    let rows := d.store.stoppedOf id
    match rows.find? fun a => !d.store.isReady a with
    | some a => d.refuse (.walletNotDeployed a.walletId)
    | none =>
      let sweep := sendWhileOk e d.engine (rows.map (d.store.activation r))
      let log := exchangesLog startedLines noLines sweep.sent
      match sweep.failure with
      | none => ⟨.ok (rows.map Assignment.walletId),
          { d with store := d.store.start id, engine := sweep.engine }, sweep.sent, log⟩
      | some f =>
        let undone := sendAll e sweep.engine (undoing sweep.sent)
        ⟨.error f, { d with engine := undone.2 }, sweep.sent ++ undone.1,
          log ++ exchangesLog undoneLines notUndoneLines undone.1⟩

/-- Sends calls up to the first that fails; if none does, the tables are those given. -/
def sweeping {α : Type} (e : Behaviour σ) (d : Desk σ) (calls : List Call)
    (lines : Int → Int → Log) (result : α) (store : Store) (last : Log) : Ending σ α :=
  let sweep := sendWhileOk e d.engine calls
  let log := exchangesLog lines noLines sweep.sent
  match sweep.failure with
  | none => ⟨.ok result, { d with store, engine := sweep.engine }, sweep.sent, log ++ last⟩
  | some f => ⟨.error f, { d with engine := sweep.engine }, sweep.sent, log⟩

def deactivate (e : Behaviour σ) (d : Desk σ) (id : Int) : Ending σ (List Int) :=
  match d.store.findStrategy id with
  | .error f => d.refuse f
  | .ok _ =>
    let rows := d.store.runningOf id
    d.sweeping e (rows.map Assignment.stopCall) stoppedLines (rows.map Assignment.walletId)
      (d.store.stop id) []

def haltStrategy (e : Behaviour σ) (d : Desk σ) (id : Int) : Ending σ Unit :=
  match d.store.findStrategy id with
  | .error f => d.refuse f
  | .ok _ => d.sweeping e ((d.store.runningOf id).map Assignment.stopCall) noLines () d.store []

def haltWallet (e : Behaviour σ) (d : Desk σ) (id : Int) : Ending σ Unit :=
  match d.store.findWallet id with
  | .error f => d.refuse f
  | .ok _ => d.sweeping e ((d.store.runningOn id).map Assignment.stopCall) noLines () d.store []

def kill (e : Behaviour σ) (d : Desk σ) (id : Int) : Ending σ Unit :=
  match d.store.findStrategy id with
  | .error f => d.refuse f
  | .ok _ =>
    d.sweeping e ((d.store.ofStrategy id).map fun a => .kill a.walletId a.strategyId) noLines ()
      d.store [killedLine id]

def unkill (e : Behaviour σ) (d : Desk σ) (id : Int) : Ending σ Unit :=
  match d.store.findStrategy id with
  | .error f => d.refuse f
  | .ok _ =>
    d.sweeping e ((d.store.ofStrategy id).map fun a => .unkill a.walletId a.strategyId) noLines ()
      d.store [releasedLine id]

def hasRunning (d : Desk σ) (id : Int) : Ending σ Bool :=
  if isStorable id then d.answer (d.store.hasRunning id) else d.refuse (.crash .tooLarge)

def deleteStrategy (e : Behaviour σ) (d : Desk σ) (id : Int) : Ending σ Unit :=
  match d.store.findStrategy id with
  | .error f => d.refuse f
  | .ok _ =>
    d.sweeping e ((d.store.runningOf id).map Assignment.stopCall) noLines ()
      (d.store.dropStrategy id) [deletedStrategyLine id]

def deleteWallet (e : Behaviour σ) (d : Desk σ) (id : Int) : Ending σ Unit :=
  match d.store.findWallet id with
  | .error f => d.refuse f
  | .ok w =>
    if w.isDeploying then d.refuse (.walletDeploying id)
    else
      d.sweeping e ((d.store.runningOn id).map Assignment.stopCall) noLines ()
        (d.store.withoutWallet id) [deletedWalletLine id]

def unassignStrategy (e : Behaviour σ) (d : Desk σ) (walletId strategyId : Int) :
    Ending σ Unit :=
  match d.store.findAssignment walletId strategyId with
  | .error f => d.refuse f
  | .ok a =>
    d.sweeping e (if a.running then [a.stopCall] else []) haltedLines ()
      (d.store.withoutAssignment a) [unassignedLine walletId strategyId]

def assignPair (d : Desk σ) (walletId strategyId : Int) (r : AssignRequest)
    (markets : List Text) : Ending σ Assigned :=
  let old := d.store.assignment? walletId strategyId
  let log := if old.isSome then [updatingLine walletId strategyId] else []
  match r.row old (d.store.blankAssignment walletId strategyId) markets with
  | .error c => ⟨.error (.crash c), d, [], log⟩
  | .ok a => ⟨.ok ⟨a, r.limit, r.echo⟩, { d with store := d.store.place old a }, [], log⟩

def assignStrategy (d : Desk σ) (walletId strategyId : Int) (r : AssignRequest) :
    Ending σ Assigned :=
  match d.store.findWallet walletId with
  | .error f => d.refuse f
  | .ok _ =>
    match d.store.findStrategy strategyId with
    | .error f => d.refuse f
    | .ok _ =>
      match r.check with
      | .error f => d.refuse f
      | .ok markets => d.assignPair walletId strategyId r markets

def getStrategy (d : Desk σ) (id : Int) : Ending σ (Option Strategy) :=
  if isStorable id then d.answer (d.store.strategy? id) else d.refuse (.crash .tooLarge)

def createStrategy (d : Desk σ) (userId : Option Int) (name description : Option Text)
    (g : Json) : Ending σ Strategy :=
  let log := Graph.acceptLog d.room d.ids g
  match Graph.accept d.room d.ids g with
  | .error f => ⟨.error f, d, [], log⟩
  | .ok a =>
    let d := { d with ids := a.next }
    match newStrategy d.store userId name description a with
    | .error c => ⟨.error (.crash c), d, [], log⟩
    | .ok r => ⟨.ok r, { d with store := d.store.addStrategy r }, [], log ++ [createdLine r]⟩

def revise (d : Desk σ) (old new : Strategy) : Desk σ :=
  { d with store := d.store.onStrategy old.id fun _ => keptRow old new }

def acceptGiven (room : Room) (next : Form.Supply) :
    Option Json → Except Failure (Option Accepted)
  | none => .ok none
  | some g => (Graph.accept room next g).map some

def givenLog (room : Room) (next : Form.Supply) (g : Option Json) : Log :=
  (g.map (Graph.acceptLog room next)).getD []

def updateStrategy (d : Desk σ) (id : Int) (name description : Option Text)
    (g : Option Json) : Ending σ Strategy :=
  match d.store.findStrategy id with
  | .error f => d.refuse f
  | .ok r =>
    let log := givenLog d.room d.ids g
    match acceptGiven d.room d.ids g with
    | .error f => ⟨.error f, d, [], log⟩
    | .ok a =>
      let d := { d with ids := (a.map Accepted.next).getD d.ids }
      match revised r name description a with
      | .error c => ⟨.error (.crash c), d, [], log⟩
      | .ok new => ⟨.ok new, d.revise r new, [], log⟩

def addWallet (d : Desk σ) (status safeAddress privateKey : Option String) : Ending σ Int :=
  if d.store.isTaken safeAddress then d.refuse (.crash .brokenRow)
  else
    let w : Wallet := ⟨d.store.nextWalletId, status.getD Wallet.pending, safeAddress,
      privateKey.getD ""⟩
    ⟨.ok w.id, { d with store := d.store.addWallet w }, [], []⟩

def setWalletStatus (d : Desk σ) (id : Int) (status : Option String) : Ending σ Unit :=
  if !isStorable id then d.refuse (.crash .tooLarge)
  else match d.store.wallet? id, status with
    | none, _ => d.answer ()
    | some _, none => d.refuse (.crash .brokenRow)
    | some _, some status =>
      ⟨.ok (), { d with store := d.store.onWallet id fun w => { w with status } }, [], []⟩

end Desk

variable {σ : Type}

def Operation.ending (e : Behaviour σ) (d : Desk σ) : Operation → Ending σ Result
  | addWallet status address key => (d.addWallet status address key).map .walletId
  | setWalletStatus w status => (d.setWalletStatus w status).map fun _ => .nothing
  | getStrategy s => (d.getStrategy s).map .strategy
  | createStrategy u n t g => (d.createStrategy u n t g).map fun r => .strategy (some r)
  | updateStrategy s n t g => (d.updateStrategy s n t g).map fun r => .strategy (some r)
  | deleteStrategy s => (d.deleteStrategy e s).map fun _ => .nothing
  | deleteWallet w => (d.deleteWallet e w).map fun _ => .nothing
  | assignStrategy w s r => (d.assignStrategy w s r).map .assigned
  | unassignStrategy w s => (d.unassignStrategy e w s).map fun _ => .nothing
  | activate s => (d.activate e s).map .walletIds
  | deactivate s => (d.deactivate e s).map .walletIds
  | haltStrategy s => (d.haltStrategy e s).map fun _ => .nothing
  | haltWallet w => (d.haltWallet e w).map fun _ => .nothing
  | kill s => (d.kill e s).map fun _ => .nothing
  | unkill s => (d.unkill e s).map fun _ => .nothing
  | hasRunning s => (d.hasRunning s).map .flag

end StrategyDesk
