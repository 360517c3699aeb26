import StrategyDesk.Store.Limit
import StrategyDesk.Store.Session

set_option autoImplicit false

namespace StrategyDesk
open Engine

namespace Store

def stoppedOf (s : Store) (id : Int) : List Assignment :=
  (s.ofStrategy id).filter fun a => !a.running

def runningOf (s : Store) (id : Int) : List Assignment :=
  (s.ofStrategy id).filter Assignment.running

def runningOn (s : Store) (id : Int) : List Assignment :=
  (s.ofWallet id).filter Assignment.running

def isReady (s : Store) (a : Assignment) : Bool :=
  match s.wallet? a.walletId with
  | some w => w.isDeployed
  | none => false

def termsOf (s : Store) (r : Strategy) (a : Assignment) : Terms :=
  let w := s.wallet? a.walletId
  ⟨r.graph, a.markets, Limit.sent a.limit, a.paper, (w.map Wallet.privateKey).getD "",
    (w.bind Wallet.safeAddress).getD ""⟩

def activation (s : Store) (r : Strategy) (a : Assignment) : Call :=
  .activate a.walletId r.id (s.termsOf r a)

end Store

def Assignment.stopCall (a : Assignment) : Call := .deactivate a.walletId a.strategyId

def pairLine (level : Level) (text : String) (walletId strategyId : Int) : Line :=
  ⟨level, .activation,
    text ++ " strategy " ++ toString strategyId ++ " on wallet " ++ toString walletId⟩

def startedLines (w s : Int) : Log := [pairLine .info "Activated" w s]

def stoppedLines (w s : Int) : Log := [pairLine .info "Deactivated" w s]

def undoneLines (w s : Int) : Log :=
  [pairLine .warning "Rolled back engine activation of" w s]

def notUndoneLines (w s : Int) : Log :=
  [pairLine .error "Could not roll back engine activation of" w s]

def killedLine (id : Int) : Line :=
  ⟨.warning, .activation, "Kill switch engaged for strategy " ++ toString id⟩

def releasedLine (id : Int) : Line :=
  ⟨.info, .activation, "Kill switch released for strategy " ++ toString id⟩

namespace Work

variable {σ : Type}

def isRunning (id : Int) : Work σ Bool := do
  flush
  query fun s => s.hasRunning id

def refresh (id : Int) : Work σ Unit := do
  let active ← isRunning id
  change fun s => s.onStrategy id fun r => { r with active }

def markStarted (a : Assignment) : Work σ Unit := do
  note a.walletId
  change fun s => s.onRow a .start
  report (startedLines a.walletId a.strategyId)

def markStopped (a : Assignment) : Work σ Unit := do
  change fun s => s.onRow a .stop
  note a.walletId
  report (stoppedLines a.walletId a.strategyId)

/-- Takes back what the engine was told before a start failed, whatever it answers. -/
def undo (e : Behaviour σ) (id : Int) : List Int → Work σ Unit
  | [] => return ()
  | w :: ws => do
    tryCatch
      (do
        call e (.deactivate w id)
        report (undoneLines w id))
      fun _ => report (notUndoneLines w id)
    undo e id ws

/-- Starts every stopped assignment of a strategy, and gives the wallets it was started on. -/
def activate (e : Behaviour σ) (id : Int) : Work σ (List Int) := do
  let r ← strategy id
  let tables ← query fun s => s
  let rows := tables.stoppedOf id
  match rows.find? fun a => !tables.isReady a with
  | some a => throw (.walletNotDeployed a.walletId)
  | none =>
    tryCatch
      (transaction do
        callEach e (tables.activation r) markStarted rows
        refresh id)
      fun f => do
        undo e id (← get).noted
        throw f
    return (← get).noted

def deactivate (e : Behaviour σ) (id : Int) : Work σ (List Int) := do
  let _ ← strategy id
  let rows ← query fun s => s.runningOf id
  transaction do
    callEach e Assignment.stopCall markStopped rows
    change fun s => s.onStrategy id fun r => { r with active := false }
  return (← get).noted

def haltStrategy (e : Behaviour σ) (id : Int) : Work σ Unit := do
  let _ ← strategy id
  callEach e Assignment.stopCall (fun _ => return ()) (← query fun s => s.runningOf id)

def haltWallet (e : Behaviour σ) (id : Int) : Work σ Unit := do
  let _ ← wallet id
  callEach e Assignment.stopCall (fun _ => return ()) (← query fun s => s.runningOn id)

def kill (e : Behaviour σ) (id : Int) : Work σ Unit := do
  let _ ← strategy id
  callEach e (fun a => .kill a.walletId a.strategyId) (fun _ => return ())
    (← query fun s => s.ofStrategy id)
  report [killedLine id]

def unkill (e : Behaviour σ) (id : Int) : Work σ Unit := do
  let _ ← strategy id
  callEach e (fun a => .unkill a.walletId a.strategyId) (fun _ => return ())
    (← query fun s => s.ofStrategy id)
  report [releasedLine id]

def hasRunning (id : Int) : Work σ Bool := do
  if Desk.isStorable id then isRunning id else throw (.crash .tooLarge)

end Work

end StrategyDesk
