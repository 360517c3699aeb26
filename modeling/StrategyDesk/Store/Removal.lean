import StrategyDesk.Store.RunState

set_option autoImplicit false

namespace StrategyDesk
open Engine

def deletedStrategyLine (id : Int) : Line :=
  Desk.storeLine .info ("Deleted strategy " ++ toString id)

def deletedWalletLine (id : Int) : Line :=
  Desk.storeLine .info ("Deleted wallet " ++ toString id)

def haltedLines (w s : Int) : Log :=
  [⟨.info, .activation, "Stopped strategy " ++ toString s ++ " on wallet " ++ toString w ++
    " before unassigning"⟩]

def unassignedLine (walletId strategyId : Int) : Line :=
  Desk.storeLine .info ("Unassigned strategy " ++ toString strategyId ++ " from wallet " ++
    toString walletId)

namespace Work

variable {σ : Type}

def refreshEach : List Int → Work σ Unit
  | [] => return ()
  | id :: ids => do
    refresh id
    refreshEach ids

def deleteStrategy (e : Behaviour σ) (id : Int) : Work σ Unit := do
  haltStrategy e id
  change fun s => s.dropStrategy id
  commit
  report [deletedStrategyLine id]

def deleteWallet (e : Behaviour σ) (id : Int) : Work σ Unit := do
  let w ← wallet id
  if w.isDeploying then throw (.walletDeploying id)
  haltWallet e id
  let ids ← query fun s => (s.ofWallet id).map Assignment.strategyId
  change fun s => s.dropWallet id
  flush
  refreshEach ids
  commit
  report [deletedWalletLine id]

def halt (e : Behaviour σ) (a : Assignment) : Work σ Unit := do
  if a.running then
    call e a.stopCall
    report (haltedLines a.walletId a.strategyId)

def unassignStrategy (e : Behaviour σ) (walletId strategyId : Int) : Work σ Unit := do
  let a ← orFail (← query fun s => s.findAssignment walletId strategyId)
  halt e a
  change fun s => s.dropAssignment a.id
  flush
  refresh strategyId
  commit
  report [unassignedLine walletId strategyId]

end Work

end StrategyDesk
