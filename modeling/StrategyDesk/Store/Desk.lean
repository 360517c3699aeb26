import StrategyDesk.Engine.Sweep
import StrategyDesk.Form.Supply
import StrategyDesk.Store.Tables

set_option autoImplicit false

namespace StrategyDesk

structure Desk (σ : Type) where
  store : Store
  engine : σ
  ids : Form.Supply
  room : Room

structure Ending (σ α : Type) where
  result : Except Failure α
  desk : Desk σ
  sent : List Engine.Exchange
  log : Log

namespace Desk

def idBound : Int := twoTo 63

/-- The ids that can be looked up. -/
def isStorable (id : Int) : Bool := decide (-idBound ≤ id ∧ id < idBound)

def storeLine (level : Level) (text : String) : Line := ⟨level, .store, text⟩

end Desk

namespace Store

def find {α : Type} (row : Option α) (id : Int) (missing : Failure) : Except Failure α :=
  if Desk.isStorable id then
    match row with
    | some r => .ok r
    | none => .error missing
  else .error (.crash .tooLarge)

def findStrategy (s : Store) (id : Int) : Except Failure Strategy :=
  find (s.strategy? id) id (.strategyNotFound id)

def findWallet (s : Store) (id : Int) : Except Failure Wallet :=
  find (s.wallet? id) id (.walletNotFound id)

def findAssignment (s : Store) (walletId strategyId : Int) : Except Failure Assignment :=
  if Desk.isStorable walletId && Desk.isStorable strategyId then
    match s.assignment? walletId strategyId with
    | some a => .ok a
    | none => .error (.assignmentNotFound walletId strategyId)
  else .error (.crash .tooLarge)

end Store

end StrategyDesk
