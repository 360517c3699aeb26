import StrategyDesk.Store.Assigning
import StrategyDesk.Store.Removal
import StrategyDesk.Store.Strategies
import StrategyDesk.Store.Wallets

set_option autoImplicit false

namespace StrategyDesk
open Engine

inductive Operation where
  | addWallet (status safeAddress privateKey : Option String)
  | setWalletStatus (walletId : Int) (status : Option String)
  | getStrategy (strategyId : Int)
  | createStrategy (userId : Option Int) (name description : Option Text) (graph : Json)
  | updateStrategy (strategyId : Int) (name description : Option Text) (graph : Option Json)
  | deleteStrategy (strategyId : Int)
  | deleteWallet (walletId : Int)
  | assignStrategy (walletId strategyId : Int) (request : AssignRequest)
  | unassignStrategy (walletId strategyId : Int)
  | activate (strategyId : Int)
  | deactivate (strategyId : Int)
  | haltStrategy (strategyId : Int)
  | haltWallet (walletId : Int)
  | kill (strategyId : Int)
  | unkill (strategyId : Int)
  | hasRunning (strategyId : Int)

inductive Result where
  | nothing
  | walletId (id : Int)
  | walletIds (ids : List Int)
  | flag (b : Bool)
  | strategy (r : Option Strategy)
  | assigned (a : Assigned)

variable {σ : Type}

def Operation.work (e : Behaviour σ) : Operation → Work σ Result
  | addWallet status address key => .walletId <$> Work.addWallet status address key
  | setWalletStatus w status => (fun _ => .nothing) <$> Work.setWalletStatus w status
  | getStrategy s => .strategy <$> Work.getStrategy s
  | createStrategy u n t g => (fun r => .strategy (some r)) <$> Work.createStrategy u n t g
  | updateStrategy s n t g => (fun r => .strategy (some r)) <$> Work.updateStrategy s n t g
  | deleteStrategy s => (fun _ => .nothing) <$> Work.deleteStrategy e s
  | deleteWallet w => (fun _ => .nothing) <$> Work.deleteWallet e w
  | assignStrategy w s r => .assigned <$> Work.assignStrategy w s r
  | unassignStrategy w s => (fun _ => .nothing) <$> Work.unassignStrategy e w s
  | activate s => .walletIds <$> Work.activate e s
  | deactivate s => .walletIds <$> Work.deactivate e s
  | haltStrategy s => (fun _ => .nothing) <$> Work.haltStrategy e s
  | haltWallet w => (fun _ => .nothing) <$> Work.haltWallet e w
  | kill s => (fun _ => .nothing) <$> Work.kill e s
  | unkill s => (fun _ => .nothing) <$> Work.unkill e s
  | hasRunning s => .flag <$> Work.hasRunning s

def Operation.run (e : Behaviour σ) (d : Desk σ) (o : Operation) : Ending σ Result :=
  d.session (o.work e)

def Desk.fresh (engine : σ) (ids : Form.Supply) (room : Room) : Desk σ :=
  ⟨.empty, engine, ids, room⟩

def Desk.run (e : Behaviour σ) (d : Desk σ) : List Operation → Desk σ
  | [] => d
  | o :: os => Desk.run e (o.run e d).desk os

end StrategyDesk
