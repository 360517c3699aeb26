import StrategyDesk.Graph.Model

/-!
The three tables of the desk: wallets, strategies, and the assignments of strategies to wallets.
Rows stand in the order of their ids. A new id is one more than the largest in its table, so the
id of a removed last row is given again. No table refers to another by itself; that assignments
always have both their sides is a consequence of the operations.
-/

set_option autoImplicit false

namespace StrategyDesk

structure Wallet where
  id : Int
  status : String
  safeAddress : Option String
  privateKey : String
  deriving DecidableEq, Repr

namespace Wallet

def pending : String := "pending"
def deploying : String := "deploying"
def deployed : String := "deployed"

def isDeployed (w : Wallet) : Bool := w.status == deployed

def isDeploying (w : Wallet) : Bool := w.status == deploying

def shown (w : Wallet) : String :=
  "<WalletModel id=" ++ toString w.id ++ " status=" ++ w.status ++ ">"

end Wallet

/-- A strategy of a user; it is active while it runs on some wallet. -/
structure Strategy where
  id : Int
  userId : Int
  name : String
  description : Option String
  mode : Mode
  graph : Json
  active : Bool
  deriving DecidableEq, Repr

structure Assignment where
  id : Int
  walletId : Int
  strategyId : Int
  markets : List Text
  limit : Double
  paper : Bool
  running : Bool
  started : Bool
  deriving DecidableEq, Repr

namespace Assignment

def isPair (a : Assignment) (walletId strategyId : Int) : Bool :=
  a.walletId == walletId && a.strategyId == strategyId

def start (a : Assignment) : Assignment := { a with running := true, started := true }

def stop (a : Assignment) : Assignment := { a with running := false, started := false }

end Assignment

structure Store where
  wallets : List Wallet
  strategies : List Strategy
  assignments : List Assignment
  deriving DecidableEq, Repr

def nextId (ids : List Int) : Int := ids.foldl max 0 + 1

theorem le_foldl_max (ids : List Int) (n : Int) : n ≤ ids.foldl max n := by
  induction ids generalizing n with
  | nil => simp
  | cons m ids ih => exact Int.le_trans (Int.le_max_left n m) (ih _)

theorem le_foldl_max_of_mem {ids : List Int} {i : Int} (h : i ∈ ids) (n : Int) :
    i ≤ ids.foldl max n := by
  induction ids generalizing n with
  | nil => simp at h
  | cons m ids ih =>
    rcases List.mem_cons.1 h with rfl | h
    · exact Int.le_trans (Int.le_max_right n i) (le_foldl_max _ _)
    · exact ih h _

theorem lt_nextId {ids : List Int} {i : Int} (h : i ∈ ids) : i < nextId ids := by
  have := le_foldl_max_of_mem h 0
  unfold nextId
  omega

theorem nextId_pos (ids : List Int) : 0 < nextId ids := by
  have := le_foldl_max ids 0
  unfold nextId
  omega

namespace Store

def empty : Store := ⟨[], [], []⟩

def wallet? (s : Store) (id : Int) : Option Wallet := s.wallets.find? fun w => w.id == id

def strategy? (s : Store) (id : Int) : Option Strategy := s.strategies.find? fun r => r.id == id

def assignment? (s : Store) (walletId strategyId : Int) : Option Assignment :=
  s.assignments.find? fun a => a.isPair walletId strategyId

def ofStrategy (s : Store) (id : Int) : List Assignment :=
  s.assignments.filter fun a => a.strategyId == id

def ofWallet (s : Store) (id : Int) : List Assignment :=
  s.assignments.filter fun a => a.walletId == id

def hasRunning (s : Store) (id : Int) : Bool := (s.ofStrategy id).any Assignment.running

def nextWalletId (s : Store) : Int := nextId (s.wallets.map Wallet.id)

def nextStrategyId (s : Store) : Int := nextId (s.strategies.map Strategy.id)

def nextAssignmentId (s : Store) : Int := nextId (s.assignments.map Assignment.id)

def addWallet (s : Store) (w : Wallet) : Store := { s with wallets := s.wallets ++ [w] }

def addStrategy (s : Store) (r : Strategy) : Store := { s with strategies := s.strategies ++ [r] }

def addAssignment (s : Store) (a : Assignment) : Store :=
  { s with assignments := s.assignments ++ [a] }

def onWallet (s : Store) (id : Int) (f : Wallet → Wallet) : Store :=
  { s with wallets := s.wallets.map fun w => if w.id = id then f w else w }

def onStrategy (s : Store) (id : Int) (f : Strategy → Strategy) : Store :=
  { s with strategies := s.strategies.map fun r => if r.id = id then f r else r }

def onAssignment (s : Store) (id : Int) (f : Assignment → Assignment) : Store :=
  { s with assignments := s.assignments.map fun a => if a.id = id then f a else a }

def onRow (s : Store) (a : Assignment) (f : Assignment → Assignment) : Store :=
  { s with assignments := s.assignments.map fun b => if b = a then f b else b }

def onAssignmentsOf (s : Store) (id : Int) (f : Assignment → Assignment) : Store :=
  { s with assignments := s.assignments.map fun a => if a.strategyId = id then f a else a }

def refreshActive (s : Store) (id : Int) : Store :=
  s.onStrategy id fun r => { r with active := s.hasRunning id }

def dropStrategy (s : Store) (id : Int) : Store :=
  { s with
    strategies := s.strategies.filter fun r => r.id != id
    assignments := s.assignments.filter fun a => a.strategyId != id }

def dropWallet (s : Store) (id : Int) : Store :=
  { s with
    wallets := s.wallets.filter fun w => w.id != id
    assignments := s.assignments.filter fun a => a.walletId != id }

def dropAssignment (s : Store) (id : Int) : Store :=
  { s with assignments := s.assignments.filter fun a => a.id != id }

end Store

end StrategyDesk
