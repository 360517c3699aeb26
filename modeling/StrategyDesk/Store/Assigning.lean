import StrategyDesk.Json.Printer
import StrategyDesk.Store.Limit
import StrategyDesk.Store.Session

set_option autoImplicit false

namespace StrategyDesk

/-- What is asked for an assignment, in values that may be of any kind. -/
structure AssignRequest where
  markets : Json
  limit : Json
  paper : Json
  deriving Repr

/-- An assignment right after it was made, with its limit and paper flag as they were given. -/
structure Assigned where
  row : Assignment
  limit : Json
  paper : Json
  deriving Repr

def Assigned.limitText (a : Assigned) : String := a.limit.compact

namespace AssignRequest

def text? : Json → Option Text
  | .str s => some s
  | _ => none

def badMarkets : Failure := .badValue "markets must be a list of strings"

/-- The markets: a list of texts, the characters of a text, or the names in an object. -/
def marketsOf : Json → Except Failure (List Text)
  | .null => .ok []
  | .arr js =>
    match js.mapM text? with
    | some ms => .ok ms
    | none => .error badMarkets
  | .str s => .ok (s.points.map fun p => .ofPoints [p])
  | .obj ms => .ok (ms.map Prod.fst)
  | _ => .error (.crash .wrongKind)

/-- The paper flag, if one is given; zero and one stand for the truth values. -/
def paperOf : Json → Except Crash (Option Bool)
  | .null => .ok none
  | .bool b => .ok (some b)
  | .int n => if n = 0 then .ok (some false) else if n = 1 then .ok (some true)
      else .error .brokenStatement
  | .double d => if d.isZero then .ok (some false) else if d = .one then .ok (some true)
      else .error .brokenStatement
  | _ => .error .brokenStatement

def check (r : AssignRequest) : Except Failure (List Text) :=
  match Limit.inRange r.limit with
  | .error c => .error (.crash c)
  | .ok false => .error Limit.outOfRange
  | .ok true => marketsOf r.markets

def paperFor (r : AssignRequest) (old : Option Assignment) : Except Crash Bool := do
  match ← paperOf r.paper, old with
  | some paper, _ => return paper
  | none, none => return false
  | none, some _ => throw .brokenRow

/-- The paper flag as it is echoed: a new row shows the default in place of `null`. -/
def echo (r : AssignRequest) : Json := if r.paper.isNull then .bool false else r.paper

end AssignRequest

def Store.blankAssignment (s : Store) (walletId strategyId : Int) : Assignment :=
  ⟨s.nextAssignmentId, walletId, strategyId, [], .zero, false, false, false⟩

def updatingLine (walletId strategyId : Int) : Line :=
  Desk.storeLine .info ("Updating assignment of strategy " ++ toString strategyId ++
    " on wallet " ++ toString walletId)

namespace Work

variable {σ : Type}

def rowFor (walletId strategyId : Int) (old : Option Assignment) : Work σ Assignment := do
  match old with
  | some a =>
    report [updatingLine walletId strategyId]
    return a
  | none =>
    let a ← query fun s => s.blankAssignment walletId strategyId
    change fun s => s.addAssignment a
    return a

def setRow (a : Assignment) (s : Store) : Store := s.onAssignment a.id fun _ => a

def assignStrategy (walletId strategyId : Int) (r : AssignRequest) : Work σ Assigned := do
  let _ ← wallet walletId
  let _ ← strategy strategyId
  let markets ← orFail r.check
  let old ← query fun s => s.assignment? walletId strategyId
  let a ← rowFor walletId strategyId old
  let a := { a with markets }
  change (setRow a)
  let limit ← orCrash (Limit.amount r.limit)
  let a := { a with limit }
  change (setRow a)
  let a ← save ((r.paperFor old).map fun paper => { a with paper }) setRow
  return ⟨a, r.limit, r.echo⟩

end Work

end StrategyDesk
