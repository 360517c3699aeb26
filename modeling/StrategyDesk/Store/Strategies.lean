import StrategyDesk.Graph.Acceptance
import StrategyDesk.Json.Extent
import StrategyDesk.Json.Sameness
import StrategyDesk.Store.Session

set_option autoImplicit false

namespace StrategyDesk

namespace Desk

def graphIntBound : Nat := tenTo 4300

def isWritable (g : Json) : Bool := g.intsBelow graphIntBound

def encoded : Option Text → Except Crash (Option String)
  | none => .ok none
  | some (.plain s) => .ok (some s)
  | some (.torn _) => .error .unencodable

/-- The row of a new strategy. What is given has to be writable, in the order of the columns but for
the graph, and the strategy needs an owner and a name. -/
def newStrategy (s : Store) (userId : Option Int) (name description : Option Text)
    (a : Accepted) : Except Crash Strategy := do
  if !isWritable a.graph then throw .brokenStatement
  if !userId.all isStorable then throw .tooLarge
  let name ← encoded name
  let description ← encoded description
  match userId, name with
  | some u, some n => return ⟨s.nextStrategyId, u, n, description, a.mode, a.graph, false⟩
  | _, _ => throw .brokenRow

def createdLine (r : Strategy) : Line :=
  storeLine .info ("Created " ++ r.mode.name ++ "-mode strategy " ++ toString r.id)

def revised (r : Strategy) (name description : Option Text) (a : Option Accepted) :
    Except Crash Strategy := do
  if !a.all (fun a => isWritable a.graph) then throw .brokenStatement
  let name ← encoded name
  let description ← encoded description
  return { r with
    name := name.getD r.name
    description := description.or r.description
    mode := (a.map Accepted.mode).getD r.mode
    graph := (a.map Accepted.graph).getD r.graph }

/-- A strategy as it goes into its row, where the old graph stays if the new one is the same. -/
def keptRow (old new : Strategy) : Strategy :=
  { new with graph := if Json.same old.graph new.graph then old.graph else new.graph }

end Desk

namespace Work

variable {σ : Type}

def getStrategy (id : Int) : Work σ (Option Strategy) := do
  if Desk.isStorable id then query fun s => s.strategy? id else throw (.crash .tooLarge)

def judge (g : Json) : Work σ Accepted := do
  let s ← get
  report (Graph.acceptLog s.room s.ids g)
  let a ← orFail (Graph.accept s.room s.ids g)
  modify fun s => { s with ids := a.next }
  return a

def createStrategy (userId : Option Int) (name description : Option Text) (g : Json) :
    Work σ Strategy := do
  let a ← judge g
  let tables ← query fun s => s
  let r ← save (Desk.newStrategy tables userId name description a) fun r s => s.addStrategy r
  report [Desk.createdLine r]
  return r

def judgeGiven : Option Json → Work σ (Option Accepted)
  | none => return none
  | some g => return some (← judge g)

def updateStrategy (id : Int) (name description : Option Text) (g : Option Json) :
    Work σ Strategy := do
  let r ← strategy id
  let a ← judgeGiven g
  save (Desk.revised r name description a) fun new s =>
    s.onStrategy r.id fun _ => Desk.keptRow r new

end Work

end StrategyDesk
