import StrategyDesk.Failure
import StrategyDesk.Form.Check
import StrategyDesk.Form.Ids
import StrategyDesk.Form.Model
import StrategyDesk.Generation.Fences
import StrategyDesk.Json.Reader

set_option autoImplicit false

namespace StrategyDesk.Generation
open Text

def minDescription : Nat := 10

def maxDescription : Nat := 1000

def badDescription : Failure :=
  .badValue ("description must be between " ++ toString minDescription ++ " and " ++
    toString maxDescription ++ " characters")

def fitting {α : Type} (isBlank : α → Bool) (description : List α) : Except Failure (List α) :=
  let cs := trim isBlank description
  if minDescription ≤ cs.length ∧ cs.length ≤ maxDescription then .ok cs
  else .error badDescription

def checkDescription (s : String) : Except Failure String :=
  (fitting blank s.toList).map String.ofList

def isBlankPoint : CodePoint → Bool
  | .char c => blank c
  | .half _ => false

def descriptionOf (j : Json) : Except Failure Text :=
  match j with
  | .str t => (fitting isBlankPoint t.points).map .ofPoints
  | j => if j.isEmpty then .error badDescription else .error (.crash .noOperation)

def rejection : Abort Form.Fault → Failure
  | .fault f => .rejected f.report.text (some f.path)
  | .crash c => .crash c

/-- The form in an answer, with ids, and the ids that are left. -/
def parseAnswer (room : Room) (next : Form.Supply) (raw : List Char) :
    Except Failure (Json × Form.Supply) :=
  let text := stripFences raw
  match Json.readChars room.levels text with
  | .ok (.obj ms) => (Form.accept room next (.obj ms)).mapError rejection
  | .error .tooDeep => .error (.crash .tooDeep)
  | _ => .error (.notJsonOf text)

end StrategyDesk.Generation
