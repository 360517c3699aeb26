import StrategyDesk.Flow.Fetch
import StrategyDesk.Graph.Model
import StrategyDesk.Log
import StrategyDesk.Text.Quoted

/-!
Which graphs may be kept. A form has to pass its check and is given ids; a flow has to have the
shape of one and no unsafe sources, and is kept as it is. A graph that is not accepted is never
stored.
-/

set_option autoImplicit false

namespace StrategyDesk
open Json

def pathFrom (path : String) : List Step → String
  | [] => path
  | .index i :: steps => pathFrom (path ++ "[" ++ toString i ++ "]") steps
  | .key k :: steps => pathFrom (if path.isEmpty then k else path ++ "." ++ k) steps

/-- The path of a place, where the empty path stands for the graph. -/
def pathText (place : List Step) : String :=
  let path := pathFrom "" place
  if path.isEmpty then "graph" else path

def Detail.report (d : Detail) : GraphError := ⟨.structural, pathText d.place, d.mistake.message⟩

namespace Flow

def checkShape (g : Json) : Except GraphError Flow :=
  match read g with
  | .value f => .ok f
  | .faulty d _ => .error d.report

def accept (g : Json) : Except Failure Json :=
  match checkShape g with
  | .error e => .error (.graph e)
  | .ok _ => ensureSafe g

def unknownTypes (f : Flow) : List Text :=
  (((f.nodes.map Node.type).filter fun t => !(nodeTypes.map Text.plain).contains t).mergeSort
    Text.precedes).eraseDups

end Flow

namespace Form

def failureOf : Abort Fault → Failure
  | .fault f => .graph f.report
  | .crash c => .crash c

end Form

/-- A graph that may be kept, its mode, and the ids that are left after those it was given. -/
structure Accepted where
  mode : Mode
  graph : Json
  next : Form.Supply

namespace Graph

def accept (room : Room) (next : Form.Supply) (g : Json) : Except Failure Accepted :=
  match Mode.ofGraph g with
  | .error e => .error (.graph e)
  | .ok .form =>
    match Form.accept room next g with
    | .error e => .error (Form.failureOf e)
    | .ok (g, next) => .ok ⟨.form, g, next⟩
  | .ok .flow =>
    match Flow.accept g with
    | .error e => .error e
    | .ok g => .ok ⟨.flow, g, next⟩

def line (level : Level) (text : String) : Line := ⟨level, .acceptance, text⟩

def countOf (key : String) : Json → Nat
  | .obj ms =>
    match look ms key with
    | .arr js => js.length
    | _ => 0
  | _ => 0

/-- What is reported of a flow of the right shape before its sources are judged. -/
def unknownTypesLog (f : Flow) : Log :=
  match f.unknownTypes with
  | [] => []
  | ts => [line .info ("Node graph uses unrecognized node types: " ++ Text.inBrackets ts)]

def shapeLog (m : Mode) (g : Json) : Log :=
  match m with
  | .form => []
  | .flow =>
    match Flow.checkShape g with
    | .ok f => unknownTypesLog f
    | .error _ => []

def acceptedLine (m : Mode) (g : Json) : Line :=
  match m with
  | .form => line .debug
      ("Validated form graph with " ++ toString (countOf "conditions" g) ++ " condition groups")
  | .flow => line .debug
      ("Validated node graph with " ++ toString (countOf "nodes" g) ++ " nodes")

def acceptLog (room : Room) (next : Form.Supply) (g : Json) : Log :=
  match Mode.ofGraph g with
  | .error _ => []
  | .ok m =>
    shapeLog m g ++
    (match accept room next g with
      | .ok _ => [acceptedLine m g]
      | .error _ => [])

end Graph

end StrategyDesk
