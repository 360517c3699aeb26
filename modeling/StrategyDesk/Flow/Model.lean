import StrategyDesk.Json.Extent
import StrategyDesk.Reading

/-!
Flow strategies: nodes of typed boxes joined by edges. Nodes and edges keep every member they
came with. `Flow.read` builds a flow from JSON leniently, and `Flow.write` writes it back without
the members that are `null`, if the values that it passes on can be written.
-/

set_option autoImplicit false

namespace StrategyDesk
open Reading Reader

structure Position where
  x : Double
  y : Double
  deriving DecidableEq, Repr

structure Node where
  id : Text
  type : Text
  data : Json.Members
  position : Option Position
  extra : Json.Members
  deriving Repr, BEq

structure Edge where
  source : Text
  target : Text
  extra : Json.Members
  deriving Repr, BEq

structure Flow where
  nodes : List Node
  edges : List Edge
  deriving Repr, BEq

def otherMembers (names : List Text) (ms : Json.Members) : Json.Members :=
  ms.filter fun m => !names.contains m.1

def presentMembers (ms : Json.Members) : Json.Members := ms.filter fun m => !m.2.isNull

/-- The number of values that may stand in one another in what is passed on when it is written. -/
def Flow.maxHeight : Nat := 255

def writtenMembers (x : Json.Dumper) (ms : Json.Members) : Option Json.Members :=
  ms.mapM fun m => (x.dump Flow.maxHeight m.2).map (Prod.mk m.1)

namespace Position

def read : Reader Position
  | .obj ms => mk <$> field ms "x" number <*> field ms "y" number
  | j => wrong (.notRecord "Position") j

def dump (p : Position) : Json := .obj [("x", .double p.x), ("y", .double p.y)]

end Position

namespace Node

def declared : List Text := ["id", "type", "data", "position"]

def read : Reader Node
  | .obj ms => named ms <| mk <$> field ms "id" text <*> field ms "type" text <*>
      fieldOr ms "data" [] object <*> fieldOrNull ms "position" Position.read <*>
      value (otherMembers declared ms)
  | j => wrong (.notRecord "GraphNode") j

def members (n : Node) : Json.Members :=
  ("id", .str n.id) :: ("type", .str n.type) :: ("data", .obj n.data) ::
    ("position", (n.position.map Position.dump).getD .null) :: n.extra

def dumpPosition : Option Position → Json.Members
  | some p => [("position", p.dump)]
  | none => []

def write (x : Json.Dumper) (n : Node) : Option Json := do
  let data ← x.dump (Flow.maxHeight + 1) (.obj n.data)
  let extra ← writtenMembers x (presentMembers n.extra)
  return .obj (("id", .str n.id) :: ("type", .str n.type) :: ("data", data) ::
    (dumpPosition n.position ++ extra))

end Node

namespace Edge

def declared : List Text := ["source", "target"]

def read : Reader Edge
  | .obj ms => named ms <| mk <$> field ms "source" text <*> field ms "target" text <*>
      value (otherMembers declared ms)
  | j => wrong (.notRecord "GraphEdge") j

def write (x : Json.Dumper) (e : Edge) : Option Json := do
  let extra ← writtenMembers x (presentMembers e.extra)
  return .obj (("source", .str e.source) :: ("target", .str e.target) :: extra)

end Edge

namespace Flow

def nodeTypes : List String :=
  ["input", "indicator", "comparator", "logic", "not", "if_else", "math", "ev_calculator",
    "kelly", "action", "cancel", "notify", "api_fetch"]

def read : Reader Flow
  | .obj ms => (fun _ => mk) <$> fieldOr ms "mode" () (keyword "node") <*>
      fieldOr ms "nodes" [] (list Node.read) <*> fieldOr ms "edges" [] (list Edge.read)
  | j => wrong (.notRecord "NodeGraph") j

def write (x : Json.Dumper) (f : Flow) : Option Json := do
  let nodes ← f.nodes.mapM (Node.write x)
  let edges ← f.edges.mapM (Edge.write x)
  return .obj [("mode", .str "node"), ("nodes", .arr nodes), ("edges", .arr edges)]

def nodesOfType (f : Flow) (type : String) : List Node := f.nodes.filter fun n => n.type == type

end Flow

end StrategyDesk
