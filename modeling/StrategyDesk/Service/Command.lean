import StrategyDesk.Generation.Answer
import StrategyDesk.Service.Route
import StrategyDesk.Store.Operation

set_option autoImplicit false

namespace StrategyDesk.Service
open Reading Reader

inductive Command where
  | status
  | engineStatus
  | validate (graph : Json)
  | generate (description : String)
  | operate (o : Operation)

def pathId (ids : PathIds) (name : String) : Reading Int :=
  under (.key "path") <| under (.key name) <|
    match ids.lookup name with
    | some s => integer (.str s)
    | none => wrong .missing .null

def fromBody {α : Type} (read : Json.Members → Reading α) (body : Option Json) : Reading α :=
  under (.key "body") <|
    match body with
    | none => wrong .missing .null
    | some (.obj ms) => read ms
    | some j => wrong .notFields j

def descriptionText (j : Json) : Reading String :=
  let bounded := textWithin Generation.minDescription Generation.maxDescription
  match j with
  | .str (.plain s) => bounded (.str (String.ofList (Text.trim Text.whiteSpace s.toList)))
  | j => bounded j

def maxName : Nat := 255

def nameText : Reader String := textWithin 1 maxName

def graphObject (j : Json) : Reading Json := (object j).map .obj

def readValidate (ms : Json.Members) : Reading Command :=
  Command.validate <$> field ms "graph" graphObject

def readGenerate (ms : Json.Members) : Reading Command :=
  Command.generate <$> field ms "description" descriptionText

def readCreate (ms : Json.Members) : Reading Operation :=
  (fun u n t g => .createStrategy (some u) (some (.plain n)) t g) <$> field ms "user_id" integer <*>
    field ms "name" nameText <*> fieldOrNull ms "description" text <*>
    field ms "graph" graphObject

def readUpdate (ms : Json.Members) : Reading (Int → Operation) :=
  (fun n t g s => .updateStrategy s (n.map .plain) t g) <$> fieldOrNull ms "name" nameText <*>
    fieldOrNull ms "description" text <*> fieldOrNull ms "graph" graphObject

def marketsJson : Option (List Text) → Json
  | some ms => .arr (ms.map .str)
  | none => .null

def limitNumber (j : Json) : Reading Json := (numberBetween Limit.least Limit.most j).map .double

def readAssign (ms : Json.Members) : Reading (Int → Operation) :=
  (fun s markets limit paper w => .assignStrategy w s ⟨marketsJson markets, limit, .bool paper⟩) <$>
    field ms "strategy_id" integer <*> fieldOrNull ms "markets" (list text) <*>
    fieldOr ms "max_position_usdc" Limit.default limitNumber <*>
    fieldOr ms "is_paper" false boolean

def Endpoint.command (ids : PathIds) (body : Option Json) : Endpoint → Reading Command
  | status => value .status
  | engineStatus => value .engineStatus
  | validate => fromBody readValidate body
  | generate => fromBody readGenerate body
  | create => .operate <$> fromBody readCreate body
  | update => (fun s make => .operate (make s)) <$> pathId ids "strategy_id" <*>
      fromBody readUpdate body
  | delete => (fun s => .operate (.deleteStrategy s)) <$> pathId ids "strategy_id"
  | activate => (fun s => .operate (.activate s)) <$> pathId ids "strategy_id"
  | deactivate => (fun s => .operate (.deactivate s)) <$> pathId ids "strategy_id"
  | kill => (fun s => .operate (.kill s)) <$> pathId ids "strategy_id"
  | unkill => (fun s => .operate (.unkill s)) <$> pathId ids "strategy_id"
  | assign => (fun w make => .operate (make w)) <$> pathId ids "wallet_id" <*>
      fromBody readAssign body
  | unassign => (fun w s => .operate (.unassignStrategy w s)) <$> pathId ids "wallet_id" <*>
      pathId ids "strategy_id"
  | deleteWallet => (fun w => .operate (.deleteWallet w)) <$> pathId ids "wallet_id"

end StrategyDesk.Service
