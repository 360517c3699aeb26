import StrategyDesk.Json.Extent
import StrategyDesk.Store.Operation

/-!
Responses: what the results and the failures of commands become. Numbers that are not finite
have no place in a response: in a graph they are `null`, and anywhere else the response cannot be
written and is an internal error. So is one with a torn text, or with a value in which too many
values stand in one another. What becomes of torn names in a graph is left open. Members with a name
that is kept for internal ones are left out of values from outside.
-/

set_option autoImplicit false

namespace StrategyDesk.Service

inductive Body where
  | none
  | json (j : Json)
  | text (s : String)
  deriving Repr

structure Response where
  status : Nat
  body : Body
  deriving Repr

namespace Response

def ofJson (status : Nat) (j : Json) : Response := ⟨status, .json j⟩

def forMethod (r : Response) (method : String) : Response :=
  if method = "HEAD" then { r with body := .none } else r

def noContent : Response := ⟨204, .none⟩

def internalError : Response := ⟨500, .text "Internal Server Error"⟩

def detail (status : Nat) (text : String) : Response := ofJson status (.obj [("detail", .str text)])

def notFound : Response := detail 404 "Not Found"

def otherMethod : Response := detail 405 "Method Not Allowed"

def unreadableBody : Response := detail 400 "There was an error parsing the body"

def internalPrefix : List CodePoint := ['_', 's', 'a']

def isInternal (name : Text) : Bool := internalPrefix.isPrefixOf name.points

mutual
def withoutInternal : Json → Json
  | .arr items => .arr (itemsWithoutInternal items)
  | .obj members => .obj (membersWithoutInternal members)
  | j => j
termination_by structural j => j
def itemsWithoutInternal : List Json → List Json
  | [] => []
  | j :: js => withoutInternal j :: itemsWithoutInternal js
termination_by structural js => js
def membersWithoutInternal : List (Text × Json) → List (Text × Json)
  | [] => []
  | m :: ms =>
    if isInternal m.1 then membersWithoutInternal ms
    else memberWithoutInternal m :: membersWithoutInternal ms
termination_by structural ms => ms
def memberWithoutInternal : Text × Json → Text × Json
  | (k, j) => (k, withoutInternal j)
termination_by structural m => m
end

def isShowable (height : Nat) (j : Json) : Bool :=
  decide (j.height ≤ height) && j.allFinite && j.allWhole

/-- A value from outside, without internal members, if it can be written. -/
def plain (height status : Nat) (j : Json) : Response :=
  let shown := withoutInternal j
  if isShowable height shown then ofJson status shown else internalError

def maxGraphHeight : Nat := 256

def withGraph (x : Json.Dumper) (status : Nat) (graph : Json) (members : Json → Json.Members) :
    Response :=
  match x.dump maxGraphHeight graph with
  | some shown =>
    if shown.allFinite && shown.allWhole then ofJson status (.obj (members shown))
    else internalError
  | none => internalError

def stepJson : Step → Json
  | .key name => .str name
  | .index i => .int i

def detailJson (d : Detail) : Json :=
  .obj [("loc", .arr (d.place.map stepJson)), ("type", .str d.mistake.tag),
    ("msg", .str d.mistake.message)]

/-- The mistakes of a request, which are shown with the values that were found. -/
def ofDetails (height : Nat) (ds : List Detail) : Response :=
  if ds.all fun d => isShowable height (withoutInternal d.found) then
    ofJson 422 (.obj [("detail", .arr (ds.map detailJson))])
  else internalError

def pathMember : Option String → Json.Members
  | some path => if path.isEmpty then [] else [("path", .str path)]
  | none => []

def engineMembers (e : EngineFailure) : Json.Members :=
  [("error", .str ("Failed to " ++ e.operation ++ " strategy. Engine may be unavailable.")),
    ("operation", .str e.operation), ("wallet_id", Failure.optionalId e.walletId),
    ("strategy_id", Failure.optionalId e.strategyId)]

def ofFailure (f : Failure) : Response :=
  let error : Text × Json := ("error", .str f.message)
  match f with
  | .graph e =>
    ofJson 422 (.obj [error, ("errors", .arr [Failure.violationJson ⟨e.path, e.message⟩])])
  | .insecure vs =>
    ofJson 422 (.obj [error, ("errors", .arr (vs.map Failure.violationJson))])
  | .provider _ _ | .notJson _ => ofJson 422 (.obj [error])
  | .rejected _ path => ofJson 422 (.obj (error :: pathMember path))
  | .engine e => ofJson 502 (.obj (engineMembers e))
  | .walletNotDeployed _ | .walletDeploying _ => ofJson 409 (.obj [error])
  | .walletNotFound _ | .strategyNotFound _ | .assignmentNotFound _ _ =>
    ofJson 404 (.obj [error])
  | .badValue _ | .broken _ | .crash _ => internalError

def failureLog : Failure → Log
  | .engine e => [⟨.warning, .service, "Engine call failed: " ++ e.message⟩]
  | _ => []

def ofStrategy (x : Json.Dumper) (status : Nat) (r : Strategy) : Response :=
  withGraph x status r.graph fun g =>
    [("id", .int r.id), ("name", .str r.name),
      ("description", (r.description.map Json.str).getD .null), ("mode", .str r.mode.name),
      ("graph", g), ("is_active", .bool r.active)]

def assignedJson (a : Assignment) : Json :=
  .obj [("id", .int a.id), ("wallet_id", .int a.walletId), ("strategy_id", .int a.strategyId),
    ("markets", .arr (a.markets.map .str)), ("max_position_usdc", .double a.limit),
    ("is_running", .bool a.running), ("is_paper", .bool a.paper)]

def ofAssignment (status : Nat) (a : Assignment) : Response :=
  if a.markets.any Text.isTorn then internalError else ofJson status (assignedJson a)

def runStateJson (strategyId : Int) (walletIds : List Int) (message : String) : Json :=
  .obj [("success", .bool true), ("strategy_id", .int strategyId),
    ("wallet_ids", .arr (walletIds.map .int)), ("message", .str message)]

def walletIds : Result → List Int
  | .walletIds ids => ids
  | _ => []

def ofResult (x : Json.Dumper) (o : Operation) (r : Result) : Response :=
  match o, r with
  | .createStrategy _ _ _ _, .strategy (some s) => ofStrategy x 201 s
  | .updateStrategy _ _ _ _, .strategy (some s) => ofStrategy x 200 s
  | .assignStrategy _ _ _, .assigned a => ofAssignment 201 a.row
  | .activate s, r => ofJson 200 (runStateJson s (walletIds r) "Strategy activated.")
  | .deactivate s, r => ofJson 200 (runStateJson s (walletIds r) "Strategy deactivated.")
  | .kill s, _ =>
    ofJson 200 (runStateJson s [] "Kill switch activated, all evaluation stopped.")
  | .unkill s, _ =>
    ofJson 200 (runStateJson s [] "Kill switch deactivated, evaluation resumed.")
  | _, _ => noContent

end Response

end StrategyDesk.Service
