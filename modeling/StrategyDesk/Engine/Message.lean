import StrategyDesk.Notice

set_option autoImplicit false

namespace StrategyDesk.Engine
open Json

inductive Verb where
  | activate | deactivate | kill | unkill | status
  deriving DecidableEq, Repr

namespace Verb

def name : Verb → String
  | activate => "activate"
  | deactivate => "deactivate"
  | kill => "kill"
  | unkill => "unkill"
  | status => "status"

def route : Verb → String × String
  | activate => ("POST", "/internal/strategy/activate")
  | deactivate => ("POST", "/internal/strategy/deactivate")
  | kill => ("POST", "/internal/strategy/kill")
  | unkill => ("POST", "/internal/strategy/unkill")
  | status => ("GET", "/internal/engine/status")

def required : Verb → List Text
  | activate => ["wallet_id", "strategy_id", "graph", "markets"]
  | deactivate | kill | unkill => ["wallet_id", "strategy_id"]
  | status => []

def defaultMaxPosition : Double := .ofInt 1000

def defaults : Verb → Members
  | activate => [("max_position_usdc", .double defaultMaxPosition), ("is_paper", .bool false),
      ("private_key_enc", .str ""), ("safe_address", .str "")]
  | _ => []

end Verb

/-- The address that the paths of requests are put behind: the slashes at its end count for
nothing. -/
def baseUrl (address : String) : String :=
  String.ofList (Text.trimEnd (· == '/') address.toList)

structure Message where
  verb : Verb
  parts : Members
  deriving Repr

namespace Message

def ofArguments (v : Verb) (given : Members) : Except Crash Message :=
  (Arguments.fill v.required v.defaults given).map (mk v)

def walletId (m : Message) : Json := look m.parts "wallet_id"

def strategyId (m : Message) : Json := look m.parts "strategy_id"

def payload (m : Message) : Json :=
  match m.verb with
  | .status => .null
  | _ => .obj m.parts

def url (address : String) (m : Message) : String := baseUrl address ++ m.verb.route.2

def pairText (m : Message) : String :=
  "(wallet=" ++ m.walletId.spoken ++ " strategy=" ++ m.strategyId.spoken ++ ")"

def notice (m : Message) (status : Option Int) (cause : String) : Notice :=
  .ofEngineCall m.verb.name m.walletId m.strategyId status cause

end Message

end StrategyDesk.Engine
