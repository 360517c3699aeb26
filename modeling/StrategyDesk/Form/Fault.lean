import StrategyDesk.Failure
import StrategyDesk.Form.Vocabulary

set_option autoImplicit false

namespace StrategyDesk.Form

inductive RuleFault where
  | notObject
  | indicator
  | operator
  | range
  | number
  deriving DecidableEq, Repr

inductive GroupFault where
  | notObject
  | junction
  | noRules
  | rule (index : Nat) (fault : RuleFault)
  deriving DecidableEq, Repr

inductive ActionFault where
  | notObject
  | signal
  | outcome
  | sizeMode
  | size
  | orderType
  deriving DecidableEq, Repr

inductive RiskLimit where
  | stopLoss | takeProfit | dailyLoss | cooldown
  deriving DecidableEq, Repr

namespace RiskLimit

def all : List RiskLimit := [.stopLoss, .takeProfit, .dailyLoss, .cooldown]

def name : RiskLimit → String
  | .stopLoss => "stoploss_pct"
  | .takeProfit => "take_profit_pct"
  | .dailyLoss => "daily_loss_limit_usdc"
  | .cooldown => "cooldown_seconds"

end RiskLimit

inductive RiskFault where
  | notObject
  | maxPosition
  | maxTrades
  | limit (l : RiskLimit)
  deriving DecidableEq, Repr

/-- The first check that a form graph fails. -/
inductive Fault where
  | notObject
  | mode
  | noConditions
  | group (index : Nat) (fault : GroupFault)
  | action (fault : ActionFault)
  | risk (fault : RiskFault)
  deriving DecidableEq, Repr

def RuleFault.kind : RuleFault → ViolationKind
  | .notObject => .structural
  | _ => .semantic

def RuleFault.path (base : String) : RuleFault → String
  | .notObject => base
  | .indicator => base ++ ".indicator"
  | .operator => base ++ ".operator"
  | .range | .number => base ++ ".value"

def RuleFault.message : RuleFault → String
  | .notObject => "must be an object"
  | .indicator | .operator => "is invalid"
  | .range => "must be [min, max] for between"
  | .number => "must be numeric"

def indexed (name : String) (i : Nat) : String := name ++ "[" ++ toString i ++ "]"

def GroupFault.kind : GroupFault → ViolationKind
  | .notObject | .noRules => .structural
  | .junction => .semantic
  | .rule _ f => f.kind

def GroupFault.path (base : String) : GroupFault → String
  | .notObject => base
  | .junction => base ++ ".type"
  | .noRules => base ++ ".rules"
  | .rule i f => f.path (indexed (base ++ ".rules") i)

def GroupFault.message : GroupFault → String
  | .notObject => "must be an object"
  | .junction => "must be AND or OR"
  | .noRules => "must be non-empty"
  | .rule _ f => f.message

def ActionFault.kind : ActionFault → ViolationKind
  | .notObject => .structural
  | _ => .semantic

def ActionFault.path : ActionFault → String
  | .notObject => "action"
  | .signal => "action.signal"
  | .outcome => "action.outcome"
  | .sizeMode => "action.size_mode"
  | .size => "action.size_usdc"
  | .orderType => "action.order_type"

def choiceMessage (α : Type) [Vocabulary α] : String :=
  "must be " ++ Text.joinWith " or " (Vocabulary.names α)

def ActionFault.message : ActionFault → String
  | .notObject => "must be an object"
  | .signal => choiceMessage Signal
  | .outcome => choiceMessage Outcome
  | .sizeMode => choiceMessage SizeMode
  | .size => "must be >= 1"
  | .orderType => choiceMessage OrderType

def RiskFault.kind : RiskFault → ViolationKind
  | .notObject => .structural
  | _ => .semantic

def RiskFault.path : RiskFault → String
  | .notObject => "risk"
  | .maxPosition => "risk.max_position_usdc"
  | .maxTrades => "risk.max_trades_per_slot"
  | .limit l => "risk." ++ l.name

def RiskFault.message : RiskFault → String
  | .notObject => "must be an object"
  | .maxPosition | .maxTrades => "must be >= 1"
  | .limit _ => "must be > 0 or null"

namespace Fault

def kind : Fault → ViolationKind
  | .notObject | .noConditions => .structural
  | .mode => .semantic
  | .group _ f => f.kind
  | .action f => f.kind
  | .risk f => f.kind

def path : Fault → String
  | .notObject => "graph"
  | .mode => "mode"
  | .noConditions => "conditions"
  | .group i f => f.path (indexed "conditions" i)
  | .action f => f.path
  | .risk f => f.path

def message : Fault → String
  | .notObject => "must be an object"
  | .mode => "must be \"form\""
  | .noConditions => "must be a non-empty array"
  | .group _ f => f.message
  | .action f => f.message
  | .risk f => f.message

def report (f : Fault) : GraphError := ⟨f.kind, f.path, f.message⟩

end Fault

end StrategyDesk.Form
