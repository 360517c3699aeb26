import StrategyDesk.Form.Check
import StrategyDesk.Form.Ids

set_option autoImplicit false

namespace StrategyDesk
open Reading Reader

inductive Bound where
  | single (x : Double)
  | range (low high : Double)
  deriving DecidableEq, Repr

structure Rule where
  id : Option Text
  indicator : Indicator
  operator : Operator
  bound : Bound
  deriving DecidableEq, Repr

structure RuleGroup where
  id : Option Text
  junction : Junction
  rules : List Rule
  deriving DecidableEq, Repr

structure Action where
  signal : Signal
  outcome : Outcome
  sizeMode : SizeMode
  sizeUsdc : Double
  orderType : OrderType
  deriving DecidableEq, Repr

structure Risk where
  maxPositionUsdc : Double
  maxTradesPerSlot : Double
  stopLoss : Option Double
  takeProfit : Option Double
  dailyLoss : Option Double
  cooldown : Option Double
  deriving DecidableEq, Repr

structure Form where
  conditions : List RuleGroup
  action : Action
  risk : Risk
  deriving DecidableEq, Repr

namespace Bound

def readPair : Reader (Double × Double)
  | .arr js =>
    if 2 < js.length then wrong (.longPair js.length) (.arr js)
    else
      let at' (i : Nat) : Reading Double :=
        under (.index i) <|
          match js[i]? with
          | some j => number j
          | none => wrong .missing (.arr js)
      Prod.mk <$> at' 0 <*> at' 1
  | j => wrong .notPair j

/-- A number, or a pair of them; where neither fits, the mistakes of both are listed. -/
def read (j : Json) : Reading Bound :=
  match number j, readPair j with
  | value x, _ => value (.single x)
  | _, value (low, high) => value (.range low high)
  | faulty d ds, faulty e es =>
    Function.const _ (.single .zero) <$> under (.key "float") (faulty (α := Unit) d ds)
      <* under (.key "tuple[float, float]") (faulty (α := Unit) e es)

def dump : Bound → Json
  | .single x => .double x
  | .range low high => .arr [.double low, .double high]

end Bound

def dumpText : Option Text → Json
  | some s => .str s
  | none => .null

def dumpNumber : Option Double → Json
  | some x => .double x
  | none => .null

namespace Rule

def read : Reader Rule
  | .obj ms => mk <$> fieldOrNull ms "id" text <*> field ms "indicator" Vocabulary.read <*>
      field ms "operator" Vocabulary.read <*> field ms "value" Bound.read
  | j => wrong (.notRecord "Rule") j

def dump (r : Rule) : Json :=
  .obj [("id", dumpText r.id), ("indicator", Vocabulary.json r.indicator),
    ("operator", Vocabulary.json r.operator), ("value", r.bound.dump)]

end Rule

namespace RuleGroup

def read : Reader RuleGroup
  | .obj ms => mk <$> fieldOrNull ms "id" text <*> field ms "type" Vocabulary.read <*>
      field ms "rules" (someItems Rule.read)
  | j => wrong (.notRecord "ConditionGroup") j

def dump (g : RuleGroup) : Json :=
  .obj [("id", dumpText g.id), ("type", Vocabulary.json g.junction),
    ("rules", .arr (g.rules.map Rule.dump))]

end RuleGroup

namespace Action

def read : Reader Action
  | .obj ms => mk <$> field ms "signal" Vocabulary.read <*> field ms "outcome" Vocabulary.read <*>
      field ms "size_mode" Vocabulary.read <*> field ms "size_usdc" (numberFrom 1) <*>
      field ms "order_type" Vocabulary.read
  | j => wrong (.notRecord "Action") j

def dump (a : Action) : Json :=
  .obj [("signal", Vocabulary.json a.signal), ("outcome", Vocabulary.json a.outcome),
    ("size_mode", Vocabulary.json a.sizeMode), ("size_usdc", .double a.sizeUsdc),
    ("order_type", Vocabulary.json a.orderType)]

end Action

namespace Risk

def readLimit (ms : Json.Members) (l : Form.RiskLimit) : Reading (Option Double) :=
  fieldOrNull ms l.name positiveNumber

def read : Reader Risk
  | .obj ms => mk <$> field ms "max_position_usdc" (numberFrom 1) <*>
      field ms "max_trades_per_slot" (numberFrom 1) <*> readLimit ms .stopLoss <*>
      readLimit ms .takeProfit <*> readLimit ms .dailyLoss <*> readLimit ms .cooldown
  | j => wrong (.notRecord "Risk") j

def limit (r : Risk) : Form.RiskLimit → Option Double
  | .stopLoss => r.stopLoss
  | .takeProfit => r.takeProfit
  | .dailyLoss => r.dailyLoss
  | .cooldown => r.cooldown

def dump (r : Risk) : Json :=
  .obj (("max_position_usdc", .double r.maxPositionUsdc) ::
    ("max_trades_per_slot", .double r.maxTradesPerSlot) ::
    Form.RiskLimit.all.map fun l => (l.name, dumpNumber (r.limit l)))

end Risk

namespace Form

def read : Reader Form
  | .obj ms => (fun _ => mk) <$> fieldOr ms "mode" () (keyword "form") <*>
      field ms "conditions" (someItems RuleGroup.read) <*> field ms "action" Action.read <*>
      field ms "risk" Risk.read
  | j => wrong (.notRecord "FormGraph") j

def dump (f : Form) : Json :=
  .obj [("mode", .str "form"), ("conditions", .arr (f.conditions.map RuleGroup.dump)),
    ("action", f.action.dump), ("risk", f.risk.dump)]

/-- What is handed over as a form: a raw graph, or a typed form, which stands for its dump. -/
inductive Subject where
  | raw (g : Json)
  | typed (f : Form)

def Subject.graph : Subject → Json
  | raw g => g
  | typed f => f.dump

def accept (room : Room) (next : Supply) (g : Json) : Except (Abort Fault) (Json × Supply) :=
  match check g with
  | .error e => .error e
  | .ok () => (withIds room next g).mapError .crash

inductive ParseFault where
  | check (f : Fault)
  | reading (ds : List Detail)

def parse (room : Room) (next : Supply) (g : Json) : Except (Abort ParseFault) (Form × Supply) :=
  match accept room next g with
  | .error e => .error (e.map .check)
  | .ok (g, next) =>
    match read g with
    | value f => .ok (f, next)
    | faulty d ds => .error (.fault (.reading (d :: ds)))

end Form

end StrategyDesk
