import StrategyDesk.Form.Fault

/-!
The check of form graphs over raw JSON values. Checks run in a fixed order and the first one that
fails ends the run: the graph, its mode, the conditions by index with their rules by index, the
action, the risk block. A few values make a check crash: a list or an object where a word is
looked up, and a whole number too large for a binary64 value where a number is asked for.
-/

set_option autoImplicit false

namespace StrategyDesk.Form
open Json Check

/-- Whether the value is a finite number; a whole number beyond all finite values crashes. -/
def isNumber : Json → Except Crash Bool
  | .int n => if (Double.ofInt? n).isSome then .ok true else .error .tooLarge
  | .double d => .ok d.isFinite
  | _ => .ok false

def isBoundedNumber (int : Int → Bool) (double : Double → Bool) (j : Json) : Except Crash Bool :=
  match isNumber j, j with
  | .ok true, .int n => .ok (int n)
  | .ok true, .double d => .ok (double d)
  | r, _ => r

def isAtLeastOne : Json → Except Crash Bool :=
  isBoundedNumber (fun n => 1 ≤ n) (fun d => Double.one.le d)

def isPositive : Json → Except Crash Bool :=
  isBoundedNumber (fun n => 0 < n) (fun d => Double.zero.lt d)

/-- Looks a word up; lists and objects cannot be looked up. -/
def isListed (α : Type) [Vocabulary α] : Json → Except Crash Bool
  | .str (.plain s) => .ok (Vocabulary.ofName? (α := α) s).isSome
  | .arr _ | .obj _ => .error .wrongKind
  | _ => .ok false

def isOneOf (α : Type) [Vocabulary α] : Json → Bool
  | .str (.plain s) => (Vocabulary.ofName? (α := α) s).isSome
  | _ => false

def isWord (w : String) : Json → Bool
  | .str (.plain s) => s == w
  | _ => false

/-- Whether the value is a list of two numbers; the second is tested only after the first. -/
def isNumberPair : Json → Except Crash Bool
  | .arr [a, b] =>
    match isNumber a with
    | .ok true => isNumber b
    | r => r
  | _ => .ok false

def checkValue (operator value : Json) : Check RuleFault :=
  if isWord (Vocabulary.name Operator.between) operator then ensure (isNumberPair value) .range
  else ensure (isNumber value) .number

def checkRule : Json → Check RuleFault
  | .obj ms => inOrder
      [ensure (isListed Indicator (look ms "indicator")) .indicator,
        ensure (isListed Operator (look ms "operator")) .operator,
        checkValue (look ms "operator") (look ms "value")]
  | _ => .error (.fault .notObject)

def checkRules : Json → Check GroupFault
  | .arr (j :: js) =>
    inOrder ((j :: js).mapIdx fun i rule => within (.rule i) (checkRule rule))
  | _ => .error (.fault .noRules)

def checkGroup : Json → Check GroupFault
  | .obj ms => inOrder
      [ensure (.ok (isOneOf Junction (look ms "type"))) .junction,
        checkRules (look ms "rules")]
  | _ => .error (.fault .notObject)

def checkConditions : Json → Check Fault
  | .arr (j :: js) =>
    inOrder ((j :: js).mapIdx fun i group => within (.group i) (checkGroup group))
  | _ => .error (.fault .noConditions)

def checkAction : Json → Check ActionFault
  | .obj ms => inOrder
      [ensure (.ok (isOneOf Signal (look ms "signal"))) .signal,
        ensure (.ok (isOneOf Outcome (look ms "outcome"))) .outcome,
        ensure (.ok (isOneOf SizeMode (look ms "size_mode"))) .sizeMode,
        ensure (isAtLeastOne (look ms "size_usdc")) .size,
        ensure (.ok (isOneOf OrderType (look ms "order_type"))) .orderType]
  | _ => .error (.fault .notObject)

def checkLimit (ms : Members) (l : RiskLimit) : Check RiskFault :=
  match look ms l.name with
  | .null => .ok ()
  | j => ensure (isPositive j) (.limit l)

def checkRisk : Json → Check RiskFault
  | .obj ms => inOrder
      (ensure (isAtLeastOne (look ms "max_position_usdc")) .maxPosition ::
        ensure (isAtLeastOne (look ms "max_trades_per_slot")) .maxTrades ::
        RiskLimit.all.map (checkLimit ms))
  | _ => .error (.fault .notObject)

def check : Json → Check Fault
  | .obj ms => inOrder
      [ensure (.ok (isWord "form" (look ms "mode"))) .mode,
        checkConditions (look ms "conditions"),
        within .action (checkAction (look ms "action")),
        within .risk (checkRisk (look ms "risk"))]
  | _ => .error (.fault .notObject)

end StrategyDesk.Form
