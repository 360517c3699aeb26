import StrategyDesk.Failure
import StrategyDesk.Number.Shortest

set_option autoImplicit false

namespace StrategyDesk.Limit

def least : Nat := 1

def most : Nat := 1000000

def default : Json := .int 100

def outOfRange : Failure :=
  .badValue ("max_position_usdc must be between " ++ toString least ++ " and " ++ toString most)

def inRange : Json → Except Crash Bool
  | .int n => .ok (decide ((least : Int) ≤ n ∧ n ≤ most))
  | .double d => .ok ((Double.ofInt least).le d && d.le (.ofInt most))
  | .bool b => .ok b
  | _ => .error .wrongKind

/-- The value that is kept; the text of a truth value is no numeral. -/
def amount : Json → Except Crash Double
  | .int n => .ok (.ofInt n)
  | .double d => .ok d
  | _ => .error .noNumeral

def millionths : Double → Nat
  | .finite _ units => Double.nearestParts units 1000000
  | _ => 0

def text (d : Double) : String := Double.fixedText 6 (millionths d)

def sent (d : Double) : Double := .ofRatio false (millionths d) 1000000

end StrategyDesk.Limit
