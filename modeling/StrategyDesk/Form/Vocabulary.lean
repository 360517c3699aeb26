import StrategyDesk.Reading

set_option autoImplicit false

namespace StrategyDesk

/-- A type whose values are the words of a fixed list. -/
class Vocabulary (α : Type) where
  all : List α
  name : α → String

namespace Vocabulary

def names (α : Type) [Vocabulary α] : List String := (all : List α).map name

def ofName? {α : Type} [Vocabulary α] (s : String) : Option α := all.find? fun a => name a == s

def read {α : Type} [Vocabulary α] : Reader α
  | .str (.plain s) =>
    match ofName? s with
    | some a => .value a
    | none => .wrong (.notOneOf (names α)) (.str s)
  | .str (.torn t) => .wrong .notUnicode (.str (.torn t))
  | j => .wrong (.notOneOf (names α)) j

def json {α : Type} [Vocabulary α] (a : α) : Json := .str (name a)

end Vocabulary

inductive Indicator where
  | absMovePct | dirMovePct | midUp | midDown | refPrice
  | spreadUp | spreadDown
  | sizeRatioUp | sizeRatioDown | bidUp | askUp | bidDown | askDown
  | pctIntoSlot | minutesIntoSlot | hourUtc | dayOfWeek
  | marketVolumeUsd
  deriving DecidableEq, Repr

instance : Vocabulary Indicator where
  all := [.absMovePct, .dirMovePct, .midUp, .midDown, .refPrice, .spreadUp, .spreadDown,
    .sizeRatioUp, .sizeRatioDown, .bidUp, .askUp, .bidDown, .askDown, .pctIntoSlot,
    .minutesIntoSlot, .hourUtc, .dayOfWeek, .marketVolumeUsd]
  name
    | .absMovePct => "abs_move_pct"
    | .dirMovePct => "dir_move_pct"
    | .midUp => "mid_up"
    | .midDown => "mid_down"
    | .refPrice => "ref_price"
    | .spreadUp => "spread_up"
    | .spreadDown => "spread_down"
    | .sizeRatioUp => "size_ratio_up"
    | .sizeRatioDown => "size_ratio_down"
    | .bidUp => "bid_up"
    | .askUp => "ask_up"
    | .bidDown => "bid_down"
    | .askDown => "ask_down"
    | .pctIntoSlot => "pct_into_slot"
    | .minutesIntoSlot => "minutes_into_slot"
    | .hourUtc => "hour_utc"
    | .dayOfWeek => "day_of_week"
    | .marketVolumeUsd => "market_volume_usd"

inductive Operator where
  | above | below | atLeast | atMost | equal | unequal | between
  deriving DecidableEq, Repr

instance : Vocabulary Operator where
  all := [.above, .below, .atLeast, .atMost, .equal, .unequal, .between]
  name
    | .above => ">"
    | .below => "<"
    | .atLeast => ">="
    | .atMost => "<="
    | .equal => "=="
    | .unequal => "!="
    | .between => "between"

inductive Junction where
  | all | any
  deriving DecidableEq, Repr

instance : Vocabulary Junction where
  all := [.all, .any]
  name
    | .all => "AND"
    | .any => "OR"

inductive Signal where
  | buy | sell
  deriving DecidableEq, Repr

instance : Vocabulary Signal where
  all := [.buy, .sell]
  name
    | .buy => "buy"
    | .sell => "sell"

inductive Outcome where
  | up | down
  deriving DecidableEq, Repr

instance : Vocabulary Outcome where
  all := [.up, .down]
  name
    | .up => "UP"
    | .down => "DOWN"

inductive SizeMode where
  | fixed | proportional
  deriving DecidableEq, Repr

instance : Vocabulary SizeMode where
  all := [.fixed, .proportional]
  name
    | .fixed => "fixed"
    | .proportional => "proportional"

inductive OrderType where
  | market | limit
  deriving DecidableEq, Repr

instance : Vocabulary OrderType where
  all := [.market, .limit]
  name
    | .market => "market"
    | .limit => "limit"

example : (Vocabulary.names Indicator).length = 18 := rfl
example : (Vocabulary.names Operator).length = 7 := rfl

end StrategyDesk
