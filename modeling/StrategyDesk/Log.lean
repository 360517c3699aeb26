set_option autoImplicit false

namespace StrategyDesk

inductive Level where
  | debug | info | warning | error
  deriving DecidableEq, Repr

inductive Channel where
  | acceptance | generation | provider | engine | activation | store | database | service
  deriving DecidableEq, Repr

structure Line where
  level : Level
  channel : Channel
  text : String
  deriving DecidableEq, Repr

abbrev Log := List Line

end StrategyDesk
