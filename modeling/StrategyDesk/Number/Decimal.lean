import StrategyDesk.Number.Double

set_option autoImplicit false

namespace StrategyDesk

/-- The number `± digits * 10 ^ exponent`. -/
structure Decimal where
  negative : Bool
  digits : Nat
  exponent : Int
  deriving DecidableEq, Repr

namespace Decimal

def widthBound (n : Nat) : Nat := n.log2 / 3 + 1

def toDouble (d : Decimal) : Double :=
  if d.digits = 0 then .finite d.negative 0
  else if d.exponent > 310 then .infinite d.negative
  else if d.exponent ≥ 0 then .ofRatio d.negative (d.digits * tenTo d.exponent.toNat) 1
  else if d.exponent + widthBound d.digits < -330 then .finite d.negative 0
  else .ofRatio d.negative d.digits (tenTo (-d.exponent).toNat)

example : (⟨false, 5, -324⟩ : Decimal).toDouble = .finite false 1 := by decide +kernel
example : (⟨false, 2, -324⟩ : Decimal).toDouble = .finite false 0 := by decide +kernel
example : (⟨true, 1, 400⟩ : Decimal).toDouble = .infinite true := by decide +kernel
example : (⟨false, 99999999999999999, -17⟩ : Decimal).toDouble = Double.one := by decide +kernel

end Decimal

end StrategyDesk
