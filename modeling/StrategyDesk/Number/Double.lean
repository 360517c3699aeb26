import StrategyDesk.Number.Power

/-!
Binary64 values, held exactly. A finite value is a whole number of units of 2^-1074, the
smallest positive value, so every comparison, truncation and rounding below is arithmetic on
natural numbers. The sign is kept apart from the size, because a zero has one too.
-/

set_option autoImplicit false

namespace StrategyDesk

inductive Double where
  | finite (negative : Bool) (units : Nat)
  | infinite (negative : Bool)
  | nan
  deriving DecidableEq, Repr, Inhabited

namespace Double

def scale : Nat := twoTo 1074

def ceiling : Nat := twoTo 2098

/-- The whole number nearest to `num / den`; a half goes to the even neighbour. -/
def halfEven (num den : Nat) : Nat :=
  let q := num / den
  let r := num % den
  if 2 * r < den ∨ (2 * r = den ∧ q % 2 = 0) then q else q + 1

theorem halfEven_near (num den : Nat) (hd : 0 < den) :
    2 * num ≤ 2 * (halfEven num den * den) + den ∧
      2 * (halfEven num den * den) ≤ 2 * num + den := by
  have h := Nat.div_add_mod num den
  have hr := Nat.mod_lt num hd
  unfold halfEven
  simp only
  split
  · rename_i hc
    have e : num / den * den = den * (num / den) := Nat.mul_comm _ _
    omega
  · rename_i hc
    have e : (num / den + 1) * den = den * (num / den) + den := by
      rw [Nat.add_mul, Nat.one_mul, Nat.mul_comm]
    omega

/-- How many low bits of a size do not fit into 53. -/
def spareBits (units : Nat) : Nat := units.log2 - 52

def roundUnits (num den : Nat) : Nat :=
  let gap := spareBits (num / den)
  halfEven num (den * twoTo gap) * twoTo gap

/-- The value of a sign and a size in units, which is an infinity where the size is too large. -/
def ofUnits (negative : Bool) (units : Nat) : Double :=
  if units < ceiling then .finite negative units else .infinite negative

def ofRatio (negative : Bool) (num den : Nat) : Double :=
  ofUnits negative (roundUnits (scale * num) den)

def ofInt (n : Int) : Double := ofRatio (decide (n < 0)) n.natAbs 1

def zero : Double := .finite false 0
def one : Double := .finite false scale

def isFinite : Double → Bool
  | .finite _ _ => true
  | _ => false

def isZero : Double → Bool
  | .finite _ units => units == 0
  | _ => false

def ofInt? (n : Int) : Option Double :=
  let d := ofInt n
  if d.isFinite then some d else none

def signed (negative : Bool) (units : Nat) : Int := if negative then -(units : Int) else units

/-- The order of values: nothing is comparable with `nan`, and the two zeros are equal. -/
def le : Double → Double → Bool
  | .nan, _ => false
  | _, .nan => false
  | .infinite true, _ => true
  | _, .infinite false => true
  | .infinite false, _ => false
  | _, .infinite true => false
  | .finite s a, .finite t b => decide (signed s a ≤ signed t b)

def lt (a b : Double) : Bool := le a b && !le b a

/-- Numerical equality, which holds between the two zeros and not of `nan`. -/
def same (a b : Double) : Bool := le a b && le b a

def truncate? : Double → Option Int
  | .finite negative units => some (signed negative (units / scale))
  | _ => none

def isWhole : Double → Bool
  | .finite _ units => units % scale == 0
  | _ => false

/-- The size rounded to a whole number of `1 / parts`; a half goes to the even neighbour. -/
def nearestParts (units parts : Nat) : Nat := halfEven (units * parts) scale

example : ofInt 1 = one := by decide +kernel
example : ofRatio false 1 (twoTo 1075) = zero := by decide +kernel
example : ofRatio false 3 (twoTo 1076) = .finite false 1 := by decide +kernel
example : ofInt (twoTo 1024) = .infinite false := by decide +kernel
example : ofInt (twoTo 53 + 1) = ofInt (twoTo 53) := by decide +kernel

end Double

end StrategyDesk
