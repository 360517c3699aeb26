import StrategyDesk.Number.Double

/-!
The shortest decimal that reads back as a given binary64 value. On the grid of one significant
digit, then of two, and so on up to seventeen, the value's two neighbours are tested against the
interval of reals that round to the value; the first grid with a hit wins, and of two hits the
nearer. `Layout` says how the digits found are set out.
-/

set_option autoImplicit false

namespace StrategyDesk.Double

/-- The reals that round to a value, in quarters of a unit; the ends count if the last of the
value's 53 bits is zero. -/
structure Interval where
  low : Nat
  high : Nat
  closed : Bool

/-- Below a power of two the values stand twice as close as above it. -/
def interval (units : Nat) : Interval :=
  let gap := spareBits units
  let above := twoTo (gap + 1)
  let below := if gap > 0 ∧ units = twoTo (gap + 52) then twoTo gap else above
  ⟨4 * units - below, 4 * units + above, units / twoTo gap % 2 == 0⟩

def Interval.contains (i : Interval) (num den : Nat) : Bool :=
  if i.closed then i.low * den ≤ num && num ≤ i.high * den
  else i.low * den < num && num < i.high * den

def onGrid (units : Nat) (exponent : Int) : Nat × Nat :=
  if 0 ≤ exponent then (units, scale * tenTo exponent.toNat)
  else (units * tenTo (-exponent).toNat, scale)

def gridPoint (count : Nat) (exponent : Int) : Nat × Nat :=
  if 0 ≤ exponent then (4 * scale * (count * tenTo exponent.toNat), 1)
  else (4 * scale * count, tenTo (-exponent).toNat)

def onGrid? (units : Nat) (exponent : Int) : Option Nat :=
  let (num, den) := onGrid units exponent
  let q := num / den
  let hit (c : Nat) : Bool :=
    let (n, d) := gridPoint c exponent
    (interval units).contains n d
  match hit q, hit (q + 1) with
  | true, true => some (halfEven num den)
  | true, false => some q
  | false, true => some (q + 1)
  | false, false => none

def leadingPlaces (units : Nat) : Nat → Nat → Nat
  | 0, places => places
  | fuel + 1, places =>
    if scale ≤ units * tenTo places then places else leadingPlaces units fuel (places + 1)

def decimalExponent (units : Nat) : Int :=
  if scale ≤ units then ((toString (units / scale)).length : Int) - 1
  else -(leadingPlaces units 330 1 : Int)

/-- Tries the grids from `width` digits on, and gives all seventeen digits at the end. -/
def firstHit (units : Nat) (lead : Int) : Nat → Nat → Nat × Int
  | 0, width => let e := lead - width + 1; ((onGrid units e).1 / (onGrid units e).2, e)
  | more + 1, width =>
    match onGrid? units (lead - width + 1) with
    | some count => (count, lead - width + 1)
    | none => firstHit units lead more (width + 1)

/-- The fewest digits that read back as a positive value, without trailing zeros, and the
exponent of the first of them. -/
def shortest (units : Nat) : List Char × Int :=
  let (count, e) := firstHit units (decimalExponent units) 17 1
  let digits := (toString count).toList
  ((digits.reverse.dropWhile (· == '0')).reverse, e + digits.length - 1)

/-- How a number's digits are set out: positionally for exponents from `positionalFrom` to
below `positionalBelow`, else with a marked exponent of at least `exponentWidth` digits. -/
structure Layout where
  positionalFrom : Int
  positionalBelow : Int
  exponentWidth : Nat
  infinity : String
  notANumber : String

def exponentText (width : Nat) (e : Int) : String :=
  let digits := toString e.natAbs
  (if e < 0 then "-" else "+") ++ String.ofList (List.replicate (width - digits.length) '0') ++
    digits

def layDigits (l : Layout) (ds : List Char) (e : Int) : String :=
  if l.positionalFrom ≤ e ∧ e < l.positionalBelow then
    if e < 0 then
      "0." ++ String.ofList (List.replicate ((-e).toNat - 1) '0') ++ String.ofList ds
    else
      let whole := e.toNat + 1
      let intPart := ds.take whole ++ List.replicate (whole - ds.length) '0'
      let fraction := if ds.drop whole = [] then ['0'] else ds.drop whole
      String.ofList intPart ++ "." ++ String.ofList fraction
  else
    let tail := match ds.drop 1 with
      | [] => ""
      | rest => "." ++ String.ofList rest
    String.ofList (ds.take 1) ++ tail ++ "e" ++ exponentText l.exponentWidth e

def text (l : Layout) : Double → String
  | .nan => l.notANumber
  | .infinite negative => (if negative then "-" else "") ++ l.infinity
  | .finite negative units =>
    let body := if units = 0 then "0.0" else
      let (ds, e) := shortest units
      layDigits l ds e
    (if negative then "-" else "") ++ body

def fixedText (places count : Nat) : String :=
  let digits := toString (count % tenTo places)
  toString (count / tenTo places) ++ "." ++
    String.ofList (List.replicate (places - digits.length) '0') ++ digits

end StrategyDesk.Double
