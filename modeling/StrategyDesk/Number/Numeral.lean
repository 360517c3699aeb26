import StrategyDesk.Number.Decimal
import StrategyDesk.Text.Digit

set_option autoImplicit false

namespace StrategyDesk.Numeral
open Text

abbrev DigitSet := Char → Option Nat

/-- What continues a row of digits: more digits, a single underscore before each at most. -/
def moreDigits (digit? : DigitSet) : List Char → List Nat × List Char
  | [] => ([], [])
  | c :: cs =>
    match digit? c with
    | some d =>
      let (ds, left) := moreDigits digit? cs
      (d :: ds, left)
    | none =>
      if c = '_' ∧ (cs.head?.bind digit?).isSome then moreDigits digit? cs else ([], c :: cs)

def takeDigits (digit? : DigitSet) : List Char → List Nat × List Char
  | [] => ([], [])
  | c :: cs => if (digit? c).isSome then moreDigits digit? (c :: cs) else ([], c :: cs)

def takeSign : List Char → Bool × List Char
  | '-' :: cs => (true, cs)
  | '+' :: cs => (false, cs)
  | cs => (false, cs)

def lowerAscii (cs : List Char) : List Char := cs.map Char.toLower

def exponent? (digit? : DigitSet) : List Char → Option Int
  | [] => some 0
  | c :: cs =>
    if c = 'e' ∨ c = 'E' then
      let (negative, cs) := takeSign cs
      match takeDigits digit? cs with
      | ([], _) => none
      | (ds, []) => let n : Int := ofDigits 10 ds; some (if negative then -n else n)
      | _ => none
    else none

def fraction (digit? : DigitSet) : List Char → List Nat × List Char
  | '.' :: cs => takeDigits digit? cs
  | cs => ([], cs)

def double? (digit? : DigitSet) (cs : List Char) : Option Double :=
  let (negative, body) := takeSign cs
  match String.ofList (lowerAscii body) with
  | "inf" | "infinity" => some (.infinite negative)
  | "nan" => some .nan
  | _ =>
    let (whole, rest) := takeDigits digit? body
    let (part, rest) := fraction digit? rest
    if whole.isEmpty && part.isEmpty then none
    else (exponent? digit? rest).map fun e =>
      (Decimal.mk negative (ofDigits 10 (whole ++ part)) (e - part.length)).toDouble

def int? (digit? : DigitSet) (cs : List Char) : Option Int :=
  let (negative, body) := takeSign cs
  match takeDigits digit? body with
  | ([], _) => none
  | (ds, []) => let n : Int := ofDigits 10 ds; some (if negative then -n else n)
  | _ => none

def maxDigits : Nat := 4300

def wideDouble? (s : String) : Option Double :=
  double? decimalValue? (trim numeralBlank s.toList)

def wideInt? (s : String) : Option Int :=
  let body := trim numeralBlank s.toList
  let (_, unsigned) := takeSign body
  if (takeDigits decimalValue? unsigned).1.length > maxDigits then none
  else int? decimalValue? body

def withoutUnderscores? (cs : List Char) : Option (List Char) :=
  let rec loose : List Char → Bool
    | '_' :: '_' :: _ => true
    | _ :: cs => loose cs
    | [] => false
  if cs.head? = some '_' ∨ cs.getLast? = some '_' ∨ loose cs then none
  else some (cs.filter (· ≠ '_'))

/-- The narrow reader of binary64 values: white space may stand around a numeral, or underscores
inside it, but not both. -/
def narrowDouble? (s : String) : Option Double :=
  (plain? (trim whiteSpace s.toList)).or ((withoutUnderscores? s.toList).bind plain?)
where
  /-- A numeral without underscores. -/
  plain? (cs : List Char) : Option Double :=
    if cs.contains '_' then none else double? asciiDigit? cs

inductive IntFault where
  | unreadable
  | tooLong
  deriving DecidableEq, Repr

def withoutZeroFraction : List Char → List Char
  | [] => []
  | c :: cs =>
    if c = '.' then if !cs.isEmpty && cs.all (· == '0') then [] else c :: cs
    else c :: withoutZeroFraction cs

/-- What follows the zeros at the front, among which underscores may stand; the last character
is kept where nothing follows them. -/
def afterZeros (last : Char) : List Char → Option (List Char)
  | [] => some [last]
  | c :: cs =>
    if c = '0' ∨ c = '_' then afterZeros c cs
    else if c = '-' ∨ (asciiDigit? c).isSome then some (c :: cs)
    else none

def withoutZeros? : List Char → Option (List Char)
  | [] => none
  | c :: cs =>
    if c = '0' then afterZeros c cs
    else if c = '-' ∨ (asciiDigit? c).isSome then some (c :: cs)
    else none

/-- A numeral without the plus sign at its front, behind which no minus sign may stand. -/
def withoutPlus? : List Char → Option (List Char)
  | '+' :: '-' :: _ => none
  | '+' :: cs => some cs
  | cs => some cs

/-- A numeral in its shortest spelling: its digits without the zeros at the front and without
underscores, after a minus sign if there is one. -/
def cleaned? (cs : List Char) : Option (List Char) :=
  match withoutPlus? cs with
  | none => none
  | some cs =>
    let (sign, body) : List Char × List Char := match withoutZeroFraction cs with
      | '-' :: rest => (['-'], rest)
      | rest => ([], rest)
    (withoutZeros? body).map fun digits => sign ++ (withoutUnderscores? digits).getD digits

def spelled (cs : List Char) : Except IntFault Int :=
  let (negative, body) : Bool × List Char := match cs with
    | '-' :: rest => (true, rest)
    | rest => (false, rest)
  let digits := body.takeWhile fun c => (asciiDigit? c).isSome
  if maxDigits < digits.length ∧ body.head? ≠ some '0' then .error .tooLong
  else if body.isEmpty ∨ digits ≠ body ∨ (body.head? = some '0' ∧ body.length ≠ 1) then
    .error .unreadable
  else
    let n : Int := ofDigits 10 (digits.filterMap asciiDigit?)
    .ok (if negative then -n else n)

/-- The narrow reader of whole numbers, which also takes a fraction of zeros. -/
def narrowInt (s : String) : Except IntFault Int :=
  match cleaned? (trim whiteSpace s.toList) with
  | none => .error .unreadable
  | some cs => spelled cs

end StrategyDesk.Numeral
