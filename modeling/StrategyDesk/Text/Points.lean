/-!
Texts from outside. A text is a list of code points, and these may be halves of surrogate pairs
that stand without the other half. Texts of characters are kept apart from the torn ones, which
cannot be encoded, so most texts are strings.
-/

set_option autoImplicit false

namespace StrategyDesk

inductive CodePoint where
  | char (c : Char)
  | half (n : Fin 0x800)
  deriving DecidableEq, Repr

namespace CodePoint

instance : Coe Char CodePoint := ⟨char⟩

def toNat : CodePoint → Nat
  | char c => c.toNat
  | half n => 0xD800 + n

def isHalf : CodePoint → Bool
  | char _ => false
  | half _ => true

def shown : CodePoint → Char
  | char c => c
  | half _ => '\uFFFD'

def ofNat (n : Nat) : CodePoint :=
  if h : 0xD800 ≤ n ∧ n < 0xE000 then half ⟨n - 0xD800, by omega⟩ else char (Char.ofNat n)

end CodePoint

/-- Code points of which at least one is a half. -/
structure Torn where
  points : List CodePoint
  torn : points.any CodePoint.isHalf = true
  deriving DecidableEq, Repr

inductive Text where
  | plain (s : String)
  | torn (t : Torn)
  deriving DecidableEq, Repr

namespace Text

instance : Coe String Text := ⟨plain⟩

instance : Inhabited Text := ⟨plain ""⟩

def points : Text → List CodePoint
  | plain s => s.toList.map .char
  | torn t => t.points

def ofPoints (ps : List CodePoint) : Text :=
  if h : ps.any CodePoint.isHalf = true then torn ⟨ps, h⟩
  else plain (String.ofList (ps.map CodePoint.shown))

def isEmpty : Text → Bool
  | plain s => s.isEmpty
  | torn _ => false

def isTorn : Text → Bool
  | plain _ => false
  | torn _ => true

def shown : Text → String
  | plain s => s
  | torn t => String.ofList (t.points.map CodePoint.shown)

def precedes (a b : Text) : Bool :=
  !List.lex (b.points.map CodePoint.toNat) (a.points.map CodePoint.toNat) Nat.blt

example : ofPoints [.char 'a', .half 0] ≠ plain "a\uFFFD" := by decide

end Text

end StrategyDesk
