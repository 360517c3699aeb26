import StrategyDesk.Number.Numeral

/-!
IP addresses: their text forms and which of them belong to the public internet. An address is a
number of 32 or 128 bits, and a block of addresses is those that share their leading bits with a
base. An IPv6 address that maps an IPv4 one is judged as the latter.
-/

set_option autoImplicit false

namespace StrategyDesk.Net
open Text

inductive Address where
  | v4 (number : Nat)
  | v6 (number : Nat)
  deriving DecidableEq, Repr

def quad (a b c d : Nat) : Nat := ((a * 256 + b) * 256 + c) * 256 + d

def groups (gs : List Nat) : Nat := ofDigits 65536 gs

/-- The addresses that agree with the base after its last `free` bits are cut off. -/
structure Block where
  base : Nat
  free : Nat

def Block.contains (b : Block) (n : Nat) : Bool := n / twoTo b.free == b.base / twoTo b.free

def block4 (a b c d fixed : Nat) : Block := ⟨quad a b c d, 32 - fixed⟩

def block6 (leading : List Nat) (fixed : Nat) : Block :=
  ⟨groups (leading ++ List.replicate (8 - leading.length) 0), 128 - fixed⟩

def single6 (leading : List Nat) (last : Nat) : Block :=
  ⟨groups (leading ++ List.replicate (7 - leading.length) 0 ++ [last]), 0⟩

/-- The IPv4 blocks that are not part of the public internet: private, shared, loopback,
link-local, documentation, benchmark, reserved and broadcast addresses. -/
def internal4 : List Block :=
  [block4 0 0 0 0 8, block4 10 0 0 0 8, block4 100 64 0 0 10, block4 127 0 0 0 8,
   block4 169 254 0 0 16, block4 172 16 0 0 12, block4 192 0 0 0 24, block4 192 0 0 170 31,
   block4 192 0 2 0 24, block4 192 168 0 0 16, block4 198 18 0 0 15, block4 198 51 100 0 24,
   block4 203 0 113 0 24, block4 240 0 0 0 4, block4 255 255 255 255 32]

/-- Addresses inside those blocks that are public all the same. -/
def excepted4 : List Block := [block4 192 0 0 9 32, block4 192 0 0 10 32]

def multicast4 : Block := block4 224 0 0 0 4
def reserved4 : Block := block4 240 0 0 0 4

def internal6 : List Block :=
  [single6 [] 1, single6 [] 0, block6 [0, 0, 0, 0, 0, 0xffff] 96, block6 [0x64, 0xff9b, 1] 48,
   block6 [0x100] 64, block6 [0x2001] 23, block6 [0x2001, 0xdb8] 32, block6 [0x2002] 16,
   block6 [0xfc00] 7, block6 [0xfe80] 10]

def excepted6 : List Block :=
  [single6 [0x2001, 1] 1, single6 [0x2001, 1] 2, block6 [0x2001, 3] 32,
   block6 [0x2001, 4, 0x112] 48, block6 [0x2001, 0x20] 28, block6 [0x2001, 0x30] 28]

def multicast6 : Block := block6 [0xff00] 8

def reserved6 : List Block :=
  [block6 [] 8, block6 [0x100] 8, block6 [0x200] 7, block6 [0x400] 6, block6 [0x800] 5,
   block6 [0x1000] 4, block6 [0x4000] 3, block6 [0x6000] 3, block6 [0x8000] 3, block6 [0xa000] 3,
   block6 [0xc000] 3, block6 [0xe000] 4, block6 [0xf000] 5, block6 [0xf800] 6, block6 [0xfe00] 9]

def inAny (bs : List Block) (n : Nat) : Bool := bs.any fun b => b.contains n

def isPublic4 (n : Nat) : Bool :=
  !(inAny internal4 n && !inAny excepted4 n) && !multicast4.contains n && !reserved4.contains n

def mapping : Block := block6 [0, 0, 0, 0, 0, 0xffff] 96

def isPublic6 (n : Nat) : Bool :=
  if mapping.contains n then isPublic4 (n % twoTo 32)
  else !(inAny internal6 n && !inAny excepted6 n) && !multicast6.contains n && !inAny reserved6 n

def Address.isPublic : Address → Bool
  | .v4 n => isPublic4 n
  | .v6 n => isPublic6 n

example : isPublic4 (quad 8 8 8 8) = true := by decide
example : isPublic4 (quad 192 168 0 1) = false := by decide
example : isPublic6 (groups [0xfec0, 0, 0, 0, 0, 0, 0, 1]) = true := by decide
example : isPublic6 (groups [0, 0, 0, 0, 0, 0xffff, 0x0808, 0x0808]) = true := by decide

/-- The number that ASCII digits write, without a leading zero unless it is the only digit. -/
def byte? (cs : List Char) : Option Nat := do
  let ds ← cs.mapM asciiDigit?
  let n := ofDigits 10 ds
  if ds.isEmpty || ds.length > 3 || (ds.head? == some 0 && ds.length > 1) || n > 255 then none
  else some n

def dotted? (cs : List Char) : Option Nat := do
  match splitOn '.' cs with
  | [a, b, c, d] => some (quad (← byte? a) (← byte? b) (← byte? c) (← byte? d))
  | _ => none

def group? (cs : List Char) : Option Nat := do
  let ds ← cs.mapM hexDigit?
  if ds.isEmpty || ds.length > 4 then none else some (ofDigits 16 ds)

/-- The groups written in a piece between colons; a dotted number at the end counts as two. -/
def lastGroups? (cs : List Char) : Option (List Nat) :=
  if cs.contains '.' then (dotted? cs).map fun n => [n / 65536, n % 65536]
  else (group? cs).map fun n => [n]

def allGroups? : List (List Char) → Option (List Nat)
  | [] => some []
  | [p] => lastGroups? p
  | p :: ps => do return (← group? p) :: (← allGroups? ps)

/-- The pieces before and after the gap of a double colon, which is an empty piece that is
neither the first nor the last. -/
def gap? : List (List Char) → Option (List (List Char) × List (List Char))
  | p :: [] :: q :: ps => some ([p], q :: ps)
  | p :: ps => (gap? ps).map fun (before, after) => (p :: before, after)
  | [] => none

/-- The pieces of one side of a gap: none where the gap stands at the end of the text. -/
def side (ps : List (List Char)) : List (List Char) := if ps = [[]] then [] else ps

def colonned? (cs : List Char) : Option Nat := do
  let pieces := splitOn ':' cs
  if pieces.length < 3 then none
  else match gap? pieces with
    | none =>
      let gs ← allGroups? pieces
      if gs.length = 8 then some (groups gs) else none
    | some (before, after) =>
      let high ← (side before).mapM group?
      let low ← allGroups? (side after)
      if high.length + low.length < 8 then
        some (groups (high ++ List.replicate (8 - high.length - low.length) 0 ++ low))
      else none

def cut (c : Char) : List Char → List Char × Option (List Char)
  | [] => ([], none)
  | d :: ds =>
    if d = c then ([], some ds)
    else
      let (before, after) := cut c ds
      (d :: before, after)

theorem cut_of_notMem {c : Char} {cs : List Char} (h : c ∉ cs) : cut c cs = (cs, none) := by
  induction cs with
  | nil => rfl
  | cons d ds ih =>
    simp only [List.mem_cons, not_or] at h
    simp [cut, Ne.symm h.1, ih h.2]

theorem cut_append {c : Char} {before : List Char} (h : c ∉ before) (after : List Char) :
    cut c (before ++ c :: after) = (before, some after) := by
  induction before with
  | nil => simp [cut]
  | cons d ds ih =>
    simp only [List.mem_cons, not_or] at h
    simp [cut, Ne.symm h.1, ih h.2]

def scoped? (cs : List Char) : Option Nat :=
  match cut '%' cs with
  | (address, none) => colonned? address
  | (address, some scope) =>
    if scope.isEmpty || scope.contains '%' then none else colonned? address

def literal? (cs : List Char) : Option Address :=
  match dotted? cs with
  | some n => some (.v4 n)
  | none => (scoped? cs).map .v6

/-- A whole number in digits of any script stands for the IPv4 address of that number. -/
def bareNumber? (cs : List Char) : Option Address :=
  if cs.isEmpty || !cs.all isDigit || cs.length > Numeral.maxDigits then none
  else do
    let n := ofDigits 10 (← cs.mapM decimalValue?)
    if n < twoTo 32 then some (.v4 n) else none

def address? (cs : List Char) : Option Address :=
  match literal? cs with
  | some a => some a
  | none => bareNumber? cs

end StrategyDesk.Net
