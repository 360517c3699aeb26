import StrategyDesk.Text.Blank
import StrategyDesk.Text.Digit

set_option autoImplicit false

namespace StrategyDesk.Net
open Text

def beforeQuery (target : List Char) : List Char :=
  target.takeWhile fun c => c ≠ '?' ∧ c ≠ '#'

/-- A target without the authority that stands after two slashes. -/
def withoutAuthority : List Char → List Char
  | '/' :: '/' :: cs => cs.dropWhile (· ≠ '/')
  | cs => cs

def rooted (target : List Char) : List Char :=
  '/' :: (withoutAuthority target).dropWhile (· = '/')

/-- Takes one step along a path: a dot stays, and two dots lead back, but not beyond the root. -/
def walk (pieces : List (List Char)) (piece : List Char) : List (List Char) :=
  if piece = ['.'] then pieces
  else if piece = ['.', '.'] then (if pieces = [[]] then pieces else pieces.dropLast)
  else pieces ++ [piece]

def walked (path : List Char) : List Char :=
  ['/'].intercalate ((splitOn '/' path).foldl walk [])

example : walked "/./engine/../status".toList = "/status".toList := by decide +kernel
example : walked "/../status".toList = "/status".toList := by decide +kernel

def byteOf? (high low : Char) : Option UInt8 := do
  return (16 * (← hexDigit? high) + (← hexDigit? low)).toUInt8

def charBytes (c : Char) : List UInt8 := (String.singleton c).toUTF8.toList

def pathBytes : List Char → List UInt8
  | '%' :: high :: low :: cs =>
    match byteOf? high low with
    | some b => b :: pathBytes cs
    | none => charBytes '%' ++ pathBytes (high :: low :: cs)
  | c :: cs => charBytes c ++ pathBytes cs
  | [] => []

/-- The text of bytes; where they are no UTF-8, each byte beyond ASCII is a replacement mark. -/
def textOfBytes (bytes : List UInt8) : List Char :=
  match String.fromUTF8? ⟨bytes.toArray⟩ with
  | some s => s.toList
  | none => bytes.map fun b => if b < 0x80 then Char.ofNat b.toNat else '\uFFFD'

def unescape (path : List Char) : List Char := textOfBytes (pathBytes path)

def path (target : String) : List Char :=
  unescape (unescape (walked (rooted (beforeQuery target.toList))))

def segments (path : List Char) : List String :=
  match path with
  | '/' :: rest => (splitOn '/' rest).map String.ofList
  | _ => []

end StrategyDesk.Net
