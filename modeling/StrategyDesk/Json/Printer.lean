import StrategyDesk.Json.Basic
import StrategyDesk.Number.Shortest
import StrategyDesk.Text.Digit

set_option autoImplicit false

namespace StrategyDesk.Json
open Text

/-- Numbers are positional from 10^-4 up to below 10^16, and exponents have two digits or more. -/
def layout : Double.Layout := ⟨-4, 16, 2, "Infinity", "NaN"⟩

def unitEscape (n : Nat) : List Char :=
  ['\\', 'u', hexChar (n / 4096 % 16), hexChar (n / 256 % 16), hexChar (n / 16 % 16),
    hexChar (n % 16)]

def charText (c : Char) : List Char :=
  match c with
  | '"' => ['\\', '"']
  | '\\' => ['\\', '\\']
  | '\n' => ['\\', 'n']
  | '\r' => ['\\', 'r']
  | '\t' => ['\\', 't']
  | '\x08' => ['\\', 'b']
  | '\x0c' => ['\\', 'f']
  | c =>
    let n := c.toNat
    if 0x20 ≤ n ∧ n ≤ 0x7E then [c]
    else if n < 0x10000 then unitEscape n
    else
      let m := n - 0x10000
      unitEscape (0xD800 + m / 0x400) ++ unitEscape (0xDC00 + m % 0x400)

def pointText : CodePoint → List Char
  | .char c => charText c
  | .half n => unitEscape (CodePoint.half n).toNat

def quoted (t : Text) : String :=
  "\"" ++ String.ofList (t.points.flatMap pointText) ++ "\""

def newline (depth : Nat) : String := String.ofList ('\n' :: List.replicate (2 * depth) ' ')

def byName (ms : List (Text × String)) : List (Text × String) :=
  ms.mergeSort fun a b => a.1.precedes b.1

def enclosed (left right : String) (depth : Nat) (parts : List String) : String :=
  if parts.isEmpty then left ++ right
  else left ++ newline (depth + 1) ++ joinWith ("," ++ newline (depth + 1)) parts ++
    newline depth ++ right

mutual
def prettyAt (depth : Nat) : Json → String
  | .null => "null"
  | .bool b => if b then "true" else "false"
  | .int n => toString n
  | .double d => d.text layout
  | .str s => quoted s
  | .arr js => enclosed "[" "]" depth (prettyItems (depth + 1) js)
  | .obj ms => enclosed "\x7b" "\x7d" depth
      ((byName (prettyMembers (depth + 1) ms)).map fun (k, v) => quoted k ++ ": " ++ v)
termination_by structural j => j
def prettyItems (depth : Nat) : List Json → List String
  | [] => []
  | j :: js => prettyAt depth j :: prettyItems depth js
termination_by structural js => js
def prettyMembers (depth : Nat) : List (Text × Json) → List (Text × String)
  | [] => []
  | m :: ms => prettyMember depth m :: prettyMembers depth ms
termination_by structural ms => ms
def prettyMember (depth : Nat) : Text × Json → Text × String
  | (k, j) => (k, prettyAt depth j)
termination_by structural m => m
end

def pretty (j : Json) : String := prettyAt 0 j

mutual
def compact : Json → String
  | .null => "null"
  | .bool b => if b then "true" else "false"
  | .int n => toString n
  | .double d => d.text layout
  | .str s => quoted s
  | .arr js => "[" ++ joinWith "," (compactItems js) ++ "]"
  | .obj ms => "\x7b" ++ joinWith "," (compactMembers ms) ++ "\x7d"
termination_by structural j => j
def compactItems : List Json → List String
  | [] => []
  | j :: js => compact j :: compactItems js
termination_by structural js => js
def compactMembers : List (Text × Json) → List String
  | [] => []
  | m :: ms => compactMember m :: compactMembers ms
termination_by structural ms => ms
def compactMember : Text × Json → String
  | (k, j) => quoted k ++ ":" ++ compact j
termination_by structural m => m
end

end StrategyDesk.Json
