import StrategyDesk.Json.Basic
import StrategyDesk.Number.Shortest
import StrategyDesk.Text.Quoted

set_option autoImplicit false

namespace StrategyDesk.Json
open Text

def spokenLayout : Double.Layout := ⟨-4, 16, 2, "inf", "nan"⟩

mutual
/-- A value as it stands inside another one. -/
def told : Json → String
  | .null => "None"
  | .bool b => if b then "True" else "False"
  | .int n => toString n
  | .double d => d.text spokenLayout
  | .str s => inQuotes s
  | .arr items => "[" ++ joinWith ", " (toldItems items) ++ "]"
  | .obj members => "\x7b" ++ joinWith ", " (toldMembers members) ++ "\x7d"
termination_by structural j => j
def toldItems : List Json → List String
  | [] => []
  | j :: js => told j :: toldItems js
termination_by structural js => js
def toldMembers : List (Text × Json) → List String
  | [] => []
  | m :: ms => toldMember m :: toldMembers ms
termination_by structural ms => ms
def toldMember : Text × Json → String
  | (k, j) => inQuotes k ++ ": " ++ told j
termination_by structural m => m
end

def spoken : Json → String
  | .str s => s.shown
  | j => told j

theorem spoken_int (n : Int) : (Json.int n).spoken = toString n := rfl

theorem spoken_double (d : Double) : (Json.double d).spoken = d.text spokenLayout := rfl

example : (Json.arr [.str "a", .null, .bool true]).spoken = "['a', None, True]" := by
  decide +kernel

end StrategyDesk.Json
