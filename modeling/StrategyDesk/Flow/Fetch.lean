import StrategyDesk.Failure
import StrategyDesk.Flow.Model
import StrategyDesk.Net.Host

/-!
Safety of the nodes that make the engine poll a URL. Unlike the check of forms, this one lists
every fault: each node is judged on its own, and no fault hides another node's. Only a graph with
too many such nodes has the one fault that it has too many.
-/

set_option autoImplicit false

namespace StrategyDesk.Flow
open Json

def fetchType : String := "api_fetch"

def maxFetchNodes : Nat := 5

def minInterval : Int := 30

def defaultInterval : Int := 60

inductive FetchFault where
  | noUrl
  | insecure
  | privateHost
  | interval
  deriving DecidableEq, Repr

namespace FetchFault

def setting : FetchFault → String
  | .interval => "interval_secs"
  | _ => "url"

def message : FetchFault → String
  | .noUrl => "API Fetch nodes require a URL."
  | .insecure => "API Fetch URLs must use HTTPS."
  | .privateHost => "API Fetch URLs must not point to private or internal addresses."
  | .interval => "API Fetch interval must be at least " ++ toString minInterval ++ " seconds."

def report (i : Nat) (f : FetchFault) : Violation :=
  ⟨"graph.nodes." ++ toString i ++ ".data." ++ f.setting, f.message⟩

end FetchFault

def tooManyFetches : Violation :=
  ⟨"graph.nodes",
    "A strategy may contain at most " ++ toString maxFetchNodes ++ " API Fetch nodes."⟩

/-- The whole seconds between two polls, unless the setting is no finite number. -/
def interval? : Json → Option Int
  | .null => some defaultInterval
  | .int n => (Double.ofInt? n).bind Double.truncate?
  | .double d => d.truncate?
  | .str (.plain s) => (Numeral.wideDouble? s).bind Double.truncate?
  | _ => none

def isInterval (j : Json) : Bool :=
  match interval? j with
  | some secs => decide (minInterval ≤ secs)
  | none => false

/-- The URL of the settings without blanks around it; anything but a text counts as empty. -/
def urlOf (data : Members) : List Char :=
  match look data "url" with
  | .str s => Text.trim Text.blank s.shown.toList
  | _ => []

def secureScheme : List Char := "https://".toList

def settingFaults (url : List Char) (interval : Json) : List FetchFault :=
  (if secureScheme.isPrefixOf url then [] else [.insecure]) ++
    (if Net.isPrivate url then [.privateHost] else []) ++
    (if isInterval interval then [] else [.interval])

def dataFaults (data : Members) : List FetchFault :=
  if (urlOf data).isEmpty then [.noUrl]
  else settingFaults (urlOf data) (look data "interval_secs")

/-- Every fault of a node that polls; empty settings of any kind count as none. -/
def nodeFaults (data : Json) : List FetchFault :=
  match data with
  | .obj ms => dataFaults ms
  | j => if j.isEmpty then dataFaults [] else [.noUrl]

def violations (settings : List Json) : List Violation :=
  if maxFetchNodes < settings.length then [tooManyFetches]
  else (settings.mapIdx fun i data => (nodeFaults data).map (FetchFault.report i)).flatten

def fetchSettings? : Json → Option Json
  | .obj ms =>
    match look ms "type" with
    | .str (.plain t) => if t == fetchType then some (look ms "data") else none
    | _ => none
  | _ => none

/-- The settings of every polling node of a raw graph; a number or `true` holds no nodes. -/
def rawSettings (nodes : Json) : Except Crash (List Json) :=
  match nodes with
  | .arr js => .ok (js.filterMap fetchSettings?)
  | .str _ | .obj _ => .ok []
  | j => if j.isEmpty then .ok [] else .error .wrongKind

def rawViolations : Json → Except Crash (List Violation)
  | .obj ms =>
    match look ms "mode" with
    | .str (.plain "node") => (rawSettings (look ms "nodes")).map violations
    | _ => .ok []
  | _ => .ok []

def fetchViolations (f : Flow) : List Violation :=
  violations ((f.nodesOfType fetchType).map fun n => look n.members "data")

def ensureSafe (g : Json) : Except Failure Json :=
  match rawViolations g with
  | .error c => .error (.crash c)
  | .ok [] => .ok g
  | .ok vs => .error (.insecure vs)

end StrategyDesk.Flow
