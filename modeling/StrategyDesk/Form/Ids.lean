import StrategyDesk.Failure
import StrategyDesk.Form.Supply
import StrategyDesk.Json.Extent
import StrategyDesk.Json.Sameness
import StrategyDesk.Json.Spoken

/-!
Ids of condition groups and rules. Every group and rule without one is given the next id of a
supply, a group before its rules and its rules before the next group; ids that are there stay. The
graph may be an object, or pairs of a name and a value of which a later pair counts for more.
-/

set_option autoImplicit false

namespace StrategyDesk.Form
open Json Text

def lacksId (ms : Members) : Bool := (look ms "id").isEmpty

/-- Gives the next id to members without one, and says which ids are left. -/
def giveId (next : Supply) (ms : Members) : Members × Supply :=
  if lacksId ms then (put ms "id" (.str next.first), next.rest) else (ms, next)

/-- What comes of running through a value that is no list: empty texts and objects hold nothing,
and the characters and names that others hold have no members. -/
def runThrough (j : Json) : Except Crash Unit :=
  match j with
  | .str s => if s.isEmpty then .ok () else .error .noOperation
  | .obj ms => if ms.isEmpty then .ok () else .error .noOperation
  | .arr js => if js.isEmpty then .ok () else .error .noOperation
  | _ => .error .wrongKind

def ruleWithId (next : Supply) : Json → Except Crash (Json × Supply)
  | .obj ms => let (ms, next) := giveId next ms; .ok (.obj ms, next)
  | _ => .error .noOperation

def throughItems (step : Supply → Json → Except Crash (Json × Supply)) (next : Supply) :
    List Json → Except Crash (List Json × Supply)
  | [] => .ok ([], next)
  | j :: js =>
    match step next j with
    | .error c => .error c
    | .ok (j, next) =>
      match throughItems step next js with
      | .error c => .error c
      | .ok (js, next) => .ok (j :: js, next)

def throughMember (step : Supply → Json → Except Crash (Json × Supply)) (key : String)
    (next : Supply) (ms : Members) : Except Crash (Members × Supply) :=
  match find? ms key with
  | none => .ok (ms, next)
  | some (.arr js) =>
    match throughItems step next js with
    | .error c => .error c
    | .ok (js, next) => .ok (put ms key (.arr js), next)
  | some j =>
    match runThrough j with
    | .error c => .error c
    | .ok () => .ok (ms, next)

def groupWithIds (next : Supply) : Json → Except Crash (Json × Supply)
  | .obj ms =>
    let (ms, next) := giveId next ms
    match throughMember ruleWithId "rules" next ms with
    | .error c => .error c
    | .ok (ms, next) => .ok (.obj ms, next)
  | _ => .error .noOperation

/-- A name and a value, from anything that holds exactly two things. -/
def pair : Json → Except Crash (Json × Json)
  | .arr [k, v] => .ok (k, v)
  | .obj [(k, _), (l, _)] => .ok (.str k, .str l)
  | .str s =>
    match s.points with
    | [k, v] => .ok (.str (.ofPoints [k]), .str (.ofPoints [v]))
    | _ => .error .badSetting
  | .arr _ | .obj _ => .error .badSetting
  | _ => .error .wrongKind

/-- Values by names of any kind; a name that is the same as an earlier one stands for it. -/
def putPair : List (Json × Json) → Json × Json → List (Json × Json)
  | [], p => [p]
  | (k, v) :: ps, p => if same k p.1 then (k, p.2) :: ps else (k, v) :: putPair ps p

def isName : Json → Bool
  | .arr _ | .obj _ => false
  | _ => true

def gatherPairs (ps : List (Json × Json)) : List Json → Except Crash (List (Json × Json))
  | [] => .ok ps
  | j :: js => do
    let p ← pair j
    if isName p.1 then gatherPairs (putPair ps p) js else .error .wrongKind

def nameText : Json → Text
  | .str t => t
  | j => j.spoken

def membersOfPairs (ps : List (Json × Json)) : Members :=
  ps.foldl (fun ms p => put ms (nameText p.1) p.2) []

def asMembers : Json → Except Crash Members
  | .obj ms => .ok ms
  | .arr js => (gatherPairs [] js).map membersOfPairs
  | .str s => if s.isEmpty then .ok [] else .error .badSetting
  | _ => .error .wrongKind

def membersWithIds (next : Supply) (ms : Members) : Except Crash (Members × Supply) :=
  throughMember groupWithIds "conditions" next ms

def withIds (room : Room) (next : Supply) (g : Json) : Except Crash (Json × Supply) := do
  let ms ← asMembers g
  if room.height < (Json.obj ms).height then .error .tooDeep
  else
    let (ms, next) ← membersWithIds next ms
    return (.obj ms, next)

end StrategyDesk.Form
