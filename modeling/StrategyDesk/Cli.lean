import StrategyDesk.Generation.Generate
import StrategyDesk.Json.Printer
import StrategyDesk.Notice
import StrategyDesk.Setup

set_option autoImplicit false

namespace StrategyDesk.Cli
open Generation

inductive Command where
  | generate (description : String)
  | validate (path : String)
  | parse (path : String)
  deriving DecidableEq, Repr

/-- A negative decimal numeral: a point needs digits after it, but none before it. -/
def isNegativeNumeral : List Char → Bool
  | '-' :: cs =>
    let isDigit (c : Char) : Bool := (Text.decimalValue? c).isSome
    let (whole, rest) := cs.span isDigit
    match rest with
    | [] => !whole.isEmpty
    | '.' :: fraction => !fraction.isEmpty && fraction.all isDigit
    | _ => false
  | _ => false

def withoutLineEnd (cs : List Char) : List Char :=
  if cs.getLast? = some '\n' then cs.dropLast else cs

def helpOption : List Char := "--help".toList

/-- Whether an argument asks for help with a value joined on: in the short form right after the
letter, in the long form, which may be cut short, after an equals sign. -/
def isJoinedHelp : List Char → Bool
  | '-' :: 'h' :: _ => true
  | '-' :: '-' :: cs =>
    let name := ('-' :: '-' :: cs).takeWhile (· ≠ '=')
    cs.contains '=' && name.isPrefixOf helpOption
  | _ => false

/-- Whether an argument is an option; a hyphen alone, a negative numeral and a text with a space
are none, unless they ask for help. -/
def isOption (arg : String) : Bool :=
  match arg.toList with
  | '-' :: c :: cs =>
    isJoinedHelp ('-' :: c :: cs) ||
      (!(isNegativeNumeral (withoutLineEnd ('-' :: c :: cs))) && !(c :: cs).contains ' ')
  | _ => false

/-- The arguments that are no options; after two hyphens every argument is one. There are no
options besides, so any other is wrong. -/
def operands? : List String → Option (List String)
  | [] => some []
  | arg :: args =>
    if arg = "--" then some args
    else if isOption arg then none
    else (operands? args).map (arg :: ·)

def command? : List String → Option Command
  | name :: args =>
    match name, operands? args with
    | "generate", some [d] => some (.generate d)
    | "validate", some [p] => some (.validate p)
    | "parse", some [p] => some (.parse p)
    | _, _ => none
  | [] => none

structure Run where
  exit : Nat
  stdout : String
  stderr : String
  asked : List (Provider × Question)

def wrongUsage : Run := ⟨2, "", "usage: generate DESCRIPTION | validate PATH | parse PATH\n", []⟩

def printed (exit : Nat) (members : Json.Members) : Run :=
  ⟨exit, (Json.obj members).pretty ++ "\n", "", []⟩

def plainLines : List Char → List Char
  | '\r' :: '\n' :: cs => '\n' :: plainLines cs
  | '\r' :: cs => '\n' :: plainLines cs
  | c :: cs => c :: plainLines cs
  | [] => []

def pathParts (path : List Char) : List (List Char) :=
  (Text.splitOn '/' path).filter fun part => !part.isEmpty && part != ['.']

def partSize (part : List Char) : Nat := (String.ofList part).utf8ByteSize

def pathSize (parts : List (List Char)) : Nat :=
  parts.foldl (fun size part => size + partSize part + 1) 0

def maxPart : Nat := 255

def pathBound : Nat := 4096

/-- Why a path names no file, whatever files there are: it has a zero in it, it is too long, or it
names the directory that it starts from or one above. -/
def pathFault? (path : String) : Option Crash :=
  let parts := pathParts path.toList
  if path.toList.contains '\x00' then some .badPath
  else if pathBound ≤ pathSize parts then some .longPath
  else
    match parts.dropWhile (· == ['.', '.']) with
    | [] => some .directory
    | part :: _ => if maxPart < partSize part then some .longPath else none

def textOfFile (bytes : ByteArray) : Except Failure (List Char) :=
  match String.fromUTF8? bytes with
  | some s => .ok (plainLines s.toList)
  | none => .error (.crash .notText)

def fileText (file : String → Option ByteArray) (path : String) : Except Failure (List Char) :=
  match pathFault? path, file path with
  | some c, _ => .error (.crash c)
  | none, none => .error (.crash .noFile)
  | none, some bytes => textOfFile bytes

def fileGraph (room : Room) (text : List Char) : Except Failure Json :=
  match Json.readChars room.levels text with
  | .ok g => .ok g
  | .error .longNumeral => .error (.crash .longNumeral)
  | .error .tooDeep => .error (.crash .tooDeep)
  | .error (.mistake _) => .error (.crash .notJson)

/-- The verdict on a graph; only faults of the graph are part of it. -/
def verdict (room : Room) (ids : Form.Supply) (g : Json) : Except Failure Run :=
  match Graph.accept room ids g with
  | .ok a => .ok (printed 0 [("valid", .bool true), ("graph", a.graph)])
  | .error (.insecure vs) =>
    .ok (printed 1 [("valid", .bool false), ("errors", .arr (vs.map Failure.violationJson))])
  | .error (.graph e) => .ok (printed 1
      [("valid", .bool false), ("errors", .arr [Failure.violationJson ⟨e.path, e.message⟩])])
  | .error f => .error f

def isReported : Failure → Bool
  | .provider _ _ | .notJson _ | .rejected _ _ | .badValue _ => true
  | _ => false

def report (r : Except Failure (Json × Form.Supply)) : Except Failure Run :=
  match r with
  | .ok (g, _) => .ok (printed 0 [("success", .bool true), ("graph", g)])
  | .error f =>
    if isReported f then .ok (printed 1 [("success", .bool false), ("error", .str f.message)])
    else .error f

def keyVariable (env : Environment) : String :=
  if env.providerName = Vendor.anthropic.name then Vendor.anthropic.keyVariable
  else Vendor.openai.keyVariable

def provider (env : Environment) : Except Failure Provider := do
  let timeout ← env.number "GENERATION_TIMEOUT_SECS" "30"
  Provider.choose env.providerName (namedModel (env.get? "AI_MODEL")) defaultMaxTokens
    (.double timeout)

def generate (room : Room) (ids : Form.Supply) (p : Provider) (ask : Question → Completion)
    (description : String) : Except Failure Run :=
  match checkDescription description with
  | .error f => report (.error f)
  | .ok d =>
    let q := Question.about d
    (report (Generation.generate room ids (ask q))).map fun r => { r with asked := [(p, q)] }

def execute (room : Room) (ids : Form.Supply) (env : Environment)
    (file : String → Option ByteArray) (ask : Vendor → Question → Completion) :
    Command → Except Failure Run
  | .generate description =>
    if (env.filled? (keyVariable env)).isNone then
      .ok ⟨2, "", missingKey (keyVariable env) ++ "\n", []⟩
    else do
      let p ← provider env
      generate room ids p (ask p.vendor) description
  | .validate path => do
    let text ← fileText file path
    verdict room ids (← fileGraph room text)
  | .parse path => do
    let text ← fileText file path
    report (parseAnswer room ids text)

def run (room : Room) (ids : Form.Supply) (env : Environment)
    (file : String → Option ByteArray) (ask : Vendor → Question → Completion)
    (args : List String) : Except Failure Run :=
  match command? args with
  | some c => execute room ids env file ask c
  | none => .ok wrongUsage

end StrategyDesk.Cli
