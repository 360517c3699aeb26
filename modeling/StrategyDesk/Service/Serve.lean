import StrategyDesk.Generation.Generate
import StrategyDesk.Json.Reader
import StrategyDesk.Service.Command
import StrategyDesk.Service.Response
import StrategyDesk.Setup

/-!
Serving requests. A request is routed, its body and ids are read, and the command that they make
is carried out at the desk; what cannot be routed or read never reaches it. The world outside is
the engine and the provider, which answer from a state of their own.
-/

set_option autoImplicit false

namespace StrategyDesk.Service
open Generation

structure Request where
  method : String
  target : String
  body : Option ByteArray

/-- How the engine and the provider answer, the room that calls have, and how graphs are made ready
for responses. There is room for the body of a request and its graph, for an answer of the provider,
and for the values from outside that a response shows: the parts of a request with mistakes and the
state of the engine. -/
structure Outside (σ : Type) where
  engine : Engine.Behaviour σ
  provider : σ → Question → Completion × σ
  requests : Room
  answers : Room
  mistaken : Nat
  passed : Nat
  dumper : Json.Dumper

structure Served (σ : Type) where
  response : Response
  desk : Desk σ
  sent : List Engine.Exchange
  asked : List Question
  log : Log

variable {σ : Type}

def Served.only (d : Desk σ) (r : Response) : Served σ := ⟨r, d, [], [], []⟩

inductive Refusal where
  | unknown
  | otherMethod
  | unreadableBody
  | mistakes (first : Detail) (rest : List Detail)

namespace Refusal

/-- The response to a request without a command, where a value that it repeats has a height. -/
def response (height : Nat) : Refusal → Response
  | unknown => .notFound
  | otherMethod => .otherMethod
  | unreadableBody => .unreadableBody
  | mistakes d ds => .ofDetails height (d :: ds)

end Refusal

/-- The mistake in a body that is no JSON text, at the number of characters before it. -/
def bodyMistake (position : Nat) : Detail := ⟨[.key "body", .index position], .notJson, .obj []⟩

def readBodyText (levels : Nat) (text : List CodePoint) : Except Refusal Json :=
  match Json.readPoints levels text with
  | .ok j => .ok j
  | .error (.mistake left) => .error (.mistakes (bodyMistake (text.length - left)) [])
  | .error .longNumeral | .error .tooDeep => .error .unreadableBody

def readBody (levels : Nat) (body : Option ByteArray) : Except Refusal (Option Json) :=
  match body with
  | none => .ok none
  | some bytes =>
    if bytes.isEmpty then .ok none
    else match Text.textOf? bytes with
      | some text => (readBodyText levels text).map some
      | none => .error .unreadableBody

def commandOf (levels : Nat) (r : Request) : Except Refusal Command :=
  match route r.method (Net.path r.target) with
  | .unknown => .error .unknown
  | .otherMethod => .error .otherMethod
  | .endpoint e ids => do
    let body ← if e.hasBody then readBody levels r.body else .ok none
    match e.command ids body with
    | .value c => .ok c
    | .faulty d ds => .error (.mistakes d ds)

def operate (w : Outside σ) (d : Desk σ) (o : Operation) : Served σ :=
  let ending := o.run w.engine d
  match ending.result with
  | .ok r => ⟨.ofResult w.dumper o r, ending.desk, ending.sent, [], ending.log⟩
  | .error f => ⟨.ofFailure f, ending.desk, ending.sent, [],
      ending.log ++ Response.failureLog f⟩

def validate (w : Outside σ) (d : Desk σ) (g : Json) : Served σ :=
  let log := Graph.acceptLog w.requests d.ids g
  match Graph.accept w.requests d.ids g with
  | .error f => ⟨.ofFailure f, d, [], [], log⟩
  | .ok a => ⟨.withGraph w.dumper 200 a.graph fun g => [("valid", .bool true), ("graph", g)],
      { d with ids := a.next }, [], [], log⟩

def generate (s : Setup) (w : Outside σ) (d : Desk σ) (description : String) : Served σ :=
  let q := Question.about description
  let (completion, outside) := w.provider d.engine q
  let d := { d with engine := outside }
  let log := generateLog s.provider.vendor w.answers d.ids completion
  match Generation.generate w.answers d.ids completion with
  | .error f => ⟨.ofFailure f, d, [], [q], log⟩
  | .ok (g, next) => ⟨.withGraph w.dumper 200 g fun g => [("graph", g)],
      { d with ids := next }, [], [q], log⟩

def engineStatus (w : Outside σ) (d : Desk σ) : Served σ :=
  let (reply, outside) := w.engine d.engine .status
  let exchange : Engine.Exchange := ⟨.status, reply⟩
  let d := { d with engine := outside }
  match reply.outcome .status with
  | .ok body => ⟨.plain w.passed 200 body, d, [exchange], [], exchange.log⟩
  | .error f => ⟨.ofFailure f, d, [exchange], [], exchange.log ++ Response.failureLog f⟩

def perform (s : Setup) (w : Outside σ) (d : Desk σ) : Command → Served σ
  | .status => .only d (.ofJson 200 s.status)
  | .engineStatus => engineStatus w d
  | .validate g => validate w d g
  | .generate description => generate s w d description
  | .operate o => operate w d o

def serve (s : Setup) (w : Outside σ) (d : Desk σ) (r : Request) : Served σ :=
  match commandOf w.requests.levels r with
  | .error x => .only d ((x.response w.mistaken).forMethod r.method)
  | .ok c => perform s w d c

end StrategyDesk.Service
