import StrategyDesk.Engine.Message
import StrategyDesk.Log

set_option autoImplicit false

namespace StrategyDesk.Engine

structure Terms where
  graph : Json
  markets : List Text
  maxPosition : Double
  paper : Bool
  privateKey : String
  safeAddress : String
  deriving DecidableEq, Repr

inductive Call where
  | activate (walletId strategyId : Int) (terms : Terms)
  | deactivate (walletId strategyId : Int)
  | kill (walletId strategyId : Int)
  | unkill (walletId strategyId : Int)
  | status
  deriving DecidableEq, Repr

namespace Call

def verb : Call → Verb
  | activate _ _ _ => .activate
  | deactivate _ _ => .deactivate
  | kill _ _ => .kill
  | unkill _ _ => .unkill
  | status => .status

def pair? : Call → Option (Int × Int)
  | activate w s _ | deactivate w s | kill w s | unkill w s => some (w, s)
  | status => none

def idMembers (walletId strategyId : Int) : Json.Members :=
  [("wallet_id", .int walletId), ("strategy_id", .int strategyId)]

def termMembers (t : Terms) : Json.Members :=
  [("graph", t.graph), ("markets", .arr (t.markets.map .str)),
    ("max_position_usdc", .double t.maxPosition), ("is_paper", .bool t.paper),
    ("private_key_enc", .str t.privateKey), ("safe_address", .str t.safeAddress)]

def message : Call → Message
  | activate w s t => ⟨.activate, idMembers w s ++ termMembers t⟩
  | deactivate w s => ⟨.deactivate, idMembers w s⟩
  | kill w s => ⟨.kill, idMembers w s⟩
  | unkill w s => ⟨.unkill, idMembers w s⟩
  | status => ⟨.status, []⟩

def payload (c : Call) : Json := c.message.payload

end Call

/-- What comes back from the engine: an answer, a failure of the transport, or anything else that
keeps the call from ending. -/
inductive Reply where
  | answered (status : Int) (body : Json)
  | unreachable (cause detail : String)
  | broken (detail : String)
  deriving DecidableEq, Repr

inductive Trouble where
  | refused (status : Int)
  | silent (cause : String)
  | broken (detail : String)
  deriving DecidableEq, Repr

namespace Reply

def succeeds : Reply → Bool
  | answered status _ => decide (200 ≤ status ∧ status < 300)
  | _ => false

def answer : Reply → Except Trouble Json
  | answered status body =>
    if 200 ≤ status ∧ status < 300 then .ok body else .error (.refused status)
  | unreachable cause _ => .error (.silent cause)
  | broken detail => .error (.broken detail)

/-- The failure of a call, with the status or the cause that it failed with. -/
def failureOf (c : Call) : Trouble → Failure
  | .refused status =>
    .engine ⟨c.verb.name, c.pair?.map Prod.fst, c.pair?.map Prod.snd, some status, ""⟩
  | .silent cause => .engine ⟨c.verb.name, c.pair?.map Prod.fst, c.pair?.map Prod.snd, none, cause⟩
  | .broken detail => .broken detail

def outcome (c : Call) (r : Reply) : Except Failure Json :=
  match r.answer with
  | .ok body => .ok body
  | .error t => .error (failureOf c t)

def log (m : Message) (r : Reply) : Log :=
  if r.succeeds then []
  else match r with
    | answered status _ => [⟨.warning, .engine,
        "Engine " ++ m.verb.name ++ " returned " ++ toString status ++ " " ++ m.pairText⟩]
    | unreachable _ detail => [⟨.warning, .engine,
        "Engine " ++ m.verb.name ++ " failed " ++ m.pairText ++ ": " ++ detail⟩]
    | broken _ => []

theorem outcome_isOk_iff {c : Call} {r : Reply} :
    (∃ body, r.outcome c = .ok body) ↔ r.succeeds = true := by
  cases r with
  | answered status body =>
    by_cases h : 200 ≤ status ∧ status < 300 <;>
      simp [outcome, answer, succeeds, h]
  | unreachable cause detail => simp [outcome, answer, succeeds]
  | broken detail => simp [outcome, answer, succeeds]

end Reply

structure Exchange where
  call : Call
  reply : Reply
  deriving DecidableEq, Repr

namespace Exchange

def succeeds (x : Exchange) : Bool := x.reply.succeeds

def log (x : Exchange) : Log := x.reply.log x.call.message

end Exchange

abbrev Behaviour (σ : Type) := σ → Call → Reply × σ

end StrategyDesk.Engine
