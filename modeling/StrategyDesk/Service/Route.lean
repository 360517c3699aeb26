import StrategyDesk.Net.Path

set_option autoImplicit false

namespace StrategyDesk.Service

inductive Endpoint where
  | status | engineStatus | validate | generate | create | update | delete
  | activate | deactivate | kill | unkill | assign | unassign | deleteWallet
  deriving DecidableEq, Repr

inductive Segment where
  | word (text : String)
  | id (name : String)
  deriving DecidableEq, Repr

abbrev PathIds := List (String × String)

namespace Endpoint

def all : List Endpoint :=
  [status, engineStatus, validate, generate, create, update, delete, activate, deactivate, kill,
    unkill, assign, unassign, deleteWallet]

def method : Endpoint → String
  | status | engineStatus => "GET"
  | update => "PUT"
  | delete | unassign | deleteWallet => "DELETE"
  | _ => "POST"

def strategies : Segment := .word "strategies"

def wallets : Segment := .word "wallets"

def strategyId : Segment := .id "strategy_id"

def walletId : Segment := .id "wallet_id"

def pattern : Endpoint → List Segment
  | status => [.word "status"]
  | engineStatus => [.word "engine", .word "status"]
  | validate => [strategies, .word "validate"]
  | generate => [strategies, .word "generate"]
  | create => [strategies]
  | update | delete => [strategies, strategyId]
  | activate => [strategies, strategyId, .word "activate"]
  | deactivate => [strategies, strategyId, .word "deactivate"]
  | kill => [strategies, strategyId, .word "kill"]
  | unkill => [strategies, strategyId, .word "unkill"]
  | assign => [wallets, walletId, strategies]
  | unassign => [wallets, walletId, strategies, strategyId]
  | deleteWallet => [wallets, walletId]

def hasBody : Endpoint → Bool
  | validate | generate | create | update | assign => true
  | _ => false

end Endpoint

/-- Whether a part of a path is a word; a line feed may follow the word at the end of a path. -/
def isWord (w s : String) (rest : List String) : Bool :=
  s == w || (rest.isEmpty && s == w ++ "\n")

/-- The ids in a path that fits a pattern; an id is a part that is not empty. -/
def fits : List Segment → List String → Option PathIds
  | [], [] => some []
  | .word w :: ps, s :: ss => if isWord w s ss then fits ps ss else none
  | .id name :: ps, s :: ss => if s.isEmpty then none else (fits ps ss).map ((name, s) :: ·)
  | _, _ => none

inductive Target where
  | endpoint (e : Endpoint) (ids : PathIds)
  | otherMethod
  | unknown
  deriving Repr

def candidates (segments : List String) : List (Endpoint × PathIds) :=
  Endpoint.all.filterMap fun e => (fits e.pattern segments).map fun ids => (e, ids)

def targetOf (method : String) (path : List Char) : Target :=
  match candidates (Net.segments path) with
  | [] => .unknown
  | cs =>
    match cs.find? fun c => c.1.method == method with
    | some (e, ids) => .endpoint e ids
    | none => .otherMethod

/-- The target of a request; one that is unknown is looked for without slashes at the end. -/
def route (method : String) (path : List Char) : Target :=
  match targetOf method path with
  | .unknown =>
    if path.getLast? = some '/' then targetOf method (Text.trimEnd (· == '/') path) else .unknown
  | t => t

end StrategyDesk.Service
