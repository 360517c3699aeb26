import StrategyDesk.Arguments
import StrategyDesk.Json.Spoken

set_option autoImplicit false

namespace StrategyDesk
open Json

namespace Notice

/-- The kinds of failures; some stand for all that have something in common. -/
inductive Kind where
  | desk
  | graph | structural | semantic | insecure
  | generation | provider | notJson | rejected
  | engine
  | precondition | walletNotDeployed | walletDeploying
  | strategyNotFound | walletNotFound | assignmentNotFound
  deriving DecidableEq, Repr

namespace Kind

def required : Kind → List Text
  | desk | generation | precondition => []
  | graph | structural | semantic => ["path", "message"]
  | insecure => ["errors"]
  | provider => ["status"]
  | notJson => ["raw"]
  | rejected => ["reason"]
  | engine => ["operation"]
  | walletNotDeployed | walletDeploying | walletNotFound => ["wallet_id"]
  | strategyNotFound => ["strategy_id"]
  | assignmentNotFound => ["wallet_id", "strategy_id"]

def defaults : Kind → Members
  | provider => [("detail", .str "")]
  | rejected => [("path", .null)]
  | engine => [("wallet_id", .null), ("strategy_id", .null), ("status", .null), ("detail", .str "")]
  | _ => []

end Kind

def textOrEmpty (j : Json) : String := if j.isEmpty then "" else j.spoken

def violationText : Json → Except Crash String
  | .obj ms =>
    match find? ms "path", find? ms "message" with
    | some p, some m => .ok (Sentence.violation p.spoken m.spoken)
    | _, _ => .error .noMember
  | _ => .error .wrongKind

def violationTexts : Json → Except Crash (List String)
  | .arr js => js.mapM violationText
  | .str s => if s.isEmpty then .ok [] else .error .wrongKind
  | .obj ms => if ms.isEmpty then .ok [] else .error .wrongKind
  | _ => .error .wrongKind

def snippetOf : Json → Except Crash Json
  | .str s => .ok (.str (.ofPoints (s.points.take Failure.snippetLength)))
  | .arr js => .ok (.arr (js.take Failure.snippetLength))
  | _ => .error .wrongKind

def engineSentence (ms : Members) : String :=
  let wallet := look ms "wallet_id"
  let strategy := look ms "strategy_id"
  let status := look ms "status"
  Sentence.engineFailed (look ms "operation").spoken
    (if wallet.isNull || strategy.isNull then ""
      else Sentence.pair wallet.spoken strategy.spoken)
    (if status.isNull then Sentence.silence (textOrEmpty (look ms "detail"))
      else Sentence.refusal status.spoken)

def providerSentence (ms : Members) : String :=
  let status := look ms "status"
  if status.isNull then Sentence.providerSilent (textOrEmpty (look ms "detail"))
  else Sentence.providerRefused status.spoken

def sentence (k : Kind) (ms : Members) : Except Crash String :=
  let text (key : Text) : String := (look ms key).spoken
  match k with
  | .desk | .generation | .precondition => .ok ""
  | .graph | .structural | .semantic => .ok (Sentence.violation (text "path") (text "message"))
  | .insecure => (violationTexts (look ms "errors")).map Sentence.unsafeSources
  | .provider => .ok (providerSentence ms)
  | .notJson => .ok (Sentence.answerNotJson (text "snippet"))
  | .rejected => .ok (Sentence.formRejected (text "reason"))
  | .engine => .ok (engineSentence ms)
  | .walletNotDeployed => .ok (Sentence.walletNotDeployed (text "wallet_id"))
  | .walletDeploying => .ok Sentence.walletDeploying
  | .strategyNotFound => .ok (Sentence.strategyNotFound (text "strategy_id"))
  | .walletNotFound => .ok (Sentence.walletNotFound (text "wallet_id"))
  | .assignmentNotFound =>
    .ok (Sentence.assignmentNotFound (text "wallet_id") (text "strategy_id"))

/-- The values that a notice keeps: of an answer the snippet alone. -/
def kept (k : Kind) (ms : Members) : Except Crash Members :=
  match k with
  | .notJson => (snippetOf (look ms "raw")).map fun s => [("snippet", s)]
  | _ => .ok ms

/-- The values that a notice shows: the detail of a request to a provider is in its sentence
only. -/
def shown (k : Kind) (ms : Members) : Members :=
  match k with
  | .provider => ms.filter fun m => m.1 != "detail"
  | _ => ms

end Notice

structure Notice where
  kind : Notice.Kind
  parts : Members
  message : String

namespace Notice

def ofArguments (k : Kind) (given : Members) : Except Crash Notice := do
  let ms ← kept k (← Arguments.fill k.required k.defaults given)
  return ⟨k, shown k ms, ← sentence k ms⟩

def ofEngineCall (operation : String) (walletId strategyId : Json) (status : Option Int)
    (cause : String) : Notice :=
  let ms : Members := [("operation", .str operation), ("wallet_id", walletId),
    ("strategy_id", strategyId), ("status", (status.map Json.int).getD .null),
    ("detail", .str cause)]
  ⟨.engine, ms, engineSentence ms⟩

end Notice

namespace Failure

def violationJson (v : Violation) : Json :=
  .obj [("path", .str v.path), ("message", .str v.message)]

def optionalId : Option Int → Json
  | some n => .int n
  | none => .null

def kindOf : ViolationKind → Notice.Kind
  | .structural => .structural
  | .semantic => .semantic

def notice? (f : Failure) : Option Notice :=
  match f with
  | .graph e => some ⟨kindOf e.kind,
      [("path", .str e.path), ("message", .str e.message)], f.message⟩
  | .insecure vs => some ⟨.insecure, [("errors", .arr (vs.map violationJson))], f.message⟩
  | .provider status _ => some ⟨.provider, [("status", optionalId status)], f.message⟩
  | .notJson snippet => some ⟨.notJson, [("snippet", .str snippet)], f.message⟩
  | .rejected reason path => some ⟨.rejected,
      [("reason", .str reason), ("path", (path.map Json.str).getD .null)], f.message⟩
  | .engine e => some (.ofEngineCall e.operation (optionalId e.walletId)
      (optionalId e.strategyId) e.status e.detail)
  | .walletNotDeployed w => some ⟨.walletNotDeployed, [("wallet_id", .int w)], f.message⟩
  | .walletDeploying w => some ⟨.walletDeploying, [("wallet_id", .int w)], f.message⟩
  | .walletNotFound w => some ⟨.walletNotFound, [("wallet_id", .int w)], f.message⟩
  | .strategyNotFound s => some ⟨.strategyNotFound, [("strategy_id", .int s)], f.message⟩
  | .assignmentNotFound w s => some ⟨.assignmentNotFound,
      [("wallet_id", .int w), ("strategy_id", .int s)], f.message⟩
  | .badValue _ | .broken _ | .crash _ => none

end Failure

end StrategyDesk
