import StrategyDesk.Failure
import StrategyDesk.Generation.Prompt
import StrategyDesk.Log
import StrategyDesk.Text.Case

set_option autoImplicit false

namespace StrategyDesk.Generation

inductive Vendor where
  | anthropic | openai
  deriving DecidableEq, Repr

namespace Vendor

def name : Vendor → String
  | .anthropic => "anthropic"
  | .openai => "openai"

def title : Vendor → String
  | .anthropic => "Anthropic"
  | .openai => "OpenAI"

def defaultModel : Vendor → String
  | .anthropic => "claude-sonnet-4-5"
  | .openai => "gpt-5.2"

def keyVariable : Vendor → String
  | .anthropic => "ANTHROPIC_API_KEY"
  | .openai => "OPENAI_API_KEY"

def ofName? (s : String) : Option Vendor :=
  let lower := String.ofList (Text.lowerChars s.toList)
  if lower = "anthropic" then some .anthropic
  else if lower = "openai" then some .openai
  else none

end Vendor

def defaultMaxTokens : Json := .int 1024

def defaultTimeout : Json := .double (.ofInt 30)

structure Provider where
  vendor : Vendor
  model : Json
  maxTokens : Json
  timeout : Json
  deriving Repr

def modelOr (v : Vendor) (model : Json) : Json :=
  if model.isEmpty then .str v.defaultModel else model

def namedModel (setting : Option String) : Json := (setting.map Json.str).getD .null

def Provider.choose (name : String) (model maxTokens timeout : Json) :
    Except Failure Provider :=
  match Vendor.ofName? name with
  | some v => .ok ⟨v, modelOr v model, maxTokens, timeout⟩
  | none => .error (.badValue
      ("Invalid AI provider: " ++ name ++ ". Must be 'openai' or 'anthropic'"))

structure Question where
  system : String
  user : String
  deriving DecidableEq, Repr

def Question.about (description : String) : Question := ⟨systemPrompt, description⟩

inductive Completion where
  | answered (t : Option String)
  | refused (status : Int)
  | unreachable (cause detail : String)
  | broken (detail : String)
  deriving DecidableEq, Repr

namespace Completion

def outcome : Completion → Except Failure String
  | .answered t => .ok (t.getD "")
  | .refused status => .error (.provider (some status) "")
  | .unreachable cause _ => .error (.provider none cause)
  | .broken m => .error (.broken m)

def log (v : Vendor) : Completion → Log
  | .refused status =>
    [⟨.warning, .provider, v.title ++ " request failed with status " ++ toString status⟩]
  | .unreachable _ detail => [⟨.warning, .provider, v.title ++ " request failed: " ++ detail⟩]
  | _ => []

end Completion

end StrategyDesk.Generation
