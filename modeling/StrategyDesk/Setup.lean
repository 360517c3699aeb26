import StrategyDesk.Generation.Provider
import StrategyDesk.Json.Spoken
import StrategyDesk.Number.Numeral

set_option autoImplicit false

namespace StrategyDesk

abbrev Environment := List (String × String)

namespace Environment

def get? : Environment → String → Option String
  | [], _ => none
  | (k, v) :: rest, name => if k = name then some v else get? rest name

def getOr (env : Environment) (name default : String) : String := (env.get? name).getD default

def filled? (env : Environment) (name : String) : Option String :=
  match env.get? name with
  | some v => if v.isEmpty then none else some v
  | none => none

def number (env : Environment) (name default : String) : Except Failure Double :=
  match Numeral.wideDouble? (env.getOr name default) with
  | some d => .ok d
  | none => .error (.crash .badSetting)

def integer (env : Environment) (name default : String) : Except Failure Int :=
  match Numeral.wideInt? (env.getOr name default) with
  | some n => .ok n
  | none => .error (.crash .badSetting)

def providerName (env : Environment) : String :=
  String.ofList (Text.lowerChars (env.getOr "AI_PROVIDER" Generation.Vendor.anthropic.name).toList)

end Environment

def missingKey (name : String) : String := "Missing " ++ name ++ " environment variable"

structure Setup where
  provider : Generation.Provider
  engineUrl : String
  engineTimeout : Double
  databaseUrl : String

namespace Setup
open Generation Environment

def vendor (env : Environment) : Except Failure Vendor :=
  let name := env.providerName
  let keyed (v : Vendor) : Except Failure Vendor :=
    if (env.filled? v.keyVariable).isSome then .ok v
    else .error (.badValue (missingKey v.keyVariable))
  if name = Vendor.anthropic.name then keyed .anthropic
  else if name = Vendor.openai.name then keyed .openai
  else .error (.badValue
    ("Invalid AI_PROVIDER: " ++ name ++ ". Must be 'openai' or 'anthropic'"))

def read (env : Environment) : Except Failure Setup := do
  let timeout ← env.number "GENERATION_TIMEOUT_SECS" "30"
  let maxTokens ← env.integer "GENERATION_MAX_TOKENS" "1024"
  let engineTimeout ← env.number "ENGINE_TIMEOUT_SECS" "10"
  let v ← vendor env
  return {
    provider := ⟨v, modelOr v (namedModel (env.get? "AI_MODEL")), .int maxTokens, .double timeout⟩
    engineUrl := env.getOr "ENGINE_URL" "http://localhost:3001"
    engineTimeout
    databaseUrl := env.getOr "DATABASE_URL" "sqlite:///./strategies.db" }

def status (s : Setup) : Json :=
  .obj [("status", .str "running"), ("provider", .str s.provider.vendor.name),
    ("model", s.provider.model), ("engine_url", .str s.engineUrl)]

def rule : String := String.ofList (List.replicate 60 '=')

def banner (s : Setup) : String :=
  String.join (([rule, "Strategy control plane", rule,
    "Provider: " ++ s.provider.vendor.name.toUpper, "Model: " ++ s.provider.model.spoken,
    "Engine: " ++ s.engineUrl ++ " (timeout " ++ s.engineTimeout.text Json.spokenLayout ++ "s)",
    rule]).map (· ++ "\n"))

end Setup

end StrategyDesk
