import StrategyDesk.Text.Blank

set_option autoImplicit false

namespace StrategyDesk.Sentence

def violation (path message : String) : String := path ++ ": " ++ message

def unsafeSources (violations : List String) : String :=
  "Unsafe node graph: " ++ Text.joinWith "; " violations

def providerRefused (status : String) : String :=
  "AI generation failed with status " ++ status ++ "."

def providerSilent (detail : String) : String :=
  "AI generation request failed" ++ if detail.isEmpty then "" else ": " ++ detail

def answerNotJson (snippet : String) : String := "AI returned invalid JSON: " ++ snippet

def formRejected (reason : String) : String := "Generated strategy is invalid: " ++ reason ++ "."

def pair (wallet strategy : String) : String :=
  " for wallet #" ++ wallet ++ ", strategy #" ++ strategy

def refusal (status : String) : String := "status " ++ status

def silence (detail : String) : String := if detail.isEmpty then "no response" else detail

def engineFailed (operation target reason : String) : String :=
  "Engine " ++ operation ++ " failed" ++ target ++ " (" ++ reason ++ ")"

def walletNotDeployed (wallet : String) : String :=
  "Wallet #" ++ wallet ++ " Safe is not deployed yet."

def walletDeploying : String := "Cannot delete a wallet while Safe is deploying."

def walletNotFound (wallet : String) : String := "Wallet #" ++ wallet ++ " does not exist"

def strategyNotFound (strategy : String) : String := "Strategy #" ++ strategy ++ " does not exist"

def assignmentNotFound (wallet strategy : String) : String :=
  "Strategy #" ++ strategy ++ " is not assigned to wallet #" ++ wallet

end StrategyDesk.Sentence
