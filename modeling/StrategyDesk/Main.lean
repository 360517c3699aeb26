import StrategyDesk.Cli

set_option autoImplicit false

open StrategyDesk

def environmentNames : List String :=
  ["AI_PROVIDER", "AI_MODEL", "ANTHROPIC_API_KEY", "OPENAI_API_KEY", "GENERATION_TIMEOUT_SECS"]

def readEnvironment : IO Environment :=
  environmentNames.filterMapM fun name => do
    return (← IO.getEnv name).map fun value => (name, value)

def readFile? (path : String) : IO (Option ByteArray) := do
  try
    return some (← IO.FS.readBinFile path)
  catch _ => return none

def fileOf : Option Cli.Command → IO (Option ByteArray)
  | some (.validate path) | some (.parse path) => readFile? path
  | _ => return none

def answerOf : Option Cli.Command → IO Generation.Completion
  | some (.generate _) => do
    let answer ← (← IO.getStdin).readToEnd
    return .answered (some answer)
  | _ => return .answered none

def main (args : List String) : IO UInt32 := do
  let command := Cli.command? args
  let env ← readEnvironment
  let file ← fileOf command
  let answer ← answerOf command
  match Cli.run .direct .counted env (fun _ => file) (fun _ _ => answer) args with
  | .ok r =>
    IO.print r.stdout
    IO.eprint r.stderr
    return r.exit.toUInt32
  | .error f =>
    IO.eprintln f.message
    return 1
