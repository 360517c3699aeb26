import StrategyDesk.Failure

set_option autoImplicit false

namespace StrategyDesk.Arguments
open Json

def fill (required : List Text) (defaults given : Members) : Except Crash Members :=
  let names := required ++ defaults.map Prod.fst
  if given.all (fun m => names.contains m.1) && required.all (fun k => (find? given k).isSome) then
    .ok (required.map (fun k => (k, look given k)) ++
      defaults.map fun (k, v) => (k, (find? given k).getD v))
  else .error .wrongKind

end StrategyDesk.Arguments
