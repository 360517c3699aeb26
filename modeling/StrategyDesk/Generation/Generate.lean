import StrategyDesk.Generation.Answer
import StrategyDesk.Generation.Provider
import StrategyDesk.Graph.Acceptance

/-!
Generating a form from a description: one question to the provider, one answer, and the form that
it holds. What the question is, what is reported and what comes of an answer are functions of the
answer alone.
-/

set_option autoImplicit false

namespace StrategyDesk.Generation

def generate (room : Room) (next : Form.Supply) (c : Completion) :
    Except Failure (Json × Form.Supply) :=
  match c.outcome with
  | .error e => .error e
  | .ok raw => parseAnswer room next raw.toList

def answeredLine (raw : String) : Line :=
  ⟨.debug, .generation, "Provider returned " ++ toString raw.length ++ " characters"⟩

def generatedLine (g : Json) : Line :=
  ⟨.info, .generation, "Generated form graph with " ++
    toString (Graph.countOf "conditions" g) ++ " condition groups"⟩

def generateLog (v : Vendor) (room : Room) (next : Form.Supply) (c : Completion) : Log :=
  c.log v ++
    (match c.outcome with
      | .error _ => []
      | .ok raw => [answeredLine raw]) ++
    (match generate room next c with
      | .error _ => []
      | .ok (g, _) => [generatedLine g])

end StrategyDesk.Generation
