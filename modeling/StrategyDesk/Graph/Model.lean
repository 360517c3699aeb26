import StrategyDesk.Flow.Model
import StrategyDesk.Form.Model

set_option autoImplicit false

namespace StrategyDesk
open Json

inductive Mode where
  | form | flow
  deriving DecidableEq, Repr

namespace Mode

def name : Mode → String
  | .form => "form"
  | .flow => "node"

def ofName? (s : String) : Option Mode :=
  if s = "form" then some .form else if s = "node" then some .flow else none

@[simp]
theorem ofName?_name (m : Mode) : ofName? m.name = some m := by cases m <;> decide

theorem ofName?_eq_some_iff {s : String} {m : Mode} : ofName? s = some m ↔ s = m.name := by
  constructor
  · intro h
    unfold ofName? at h
    split at h
    · rename_i hs
      cases h
      exact hs
    · split at h
      · rename_i hs
        cases h
        exact hs
      · cases h
  · rintro rfl
    exact ofName?_name m

def unknown : GraphError := ⟨.structural, "mode", "must be \"form\" or \"node\""⟩

def ofMembers (ms : Members) : Except GraphError Mode :=
  match look ms "mode" with
  | .str (.plain s) =>
    match ofName? s with
    | some m => .ok m
    | none => .error unknown
  | _ => .error unknown

def ofGraph : Json → Except GraphError Mode
  | .obj ms => ofMembers ms
  | _ => .error ⟨.structural, "graph", "must be an object"⟩

theorem ofGraph_eq_ok_iff {g : Json} {m : Mode} :
    ofGraph g = .ok m ↔ ∃ ms, g = .obj ms ∧ look ms "mode" = .str m.name := by
  constructor
  · intro h
    cases g with
    | obj ms =>
      simp only [ofGraph, ofMembers] at h
      split at h
      · rename_i s hs
        split at h
        · rename_i m' hm
          cases h
          exact ⟨ms, rfl, by rw [hs, ofName?_eq_some_iff.1 hm]⟩
        · cases h
      · cases h
    | _ => cases h
  · rintro ⟨ms, rfl, h⟩
    simp only [ofGraph, ofMembers, h, ofName?_name]

end Mode

inductive Graph where
  | form (f : Form)
  | flow (f : Flow)
  deriving Repr

namespace Graph

inductive ReadFault where
  | graph (e : GraphError)
  | details (ds : List Detail)

def readAs (m : Mode) (g : Json) : Reading Graph :=
  match m with
  | .form => Reading.map form (Form.read g)
  | .flow => Reading.map flow (Flow.read g)

/-- The typed graph of a raw one; mistakes are placed under the word for its mode. -/
def read (g : Json) : Except ReadFault Graph :=
  match Mode.ofGraph g with
  | .error e => .error (.graph e)
  | .ok m => (Reading.under (.key m.name) (readAs m g)).toExcept.mapError .details

def write (x : Json.Dumper) : Graph → Except Crash Json
  | form f => .ok f.dump
  | flow f => (f.write x).elim (.error .notWritable) .ok

end Graph

end StrategyDesk
