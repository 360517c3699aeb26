import Mathlib.Data.List.Induction
import StrategyDesk.Store.Operation

set_option autoImplicit false

namespace StrategyDesk
open Engine

/-- An operation of a run, with the desk before it and its ending. -/
structure Event (σ : Type) where
  before : Desk σ
  operation : Operation
  ending : Ending σ Result

variable {σ : Type}

namespace Desk

def history (e : Behaviour σ) (d : Desk σ) : List Operation → List (Event σ)
  | [] => []
  | o :: os => ⟨d, o, o.run e d⟩ :: history e (o.run e d).desk os

theorem run_append (e : Behaviour σ) (d : Desk σ) (os ps : List Operation) :
    d.run e (os ++ ps) = (d.run e os).run e ps := by
  induction os generalizing d with
  | nil => rfl
  | cons o os ih => exact ih _

theorem history_append (e : Behaviour σ) (d : Desk σ) (os ps : List Operation) :
    d.history e (os ++ ps) = d.history e os ++ (d.run e os).history e ps := by
  induction os generalizing d with
  | nil => rfl
  | cons o os ih => simp [history, run, ih]

theorem history_append_singleton (e : Behaviour σ) (d : Desk σ) (os : List Operation)
    (o : Operation) :
    d.history e (os ++ [o]) = d.history e os ++ [⟨d.run e os, o, o.run e (d.run e os)⟩] :=
  history_append e d os [o]

@[simp]
theorem length_history (e : Behaviour σ) (d : Desk σ) (os : List Operation) :
    (d.history e os).length = os.length := by
  induction os generalizing d with
  | nil => rfl
  | cons o os ih => simp [history, ih]

theorem history_induction {motive : List (Event σ) → Desk σ → Prop} (e : Behaviour σ)
    (engine : σ) (ids : Form.Supply) (room : Room) (fresh : motive [] (Desk.fresh engine ids room))
    (event : ∀ (h : List (Event σ)) (d : Desk σ) (o : Operation), motive h d →
      motive (h ++ [⟨d, o, o.run e d⟩]) (o.run e d).desk) (os : List Operation) :
    motive ((Desk.fresh engine ids room).history e os) ((Desk.fresh engine ids room).run e os) := by
  induction os using List.reverseRecOn with
  | nil => exact fresh
  | append_singleton os o ih =>
    rw [history_append_singleton, run_append]
    exact event _ _ o ih

end Desk

end StrategyDesk
