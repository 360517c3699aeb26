import Mathlib.Data.List.Basic
import StrategyDesk.Proofs.Course

set_option autoImplicit false

namespace StrategyDesk
open Engine

variable {σ : Type}

namespace Engine

/-- An engine answers calls in turn, and is changed by each. -/
inductive Answers (e : Behaviour σ) : σ → List Exchange → σ → Prop where
  | nil {s : σ} : Answers e s [] s
  | cons {s t : σ} {c : Call} {xs : List Exchange} (h : Answers e (e s c).2 xs t) :
    Answers e s (⟨c, (e s c).1⟩ :: xs) t

variable {e : Behaviour σ}

theorem Answers.append {s t u : σ} {xs ys : List Exchange} (hxs : Answers e s xs t)
    (hys : Answers e t ys u) : Answers e s (xs ++ ys) u := by
  induction hxs with
  | nil => exact hys
  | cons _ ih => exact .cons (ih hys)

theorem answers_sendAll (s : σ) (cs : List Call) :
    Answers e s (sendAll e s cs).1 (sendAll e s cs).2 := by
  induction cs generalizing s with
  | nil => exact .nil
  | cons c cs ih => exact .cons (ih _)

theorem answers_sendWhileOk (s : σ) (cs : List Call) :
    Answers e s (sendWhileOk e s cs).sent (sendWhileOk e s cs).engine := by
  induction cs generalizing s with
  | nil => exact .nil
  | cons c cs ih =>
    simp only [sendWhileOk]
    split
    · exact .cons .nil
    · exact .cons (ih _)

theorem sendWhileOk_split_of_failure {s : σ} {cs : List Call} {f : Failure}
    (h : (sendWhileOk e s cs).failure = some f) :
    ∃ ys x rest, (sendWhileOk e s cs).sent = ys ++ [x] ∧ (∀ y ∈ ys, y.succeeds = true) ∧
      x.reply.outcome x.call = .error f ∧ cs = ys.map Exchange.call ++ x.call :: rest := by
  obtain ⟨ys, x, hsent, hok, hx⟩ := sent_of_sendWhileOk_failure h
  obtain ⟨rest, hcalls⟩ := sendWhileOk_calls e s cs
  refine ⟨ys, x, rest, hsent, hok, hx, ?_⟩
  rw [← hcalls, hsent]
  simp

end Engine

/-- What starts of assignments had reached before one failed is taken back with a stop for each. -/
theorem Desk.undoing_activations {s : Store} {r : Strategy} {as : List Assignment}
    {ys : List Exchange} {x : Exchange} (has : ∀ a ∈ as, a.strategyId = r.id)
    (hcalls : ys.map Exchange.call = as.map (s.activation r))
    (hok : ∀ y ∈ ys, y.succeeds = true) (hx : x.succeeds = false) :
    Desk.undoing (ys ++ [x]) = as.map Assignment.stopCall := by
  have hfilter : (ys ++ [x]).filter Exchange.succeeds = ys := by
    simpa [List.filter_append, hx] using hok
  rw [Desk.undoing, hfilter]
  have hcongr := congrArg (List.filterMap fun c : Call =>
    c.pair?.map fun q => Call.deactivate q.1 q.2) hcalls
  rw [List.filterMap_map, List.filterMap_map] at hcongr
  refine hcongr.trans (List.filterMap_eq_map_iff_forall_eq_some.2 fun a ha => ?_)
  simp [Store.activation, Call.pair?, Assignment.stopCall, has a ha]

/-- How an operation ends that sends calls up to the first that fails: with its result and its
tables if none of them does, and with what came to that call and the old tables if one does. -/
inductive Swept (e : Behaviour σ) (d : Desk σ) (calls : List Call) (result : Result)
    (after : Store) : Ending σ Result → Prop where
  | done {x : Ending σ Result} (hanswers : Answers e d.engine x.sent x.desk.engine)
    (hcalls : x.sent.map Exchange.call = calls) (hok : ∀ y ∈ x.sent, y.succeeds = true)
    (hresult : x.result = .ok result) (hstore : x.desk.store = after) :
    Swept e d calls result after x
  | stopped {x : Ending σ Result} {before : List Exchange} {y : Exchange} {rest : List Call}
    {f : Failure} (hanswers : Answers e d.engine x.sent x.desk.engine)
    (hsent : x.sent = before ++ [y]) (hcalls : calls = before.map Exchange.call ++ y.call :: rest)
    (hok : ∀ z ∈ before, z.succeeds = true) (hfailed : y.reply.outcome y.call = .error f)
    (hresult : x.result = .error f) (hstore : x.desk.store = d.store) :
    Swept e d calls result after x

section Sweeps

variable {e : Behaviour σ} {d : Desk σ} {calls : List Call} {result : Result} {after : Store}
  {x : Ending σ Result}

theorem swept_sweeping {α : Type} {lines : Int → Int → Log} {a : α} {last : Log}
    (g : α → Result) :
    Swept e d calls (g a) after ((d.sweeping e calls lines a after last).map g) := by
  have hanswers := answers_sendWhileOk (e := e) d.engine calls
  unfold Desk.sweeping
  cases hf : (sendWhileOk e d.engine calls).failure with
  | none =>
    simp only [hf]
    exact .done hanswers (sendWhileOk_calls_of_ok hf) (succeeds_of_sendWhileOk hf) rfl rfl
  | some f =>
    obtain ⟨ys, y, rest, hsent, hok, hy, hcalls⟩ := sendWhileOk_split_of_failure hf
    simp only [hf]
    exact .stopped hanswers hsent hcalls hok hy rfl rfl

theorem Swept.isOk_iff (h : Swept e d calls result after x) :
    (∃ a, x.result = .ok a) ↔ ∀ y ∈ x.sent, y.succeeds = true := by
  cases h with
  | done _ _ hok hresult => exact ⟨fun _ => hok, fun _ => ⟨result, hresult⟩⟩
  | stopped _ hsent _ _ hfailed hresult =>
    rw [hresult, hsent]
    constructor
    · intro hex
      obtain ⟨a, ha⟩ := hex
      cases ha
    · intro hall
      have hyes := hall _ (List.mem_append_right _ List.mem_cons_self)
      rw [not_succeeds_of_outcome hfailed] at hyes
      cases hyes

end Sweeps

end StrategyDesk
