import StrategyDesk.Engine.Call

/-!
Running through a list of engine calls: up to the first that fails, or all of them whatever comes
back.
-/

set_option autoImplicit false

namespace StrategyDesk.Engine

/-- What comes of a run of calls: the calls that were sent with their replies, the engine after
them, and the failure that ended the run. -/
structure Sweep (σ : Type) where
  sent : List Exchange
  engine : σ
  failure : Option Failure

variable {σ : Type}

/-- Sends calls in order, up to the first that fails. -/
def sendWhileOk (e : Behaviour σ) (s : σ) : List Call → Sweep σ
  | [] => ⟨[], s, none⟩
  | c :: cs =>
    let reply := (e s c).1
    match reply.outcome c with
    | .error f => ⟨[⟨c, reply⟩], (e s c).2, some f⟩
    | .ok _ =>
      let rest := sendWhileOk e (e s c).2 cs
      ⟨⟨c, reply⟩ :: rest.sent, rest.engine, rest.failure⟩

def sendAll (e : Behaviour σ) (s : σ) : List Call → List Exchange × σ
  | [] => ([], s)
  | c :: cs =>
    let rest := sendAll e (e s c).2 cs
    (⟨c, (e s c).1⟩ :: rest.1, rest.2)

theorem sendWhileOk_calls (e : Behaviour σ) (s : σ) (cs : List Call) :
    (sendWhileOk e s cs).sent.map Exchange.call <+: cs := by
  induction cs generalizing s with
  | nil => simp [sendWhileOk]
  | cons c cs ih =>
    simp only [sendWhileOk]
    split
    · simp
    · simpa using ih _

theorem sendWhileOk_calls_of_ok {e : Behaviour σ} {s : σ} {cs : List Call}
    (h : (sendWhileOk e s cs).failure = none) :
    (sendWhileOk e s cs).sent.map Exchange.call = cs := by
  induction cs generalizing s with
  | nil => simp [sendWhileOk]
  | cons c cs ih =>
    simp only [sendWhileOk] at h ⊢
    split at h
    · simp at h
    · rename_i hc
      simpa [hc] using ih h

@[simp]
theorem sendAll_calls (e : Behaviour σ) (s : σ) (cs : List Call) :
    (sendAll e s cs).1.map Exchange.call = cs := by
  induction cs generalizing s with
  | nil => simp [sendAll]
  | cons c cs ih => simp [sendAll, ih]

end StrategyDesk.Engine
