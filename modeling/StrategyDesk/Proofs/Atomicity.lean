import StrategyDesk.Proofs.Course

/-!
Operations that fail change no row. What is not a failure of an engine call is found before the
engine hears of the operation at all.
-/

set_option autoImplicit false

namespace StrategyDesk
open Engine

variable {σ : Type}

/-- An operation that fails leaves every row as it was. Its failure is an engine fault exactly if
one of the calls that it sent came to it, and after any other failure no call was sent. -/
theorem failed_operation (e : Behaviour σ) (d : Desk σ) (o : Operation) {f : Failure}
    (h : (o.run e d).result = .error f) :
    (o.run e d).desk.store = d.store ∧
      (f.isEngineFault = true ↔
        ∃ x ∈ (o.run e d).sent, x.reply.outcome x.call = .error f) ∧
      (f.isEngineFault = false → (o.run e d).sent = []) := by
  cases o.run_course e d with
  | refused hresult hstore hsent hfault =>
    rw [hresult, Except.error.injEq] at h
    subst h
    exact ⟨hstore, by simp [hfault, hsent], fun _ => hsent⟩
  | done hresult =>
    rw [hresult] at h
    cases h
  | stopped hresult hstore hfailure hsent =>
    rw [hresult, Except.error.injEq] at h
    subst h
    obtain ⟨x, hx, houtcome⟩ := Operation.exists_sent_of_failure hfailure
    have hfault := isEngineFault_of_outcome houtcome
    have hmem : x ∈ (o.run e d).sent := by
      rw [hsent]
      exact List.mem_append_left _ hx
    refine ⟨hstore, ⟨fun _ => ⟨x, hmem, houtcome⟩, fun _ => hfault⟩, fun hno => ?_⟩
    rw [hfault] at hno
    cases hno

def Desk.twoStopped : Desk Unit where
  store := ⟨[⟨1, Wallet.deployed, none, "a"⟩, ⟨2, Wallet.deployed, none, "b"⟩],
    [⟨1, 1, "s", none, .flow, .obj [("mode", .str "node")], false⟩],
    [⟨1, 1, 1, [], .one, false, false, false⟩, ⟨2, 2, 1, [], .one, true, false, false⟩]⟩
  engine := ()
  ids := .counted
  room := .direct

def Engine.refusingSecond : Behaviour Unit := fun s c =>
  match c with
  | .activate 2 _ _ => (.answered 500 .null, s)
  | _ => (.answered 200 .null, s)

/-- The second wallet is refused after the first was started: the start is taken back, and the
tables show neither. -/
theorem failed_activation_of_twoStopped :
    let x := (Operation.activate 1).run refusingSecond Desk.twoStopped
    x.result = .error (.engine ⟨"activate", some 2, some 1, some 500, ""⟩) ∧
      x.sent.map (fun y => (y.call.verb, y.call.pair?)) =
        [(.activate, some (1, 1)), (.activate, some (2, 1)), (.deactivate, some (1, 1))] ∧
      x.desk.store = Desk.twoStopped.store :=
  ⟨rfl, rfl, (failed_operation refusingSecond Desk.twoStopped (.activate 1) rfl).1⟩

end StrategyDesk
