import StrategyDesk.Proofs.Requests

/-!
Errors and what was written. A request that ends in an error leaves every row as it was, with one
exception: a row is written before the response with it, and a row with a value that has no place in
a response makes an internal error of a request that was done.
-/

set_option autoImplicit false

namespace StrategyDesk.Service
open Json Reading

variable {σ : Type}

def Response.IsSuccess (x : Response) : Prop := 200 ≤ x.status ∧ x.status < 300

instance (x : Response) : Decidable x.IsSuccess := inferInstanceAs (Decidable (_ ∧ _))

/-- A request asks for an operation that is done and has a result that cannot be written. -/
structure Unshown (w : Outside σ) (d : Desk σ) (r : Request) (o : Operation) (a : Result) :
    Prop where
  asked : ∃ e ids, route r.method (Net.path r.target) = .endpoint e ids ∧
    Asks ids (Carries w.requests.levels r.body) e o
  done : (o.run w.engine d).result = .ok a
  unwritable : Response.Unwritable w.dumper a

/-- What a result tells of is in the tables. The graph of a strategy may be an older one there that
is the same. -/
inductive Holds (t : Store) : Result → Prop where
  | strategy {row : Strategy} {g : Json} (hrow : { row with graph := g } ∈ t.strategies)
    (hg : g = row.graph ∨ Json.same g row.graph = true) : Holds t (.strategy (some row))
  | assigned {a : Assigned} (hrow : a.row ∈ t.assignments) : Holds t (.assigned a)

theorem Endpoint.isSuccess_doneStatus {x : Response} {e : Endpoint} (h : x.status = e.doneStatus) :
    x.IsSuccess := by
  rw [Response.IsSuccess, h]
  cases e <;> decide

theorem holds_revise {d : Desk σ} {id : Int} {old new : Strategy}
    (hold : d.store.findStrategy id = .ok old) :
    Holds (d.revise old new).store (.strategy (some new)) := by
  have hmem := (Store.mem_of_strategy? (Store.strategy?_of_find hold)).1
  have hkept : Desk.keptRow old new ∈ (d.revise old new).store.strategies :=
    List.mem_map.2 ⟨old, hmem, if_pos rfl⟩
  refine .strategy hkept ?_
  split
  · rename_i hsame
    exact Or.inr hsame
  · exact Or.inl rfl

theorem Asks.holds {ids : PathIds} {carries : Json → Prop} {e : Endpoint} {d : Desk σ}
    {o : Operation} {a : Result} {t : Store} (hasks : Asks ids carries e o) (hdone : o.Done d a t)
    {x : Json.Dumper}
    (h : Response.Unwritable x a) : Holds t a := by
  cases hasks with
  | create =>
    cases hdone
    exact .strategy (List.mem_append_right _ List.mem_cons_self) (Or.inl rfl)
  | update =>
    cases hdone with
    | updateStrategy hold => exact holds_revise hold
  | assign =>
    cases hdone with
    | assignStrategy hw hs hmarkets hrow =>
      obtain ⟨_, _, -, -, rfl⟩ := AssignRequest.row_eq hrow
      refine .assigned (Store.mem_place fun old hold => ?_)
      rw [hold]
      rfl
  | _ =>
    cases hdone
    cases h

def nested : Nat → Json
  | 0 => .arr []
  | n + 1 => .arr [nested n]

def deepGraph (n : Nat) : Json :=
  .obj [("mode", .str "node"), ("nodes", .arr
    [.obj [("id", .str "a"), ("type", .str "input"), ("data", .obj [("v", nested n)])]])]

def deepCreation (n : Nat) : List Char :=
  "\x7b\"user_id\":1,\"name\":\"s\",\"graph\":\x7b\"mode\":\"node\",\"nodes\":[".toList ++
    "\x7b\"id\":\"a\",\"type\":\"input\",\"data\":\x7b\"v\":".toList ++
    List.replicate (n + 1) '[' ++ List.replicate (n + 1) ']' ++ "\x7d\x7d]\x7d\x7d".toList

theorem carries_deepCreation :
    Carries willing.requests.levels (some (deepCreation 299).utf8Encode)
      (.obj [("user_id", .int 1), ("name", .str "s"), ("graph", deepGraph 299)]) :=
  carries_utf8Encode rfl (by decide +kernel)

theorem commandOf_deepCreation :
    commandOf willing.requests.levels (creation (deepCreation 299).utf8Encode) =
      .ok (.operate (.createStrategy (some 1) (some "s") none (deepGraph 299))) :=
  (commandOf_eq_operate_iff (route_of_leads (leads_creation _))).2
    (.create carries_deepCreation ⟨_, rfl, .int 1⟩ ⟨_, rfl, rfl, by decide⟩ (Or.inr ⟨rfl, rfl⟩)
      ⟨_, rfl, rfl, _, rfl⟩)

end StrategyDesk.Service
