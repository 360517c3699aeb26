import StrategyDesk.Proofs.Settling
import StrategyDesk.Proofs.Soundness

/-!
The graphs in the rows of strategies. Every row holds a graph that acceptance gave back, next to
the mode that the graph names, whatever was created, changed or refused before; a row that keeps
its old graph because the new one is the same keeps the old mode with it. An update changes
nothing but what it was given new values for.
-/

set_option autoImplicit false

namespace StrategyDesk
open Engine

variable {σ : Type}

/-- The graph of the row is accepted as it is, in the mode of the row and without a new id. -/
def Strategy.IsSettled (room : Room) (r : Strategy) : Prop :=
  ∀ next, Graph.accept room next r.graph = .ok ⟨r.mode, r.graph, next⟩

theorem Strategy.isSettled_congr {room : Room} {r s : Strategy}
    (h : (r.mode, r.graph) = (s.mode, s.graph)) (hs : s.IsSettled room) : r.IsSettled room := by
  simp only [Prod.mk.injEq] at h
  rw [IsSettled, h.1, h.2]
  exact hs

theorem Mode.ofGraph_of_same {g g' : Json} {m : Mode} (h : Json.same g g' = true)
    (hm : Mode.ofGraph g = .ok m) : Mode.ofGraph g' = .ok m := by
  obtain ⟨ms, rfl, hmode⟩ := ofGraph_eq_ok_iff.1 hm
  cases g' with
  | obj others =>
    simp only [Json.same, Bool.and_eq_true] at h
    have hfind : Json.find? ms "mode" = some (.str m.name) := by
      cases hf : Json.find? ms "mode" with
      | none => simp [Json.look, hf] at hmode
      | some j => simpa [Json.look, hf] using hmode
    obtain ⟨other, hother, hsame⟩ := Json.find?_of_sameMembers h.2 hfind
    rw [Json.eq_of_same_str hsame] at hother
    exact ofGraph_eq_ok_iff.2 ⟨others, rfl, Json.look_of_find? hother⟩
  | _ => simp [Json.same] at h

theorem Desk.isSettled_keptRow {room : Room} {old new : Strategy} (hold : old.IsSettled room)
    (hnew : new.IsSettled room) : (Desk.keptRow old new).IsSettled room := by
  by_cases hsame : Json.same old.graph new.graph = true
  · have hmode : old.mode = new.mode := by
      have h := Mode.ofGraph_of_same hsame (Graph.mode_of_accept (hold .counted))
      rw [Graph.mode_of_accept (hnew .counted)] at h
      exact (Except.ok.inj h).symm
    refine Strategy.isSettled_congr ?_ hold
    simp only [keptRow, hsame, ↓reduceIte, hmode]
  · refine Strategy.isSettled_congr ?_ hnew
    simp only [keptRow, hsame, Bool.false_eq_true, ↓reduceIte]

theorem Strategy.isSettled_of_accept {r : Strategy} {room : Room} {next : Form.Supply} {g : Json}
    {a : Accepted}
    (ha : Graph.accept room next g = .ok a) (hr : (r.mode, r.graph) = (a.mode, a.graph)) :
    r.IsSettled room := by
  simp only [Prod.mk.injEq] at hr
  intro m
  rw [hr.1, hr.2]
  exact Graph.accept_again ha m

theorem Operation.Done.isSettled {d : Desk σ} {o : Operation} {r : Result} {s' : Store}
    (h : o.Done d r s') (hs : ∀ row ∈ d.store.strategies, row.IsSettled d.room) :
    ∀ row ∈ s'.strategies, row.IsSettled d.room := by
  intro row hrow
  have hstays : s'.strategies.map (fun r => (r.mode, r.graph)) =
      d.store.strategies.map (fun r => (r.mode, r.graph)) → row.IsSettled d.room := by
    intro hmap
    obtain ⟨old, hold, heq⟩ := Store.exists_of_strategies hmap hrow
    exact Strategy.isSettled_congr heq.symm (hs old hold)
  cases h with
  | createStrategy ha hr =>
    rcases List.mem_append.1 hrow with hrow | hrow
    · exact hs row hrow
    · rw [List.mem_singleton.1 hrow]
      exact Strategy.isSettled_of_accept ha (Desk.newStrategy_eq hr).2.1
  | updateStrategy hold ha hnew =>
    have hold := hs _ (Store.mem_of_strategy? (Store.strategy?_of_find hold)).1
    obtain ⟨name, description, rfl⟩ := Desk.revised_eq hnew
    rcases Desk.mem_revise hrow with rfl | ⟨hrow, -⟩
    · rcases Desk.acceptGiven_cases ha with ⟨rfl, rfl⟩ | ⟨g, a, rfl, rfl, hb⟩
      · exact Desk.isSettled_keptRow hold hold
      · exact Desk.isSettled_keptRow hold (Strategy.isSettled_of_accept hb rfl)
    · exact hs row hrow
  | deleteStrategy => exact hs row (List.mem_filter.1 hrow).1
  | deleteWallet => exact hstays (Store.strategies_withoutWallet (fun _ _ => rfl) _ _)
  | assignStrategy => exact hstays (by rw [Store.strategies_place])
  | unassignStrategy => exact hstays (Store.strategies_withoutAssignment (fun _ _ => rfl) _ _)
  | activate => exact hstays (Store.strategies_start (fun _ _ => rfl) _ _)
  | deactivate => exact hstays (Store.strategies_stop (fun _ _ => rfl) _ _)
  | addWallet | noWallet | setWalletStatus | getStrategy | haltStrategy | haltWallet | kill
  | unkill | hasRunning => exact hs row hrow

theorem Desk.isSettled_run (e : Behaviour σ) (engine : σ) (ids : Form.Supply) (room : Room)
    (os : List Operation) :
    ∀ r ∈ ((Desk.fresh engine ids room).run e os).store.strategies, r.IsSettled room := by
  refine (Desk.history_induction
    (motive := fun _ d => d.room = room ∧ ∀ r ∈ d.store.strategies, r.IsSettled room)
    e engine ids room ⟨rfl, fun r hr => by simp [Desk.fresh, Store.empty] at hr⟩
    (fun h d o ih => ⟨(o.room_run e d).trans ih.1, ?_⟩) os).2
  obtain ⟨rfl, ih⟩ := ih
  cases o.run_course e d with
  | refused _ hstore | stopped _ hstore =>
    rw [hstore]
    exact ih
  | done _ hdone => exact hdone.isSettled ih

/-! ### Updates -/

/-- What stays of a row when the strategy with an id is given new values for some columns. -/
structure Strategy.Stays (i : Int) (n t : Option Text) (g : Option Json)
    (old new : Strategy) : Prop where
  id : new.id = old.id
  userId : new.userId = old.userId
  active : new.active = old.active
  name : n = none → new.name = old.name
  description : t = none → new.description = old.description
  graph : g = none → new.mode = old.mode ∧ new.graph = old.graph
  others : old.id ≠ i → new = old

/-- What a row holds once the strategy was given new values for some columns. -/
structure Strategy.Takes (room : Room) (next : Form.Supply) (n t : Option Text)
    (g : Option Json) (new : Strategy) : Prop where
  name : ∀ s, n = some s → .plain new.name = s
  description : ∀ s, t = some s → new.description.map .plain = some s
  graph : ∀ j, g = some j → ∃ a, Graph.accept room next j = .ok a ∧ new.mode = a.mode ∧
    (new.graph = a.graph ∨ Json.same new.graph a.graph = true)

theorem Strategy.Stays.refl (id : Int) (name description : Option Text) (graph : Option Json)
    (r : Strategy) : Strategy.Stays id name description graph r r :=
  ⟨rfl, rfl, rfl, fun _ => rfl, fun _ => rfl, fun _ => ⟨rfl, rfl⟩, fun _ => rfl⟩

theorem Desk.map_plain_of_encoded {t : Option Text} {s : Option String} (h : encoded t = .ok s) :
    s.map .plain = t := by
  unfold encoded at h
  split at h <;> cases h <;> rfl

theorem Desk.columns_of_revised {old new : Strategy} {name description : Option Text}
    {a : Option Accepted} (h : Desk.revised old name description a = .ok new) :
    .plain new.name = name.getD (.plain old.name) ∧
      new.description.map .plain = description.or (old.description.map .plain) := by
  unfold Desk.revised at h
  simp only [bind, Except.bind, pure, Except.pure] at h
  cases hname : encoded name with
  | error c => grind
  | ok n =>
    cases htext : encoded description with
    | error c => grind
    | ok t =>
      rw [← map_plain_of_encoded hname, ← map_plain_of_encoded htext]
      cases n <;> cases t <;> grind

theorem Desk.stays_keptRow {old new : Strategy} {name description : Option Text}
    {graph : Option Json} {a : Option Accepted} (ha : graph = none → a = none)
    (hnew : Desk.revised old name description a = .ok new) :
    Strategy.Stays old.id name description graph old (Desk.keptRow old new) := by
  obtain ⟨hname, htext⟩ := columns_of_revised hnew
  obtain ⟨n, t, rfl⟩ := revised_eq hnew
  refine ⟨rfl, rfl, rfl, fun h => ?_, fun h => ?_, fun h => ?_, fun h => absurd rfl h⟩
  · subst h
    exact Text.plain.inj hname
  · subst h
    exact Option.map_injective (fun _ _ => Text.plain.inj) htext
  · rw [ha h]
    exact ⟨rfl, ite_self _⟩

theorem Desk.takes_keptRow {old new : Strategy} (room : Room) (next : Form.Supply)
    {name description : Option Text} {graph : Option Json} {a : Option Accepted}
    (ha : ∀ g, graph = some g → ∃ b, a = some b ∧ Graph.accept room next g = .ok b)
    (hnew : Desk.revised old name description a = .ok new) :
    Strategy.Takes room next name description graph (Desk.keptRow old new) := by
  obtain ⟨hname, htext⟩ := columns_of_revised hnew
  obtain ⟨n, t, rfl⟩ := revised_eq hnew
  refine ⟨fun s h => ?_, fun s h => ?_, fun j h => ?_⟩
  · subst h
    exact hname
  · subst h
    exact htext
  · obtain ⟨b, rfl, hb⟩ := ha j h
    refine ⟨b, hb, rfl, ?_⟩
    by_cases hsame : Json.same old.graph b.graph = true
    · exact Or.inr (by simp [keptRow, hsame])
    · exact Or.inl (by simp [keptRow, hsame])

theorem Desk.stays_revise {d : Desk σ} (hs : d.store.Linked) {id : Int} {old new : Strategy}
    (hold : d.store.findStrategy id = .ok old) {name description : Option Text}
    {graph : Option Json} {a : Option Accepted} (ha : graph = none → a = none)
    (hnew : Desk.revised old name description a = .ok new) :
    List.Forall₂ (Strategy.Stays id name description graph) d.store.strategies
      (d.revise old new).store.strategies := by
  obtain ⟨hmem, rfl⟩ := Store.mem_of_strategy? (Store.strategy?_of_find hold)
  simp only [revise, Store.onStrategy, List.forall₂_map_right_iff, List.forall₂_same]
  intro r hr
  split
  · rename_i hid
    rw [List.inj_on_of_nodup_map hs.strategyIds hr hmem hid]
    exact stays_keptRow ha hnew
  · exact Strategy.Stays.refl _ _ _ _ r

theorem Desk.mem_of_revise {d : Desk σ} {id : Int} {old : Strategy}
    (hold : d.store.findStrategy id = .ok old) (new : Strategy) :
    Desk.keptRow old new ∈ (d.revise old new).store.strategies ∧ old.id = id := by
  obtain ⟨hmem, hid⟩ := Store.mem_of_strategy? (Store.strategy?_of_find hold)
  exact ⟨List.mem_map.2 ⟨old, hmem, if_pos rfl⟩, hid⟩

theorem Operation.Done.stays {d : Desk σ} {id : Int} {name description : Option Text}
    {graph : Option Json} {r : Result} {s' : Store}
    (h : (Operation.updateStrategy id name description graph).Done d r s')
    (hs : d.store.Linked) :
    s'.wallets = d.store.wallets ∧ s'.assignments = d.store.assignments ∧
      List.Forall₂ (Strategy.Stays id name description graph) d.store.strategies s'.strategies ∧
      ∃ new ∈ s'.strategies, new.id = id ∧
        Strategy.Takes d.room d.ids name description graph new := by
  cases h with
  | @updateStrategy _ _ _ _ old new a hold ha hnew =>
    obtain ⟨hmem, hid⟩ := Desk.mem_of_revise hold new
    have hnone : graph = none → a = none := fun h => by subst h; cases ha; rfl
    refine ⟨rfl, rfl, Desk.stays_revise hs hold hnone hnew, _, hmem, ?_,
      Desk.takes_keptRow _ _ (fun g h => ?_) hnew⟩
    · obtain ⟨n, t, rfl⟩ := Desk.revised_eq hnew
      exact hid
    · subst h
      rcases Desk.acceptGiven_cases ha with ⟨h, -⟩ | ⟨j, b, h, rfl, hb⟩
      · cases h
      · cases h
        exact ⟨b, rfl, hb⟩

end StrategyDesk
