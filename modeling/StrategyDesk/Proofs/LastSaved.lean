import StrategyDesk.Proofs.Soundness

/-!
What the engine is told and what was last saved. An operation that is done may save the graph of a
strategy or the terms of a pair, or end what was saved because the row goes. The rows hold what
was last saved, so the engine is told that, but for one case: a graph that is the same as the one
in its row, and only written in another way, is not written into the row.
-/

set_option autoImplicit false

namespace StrategyDesk
open Engine

variable {σ : Type}

/-! ### What is saved -/

/-- A graph that was saved, and the one that its row held before. -/
structure GraphSave where
  graph : Json
  old : Option Json

namespace GraphSave

def kept (g : GraphSave) : Json :=
  match g.old with
  | some old => if Json.same old g.graph then old else g.graph
  | none => g.graph

/-- Whether the row held a graph that is the same and is written in another way. -/
def IsShadowed (g : GraphSave) : Prop :=
  ∃ old, g.old = some old ∧ Json.same old g.graph = true ∧ old ≠ g.graph

theorem kept_eq_iff {g : GraphSave} : g.kept = g.graph ↔ ¬ g.IsShadowed := by
  obtain ⟨graph, old⟩ := g
  cases old with
  | none => simp [kept, IsShadowed]
  | some old =>
    by_cases hsame : Json.same old graph = true <;> simp [kept, IsShadowed, hsame]

theorem same_of_isShadowed {g : GraphSave} (h : g.IsShadowed) :
    Json.same g.kept g.graph = true := by
  obtain ⟨old, hold, hsame, -⟩ := h
  simp [kept, hold, hsame]

end GraphSave

/-- The terms of an assignment. -/
structure PairTerms where
  markets : List Text
  limit : Double
  paper : Bool

def Assignment.terms (a : Assignment) : PairTerms := ⟨a.markets, a.limit, a.paper⟩

def AssignRequest.terms? (r : AssignRequest) : Option PairTerms :=
  match r.check, Limit.amount r.limit, paperOf r.paper with
  | .ok markets, .ok limit, .ok paper => some ⟨markets, limit, paper.getD false⟩
  | _, _, _ => none

namespace Operation

def graphSave? (d : Desk σ) (id : Int) (r : Result) : Operation → Option (Option GraphSave)
  | createStrategy _ _ _ g =>
    match r, Graph.accept d.room d.ids g with
    | .strategy (some row), .ok a => if row.id = id then some (some ⟨a.graph, none⟩) else none
    | _, _ => none
  | updateStrategy s _ _ (some g) =>
    match Graph.accept d.room d.ids g with
    | .ok a =>
      if s = id then some (some ⟨a.graph, (d.store.strategy? s).map Strategy.graph⟩) else none
    | .error _ => none
  | deleteStrategy s => if s = id then some none else none
  | _ => none

def termsSave? (p : Int × Int) : Operation → Option (Option PairTerms)
  | assignStrategy w s r => if (w, s) = p then some r.terms? else none
  | unassignStrategy w s => if (w, s) = p then some none else none
  | deleteStrategy s => if s = p.2 then some none else none
  | deleteWallet w => if w = p.1 then some none else none
  | _ => none

end Operation

namespace Event

def graphSave? (id : Int) (v : Event σ) : Option (Option GraphSave) :=
  match v.ending.result with
  | .ok r => v.operation.graphSave? v.before id r
  | .error _ => none

def termsSave? (p : Int × Int) (v : Event σ) : Option (Option PairTerms) :=
  match v.ending.result with
  | .ok _ => v.operation.termsSave? p
  | .error _ => none

end Event

/-- What was last saved in a history, unless it was ended since. -/
def lastSaved {α : Type} (save? : Event σ → Option (Option α)) (h : List (Event σ)) : Option α :=
  (h.filterMap save?).getLast?.join

def lastGraph (id : Int) (h : List (Event σ)) : Option GraphSave :=
  lastSaved (Event.graphSave? id) h

def lastTerms (p : Int × Int) (h : List (Event σ)) : Option PairTerms :=
  lastSaved (Event.termsSave? p) h

theorem lastSaved_append {α : Type} (save? : Event σ → Option (Option α)) (h : List (Event σ))
    (v : Event σ) : lastSaved save? (h ++ [v]) = (save? v).getD (lastSaved save? h) := by
  cases hv : save? v <;> simp [lastSaved, List.filterMap_append, hv]

/-! ### What the rows hold after an operation -/

namespace Store

variable {s : Store}

theorem mem_start {id : Int} {a : Assignment} (h : a ∈ (s.start id).assignments) :
    ∃ b ∈ s.assignments, a = b ∨ a = b.start := by
  obtain ⟨b, hb, rfl⟩ := List.mem_map.1 h
  refine ⟨b, hb, ?_⟩
  dsimp only
  split
  · split
    · exact Or.inl rfl
    · exact Or.inr rfl
  · exact Or.inl rfl

theorem mem_stop {id : Int} {a : Assignment} (h : a ∈ (s.stop id).assignments) :
    ∃ b ∈ s.assignments, a = b ∨ a = b.stop := by
  obtain ⟨b, hb, rfl⟩ := List.mem_map.1 h
  refine ⟨b, hb, ?_⟩
  dsimp only
  split
  · split
    · exact Or.inr rfl
    · exact Or.inl rfl
  · exact Or.inl rfl

theorem Linked.mem_place (h : s.Linked) {walletId strategyId : Int} {a b : Assignment}
    (hid : ∀ old, s.assignment? walletId strategyId = some old → a.id = old.id)
    (hb : b ∈ (s.place (s.assignment? walletId strategyId) a).assignments) :
    b = a ∨ b ∈ s.assignments ∧ b.pair ≠ (walletId, strategyId) := by
  cases hold : s.assignment? walletId strategyId with
  | none =>
    rw [hold] at hb
    rcases List.mem_append.1 hb with hb | hb
    · exact Or.inr ⟨hb, pair_ne_of_assignment? hold hb⟩
    · exact Or.inl (List.mem_singleton.1 hb)
  | some old =>
    obtain ⟨hmem, hpair⟩ := mem_of_assignment? hold
    rw [hold] at hb
    obtain ⟨b, hbmem, rfl⟩ := List.mem_map.1 hb
    split
    · exact Or.inl rfl
    · rename_i hne
      refine Or.inr ⟨hbmem, fun h' => hne ?_⟩
      rw [hid old hold, h.assignment_eq_of_pair hbmem hmem (h'.trans hpair.symm)]

end Store

theorem AssignRequest.terms?_of_row {r : AssignRequest} {s : Store} {walletId strategyId : Int}
    {markets : List Text} {a : Assignment} (hmarkets : r.check = .ok markets)
    (h : r.row (s.assignment? walletId strategyId)
      (s.blankAssignment walletId strategyId) markets = .ok a) :
    r.terms? = some a.terms ∧ a.pair = (walletId, strategyId) ∧
      ∀ old, s.assignment? walletId strategyId = some old → a.id = old.id := by
  obtain ⟨limit, paper, hlimit, hpaper, rfl⟩ := row_eq h
  refine ⟨by simp [terms?, hmarkets, hlimit, hpaper, Assignment.terms], ?_, ?_⟩
  · cases hold : s.assignment? walletId strategyId with
    | none => rfl
    | some old => exact (Store.mem_of_assignment? hold).2
  · intro old hold
    rw [hold]
    rfl

namespace Operation.Done

variable {d : Desk σ} {o : Operation} {r : Result} {s' : Store}

theorem graph (h : o.Done d r s') {row : Strategy} (hrow : row ∈ s'.strategies) :
    (∃ save, o.graphSave? d row.id r = some (some save) ∧ save.kept = row.graph) ∨
      o.graphSave? d row.id r = none ∧
        ∃ old ∈ d.store.strategies, old.id = row.id ∧ old.graph = row.graph := by
  have hstays : s'.strategies.map (fun r => (r.id, r.graph)) =
      d.store.strategies.map (fun r => (r.id, r.graph)) →
      ∃ old ∈ d.store.strategies, old.id = row.id ∧ old.graph = row.graph := by
    intro hmap
    obtain ⟨old, hold, heq⟩ := Store.exists_of_strategies hmap hrow
    exact ⟨old, hold, congrArg Prod.fst heq, congrArg Prod.snd heq⟩
  cases h with
  | createStrategy ha hr =>
    obtain ⟨hid, hgraph, -⟩ := Desk.newStrategy_eq hr
    rcases List.mem_append.1 hrow with hrow | hrow
    · -- The new row has an id that no other row has.
      have hne : row.id < d.store.nextStrategyId := lt_nextId (List.mem_map_of_mem hrow)
      refine Or.inr ⟨?_, row, hrow, rfl, rfl⟩
      simp only [graphSave?, ha]
      rw [if_neg (by omega)]
    · rw [List.mem_singleton.1 hrow]
      exact Or.inl ⟨⟨_, none⟩, by simp only [graphSave?, ha, ↓reduceIte],
        (congrArg Prod.snd hgraph).symm⟩
  | updateStrategy hold ha hnew =>
    have hfind := Store.strategy?_of_find hold
    obtain ⟨hmem, hid⟩ := Store.mem_of_strategy? hfind
    obtain ⟨name, description, rfl⟩ := Desk.revised_eq hnew
    rcases Desk.acceptGiven_cases ha with ⟨rfl, rfl⟩ | ⟨g, a, rfl, rfl, hb⟩
    · refine Or.inr ⟨rfl, ?_⟩
      rcases Desk.mem_revise hrow with rfl | ⟨hrow, -⟩
      · -- The graph is compared with itself, so it stays whatever comes of it.
        exact ⟨_, hmem, rfl, (ite_self _).symm⟩
      · exact ⟨row, hrow, rfl, rfl⟩
    · rcases Desk.mem_revise hrow with rfl | ⟨hrow, hne⟩
      · refine Or.inl ⟨⟨_, some _⟩, ?_, rfl⟩
        simp only [graphSave?, hb, hfind]
        exact if_pos hid.symm
      · refine Or.inr ⟨?_, row, hrow, rfl, rfl⟩
        simp only [graphSave?, hb]
        rw [if_neg (fun h => hne (by rw [hid, h]))]
  | deleteStrategy =>
    obtain ⟨hrow, hid⟩ := List.mem_filter.1 hrow
    refine Or.inr ⟨if_neg ?_, row, hrow, rfl, rfl⟩
    rw [bne_iff_ne] at hid
    exact hid.symm
  | deleteWallet =>
    exact Or.inr ⟨rfl, hstays (Store.strategies_withoutWallet (fun _ _ => rfl) _ _)⟩
  | assignStrategy => exact Or.inr ⟨rfl, hstays (by rw [Store.strategies_place])⟩
  | unassignStrategy =>
    exact Or.inr ⟨rfl, hstays (Store.strategies_withoutAssignment (fun _ _ => rfl) _ _)⟩
  | activate => exact Or.inr ⟨rfl, hstays (Store.strategies_start (fun _ _ => rfl) _ _)⟩
  | deactivate => exact Or.inr ⟨rfl, hstays (Store.strategies_stop (fun _ _ => rfl) _ _)⟩
  | addWallet | noWallet | setWalletStatus | getStrategy | haltStrategy | haltWallet | kill
  | unkill | hasRunning => exact Or.inr ⟨rfl, row, hrow, rfl, rfl⟩

theorem terms (h : o.Done d r s') (hs : d.store.Sound) {a : Assignment}
    (ha : a ∈ s'.assignments) :
    o.termsSave? a.pair = some (some a.terms) ∨
      o.termsSave? a.pair = none ∧
        ∃ old ∈ d.store.assignments, old.pair = a.pair ∧ old.terms = a.terms := by
  cases h with
  | assignStrategy _ _ hmarkets hrow =>
    obtain ⟨hterms, hpair, hid⟩ := AssignRequest.terms?_of_row hmarkets hrow
    rcases hs.toLinked.mem_place hid ha with rfl | ⟨ha, hne⟩
    · left
      rw [termsSave?, if_pos hpair.symm, hterms]
    · exact Or.inr ⟨if_neg hne.symm, a, ha, rfl, rfl⟩
  | deleteStrategy =>
    obtain ⟨ha, hid⟩ := List.mem_filter.1 ha
    rw [bne_iff_ne] at hid
    exact Or.inr ⟨if_neg hid.symm, a, ha, rfl, rfl⟩
  | deleteWallet =>
    rw [Store.withoutWallet, Store.assignments_refreshAll] at ha
    obtain ⟨ha, hid⟩ := List.mem_filter.1 ha
    rw [bne_iff_ne] at hid
    exact Or.inr ⟨if_neg hid.symm, a, ha, rfl, rfl⟩
  | unassignStrategy hold =>
    obtain ⟨hmem, hpair⟩ := Store.mem_of_assignment? (Store.assignment?_of_find hold)
    obtain ⟨ha, hid⟩ := List.mem_filter.1 ha
    rw [bne_iff_ne] at hid
    refine Or.inr ⟨if_neg fun h => hid ?_, a, ha, rfl, rfl⟩
    rw [hs.toLinked.assignment_eq_of_pair ha hmem (h.symm.trans hpair.symm)]
  | activate =>
    obtain ⟨b, hb, rfl | rfl⟩ := Store.mem_start ha <;> exact Or.inr ⟨rfl, _, hb, rfl, rfl⟩
  | deactivate =>
    obtain ⟨b, hb, rfl | rfl⟩ := Store.mem_stop ha <;> exact Or.inr ⟨rfl, _, hb, rfl, rfl⟩
  | addWallet | noWallet | setWalletStatus | getStrategy | createStrategy
  | updateStrategy | haltStrategy | haltWallet | kill | unkill | hasRunning =>
    exact Or.inr ⟨rfl, a, ha, rfl, rfl⟩

end Operation.Done

/-! ### Runs -/

/-- The rows of strategies and assignments hold what was last saved of them. -/
structure HoldsSaved (h : List (Event σ)) (s : Store) : Prop where
  graph : ∀ r ∈ s.strategies, (lastGraph r.id h).map GraphSave.kept = some r.graph
  terms : ∀ a ∈ s.assignments, lastTerms a.pair h = some a.terms

theorem HoldsSaved.run (e : Behaviour σ) {h : List (Event σ)} {d : Desk σ} (o : Operation)
    (hh : HoldsSaved h d.store) (hs : d.store.Sound) :
    HoldsSaved (h ++ [⟨d, o, o.run e d⟩]) (o.run e d).desk.store := by
  -- A failure saves nothing, and neither does it change a row.
  cases o.run_course e d with
  | refused hresult hstore | stopped hresult hstore =>
    rw [hstore]
    constructor
    · intro r hr
      rw [lastGraph, lastSaved_append, Event.graphSave?, hresult]
      exact hh.graph r hr
    · intro a ha
      rw [lastTerms, lastSaved_append, Event.termsSave?, hresult]
      exact hh.terms a ha
  | done hresult hdone =>
    constructor
    · intro r hr
      rw [lastGraph, lastSaved_append, Event.graphSave?, hresult]
      rcases hdone.graph hr with ⟨save, hsave, hkept⟩ | ⟨hsave, old, hold, hid, hgraph⟩
      · simp [hsave, hkept]
      · simp only [hsave, Option.getD_none]
        rw [← hid, ← hgraph]
        exact hh.graph old hold
    · intro a ha
      rw [lastTerms, lastSaved_append, Event.termsSave?, hresult]
      rcases hdone.terms hs ha with hsave | ⟨hsave, old, hold, hpair, hterms⟩
      · simp [hsave]
      · simp only [hsave, Option.getD_none]
        rw [← hpair, ← hterms]
        exact hh.terms old hold

theorem Desk.holdsSaved_run (e : Behaviour σ) (engine : σ) (ids : Form.Supply) (room : Room)
    (os : List Operation) :
    HoldsSaved ((Desk.fresh engine ids room).history e os)
      ((Desk.fresh engine ids room).run e os).store := by
  refine (Desk.sound_induction (motive := fun h d => HoldsSaved h d.store) e engine ids room
    ?_ ?_ os).2
  · constructor <;> simp [Desk.fresh, Store.empty]
  · intro h d o hs hh
    exact hh.run e o hs

def switched (enabled : Json) : Json :=
  .obj [("mode", .str "node"), ("nodes", .arr [.obj [("id", .str "n"), ("type", .str "input"),
    ("data", .obj [("enabled", enabled)])]])]

def switching (enabled : Json) : List Operation :=
  [.addWallet (some Wallet.deployed) none (some "key"),
    .createStrategy (some 1) (some "s") none (switched (.int 1)),
    .assignStrategy 1 1 ⟨.null, .int 100, .null⟩,
    .updateStrategy 1 none none (some (switched enabled))]

def Engine.obliging : Behaviour Unit := fun s _ => (.answered 200 .null, s)

end StrategyDesk
