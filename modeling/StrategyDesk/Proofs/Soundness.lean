import StrategyDesk.Proofs.Course
import StrategyDesk.Proofs.History
import StrategyDesk.Proofs.Running

/-!
The tables of every reachable desk fit together: assignments have both their sides and a pair of
their own, a start is noted exactly while an assignment runs, and a strategy is active exactly
while it runs on some wallet. Ids of removed rows are given again, and no assignment is left behind
that a new row could inherit.
-/

set_option autoImplicit false

namespace StrategyDesk
open Engine

variable {σ : Type}

theorem AssignRequest.row_eq {r : AssignRequest} {old : Option Assignment} {fresh a : Assignment}
    {markets : List Text} (h : r.row old fresh markets = .ok a) :
    ∃ limit paper, Limit.amount r.limit = .ok limit ∧ paperOf r.paper = .ok paper ∧
      a = { old.getD fresh with markets, limit, paper := paper.getD false } := by
  unfold row paperFor at h
  cases hlimit : Limit.amount r.limit with
  | error c => simp [hlimit, bind, Except.bind] at h
  | ok limit =>
    cases hpaper : paperOf r.paper with
    | error c => simp [hlimit, hpaper, bind, Except.bind] at h
    | ok paper =>
      refine ⟨limit, paper, rfl, rfl, ?_⟩
      cases paper with
      | some paper =>
        simp only [hlimit, hpaper, bind, Except.bind, pure, Except.pure, Except.ok.injEq] at h
        exact h.symm
      | none =>
        cases old with
        | none =>
          simp only [hlimit, hpaper, bind, Except.bind, pure, Except.pure, Except.ok.injEq] at h
          exact h.symm
        | some old =>
          simp [hlimit, hpaper, bind, Except.bind, throw, throwThe, MonadExceptOf.throw] at h

theorem Desk.newStrategy_eq {s : Store} {user : Option Int} {name description : Option Text}
    {a : Accepted} {r : Strategy} (h : Desk.newStrategy s user name description a = .ok r) :
    r.id = s.nextStrategyId ∧ (r.mode, r.graph) = (a.mode, a.graph) ∧ r.active = false := by
  unfold Desk.newStrategy at h
  simp only [bind, Except.bind, pure, Except.pure, throw, throwThe, MonadExceptOf.throw] at h
  grind

theorem Store.mem_place {s : Store} {walletId strategyId : Int} {a : Assignment}
    (hid : ∀ old, s.assignment? walletId strategyId = some old → a.id = old.id) :
    a ∈ (s.place (s.assignment? walletId strategyId) a).assignments := by
  cases hold : s.assignment? walletId strategyId with
  | none => exact List.mem_append_right _ (List.mem_singleton_self a)
  | some old =>
    exact List.mem_map.2
      ⟨old, (mem_of_assignment? hold).1, if_pos (hid old hold).symm⟩

theorem Desk.revised_eq {old new : Strategy} {name description : Option Text}
    {a : Option Accepted} (h : Desk.revised old name description a = .ok new) :
    ∃ name description, new = { old with
      name, description, mode := (a.map Accepted.mode).getD old.mode
      graph := (a.map Accepted.graph).getD old.graph } := by
  unfold Desk.revised at h
  simp only [bind, Except.bind, pure, Except.pure] at h
  grind

theorem Desk.acceptGiven_cases {room : Room} {next : Form.Supply} {g : Option Json}
    {a : Option Accepted} (h : Desk.acceptGiven room next g = .ok a) :
    (g = none ∧ a = none) ∨
      ∃ j b, g = some j ∧ a = some b ∧ Graph.accept room next j = .ok b := by
  cases g with
  | none =>
    cases h
    exact Or.inl ⟨rfl, rfl⟩
  | some j =>
    unfold acceptGiven at h
    cases hb : Graph.accept room next j with
    | error f => simp [hb, Except.map] at h
    | ok b =>
      simp only [hb, Except.map, Except.ok.injEq] at h
      exact Or.inr ⟨j, b, rfl, h.symm, hb⟩

theorem Desk.mem_revise {d : Desk σ} {old new row : Strategy}
    (h : row ∈ (d.revise old new).store.strategies) :
    row = Desk.keptRow old new ∨ row ∈ d.store.strategies ∧ row.id ≠ old.id := by
  obtain ⟨r, hr, rfl⟩ := List.mem_map.1 h
  split
  · exact Or.inl rfl
  · rename_i hid
    exact Or.inr ⟨hr, hid⟩

theorem Desk.strategyIds_revise {d : Desk σ} {old new : Strategy} (hid : new.id = old.id) :
    (d.revise old new).store.strategies.map Strategy.id = d.store.strategies.map Strategy.id :=
  Store.strategyIds_onStrategy fun _ _ _ => hid

namespace Store

theorem Sound.place {s : Store} (h : s.Sound) {walletId strategyId : Int} {w : Wallet}
    {r : Strategy} {request : AssignRequest} {markets : List Text} {a : Assignment}
    (hw : s.wallet? walletId = some w) (hr : s.strategy? strategyId = some r)
    (ha : request.row (s.assignment? walletId strategyId)
      (s.blankAssignment walletId strategyId) markets = .ok a) :
    (s.place (s.assignment? walletId strategyId) a).Sound := by
  cases hold : s.assignment? walletId strategyId with
  | some old =>
    rw [hold] at ha
    obtain ⟨limit, paper, -, -, rfl⟩ := AssignRequest.row_eq ha
    change (s.onAssignment old.id _).Sound
    exact h.onAssignment (mem_of_assignment? hold).1 rfl rfl rfl rfl
  | none =>
    rw [hold] at ha
    obtain ⟨limit, paper, -, -, rfl⟩ := AssignRequest.row_eq ha
    obtain ⟨hwmem, hwid⟩ := mem_of_wallet? hw
    obtain ⟨hrmem, hrid⟩ := mem_of_strategy? hr
    exact h.addAssignment rfl (fun b hb => pair_ne_of_assignment? hold hb)
      (List.mem_map.2 ⟨w, hwmem, hwid⟩) (List.mem_map.2 ⟨r, hrmem, hrid⟩) rfl rfl

end Store

theorem Operation.Done.sound {d : Desk σ} {o : Operation} {r : Result} {s : Store}
    (h : o.Done d r s) (hs : d.store.Sound) : s.Sound := by
  cases h with
  | addWallet => exact hs.addWallet rfl
  | setWalletStatus => exact hs.onWallet fun _ => rfl
  | createStrategy _ hr =>
    obtain ⟨hid, -, hactive⟩ := Desk.newStrategy_eq hr
    exact hs.addStrategy hid hactive
  | updateStrategy hold _ hnew =>
    obtain ⟨name, description, rfl⟩ := Desk.revised_eq hnew
    exact hs.onStrategy (Store.mem_of_strategy? (Store.strategy?_of_find hold)).1 rfl rfl
  | deleteStrategy => exact hs.dropStrategy _
  | deleteWallet => exact hs.withoutWallet _
  | assignStrategy hw hr _ ha =>
    exact hs.place (Store.wallet?_of_find hw) (Store.strategy?_of_find hr) ha
  | unassignStrategy ha =>
    exact hs.withoutAssignment (Store.mem_of_assignment? (Store.assignment?_of_find ha)).1
  | activate => exact hs.start _
  | deactivate => exact hs.stop _
  | noWallet | getStrategy | haltStrategy | haltWallet | kill | unkill | hasRunning => exact hs

theorem Operation.sound_run (e : Behaviour σ) {d : Desk σ} (o : Operation)
    (hs : d.store.Sound) : (o.run e d).desk.store.Sound := by
  cases o.run_course e d with
  | refused _ hstore | stopped _ hstore =>
    rw [hstore]
    exact hs
  | done _ hdone => exact hdone.sound hs

theorem Desk.sound_induction {motive : List (Event σ) → Desk σ → Prop} (e : Behaviour σ)
    (engine : σ) (ids : Form.Supply) (room : Room) (fresh : motive [] (Desk.fresh engine ids room))
    (event : ∀ (h : List (Event σ)) (d : Desk σ) (o : Operation), d.store.Sound → motive h d →
      motive (h ++ [⟨d, o, o.run e d⟩]) (o.run e d).desk) (os : List Operation) :
    ((Desk.fresh engine ids room).run e os).store.Sound ∧
      motive ((Desk.fresh engine ids room).history e os) ((Desk.fresh engine ids room).run e os) :=
  Desk.history_induction (motive := fun h d => d.store.Sound ∧ motive h d) e engine ids room
    ⟨Store.Sound.empty, fresh⟩
    (fun h d o ih => ⟨o.sound_run e ih.1, event h d o ih.1 ih.2⟩) os

theorem Desk.sound_run (e : Behaviour σ) (engine : σ) (ids : Form.Supply) (room : Room)
    (os : List Operation) :
    ((Desk.fresh engine ids room).run e os).store.Sound :=
  (Desk.sound_induction (motive := fun _ _ => True) e engine ids room trivial
    (fun _ _ _ _ _ => trivial) os).1

/-! ### Starts that are sent -/

theorem Operation.activation_of_mem_calls {s : Store} {o : Operation} {w id : Int} {t : Terms}
    (h : Call.activate w id t ∈ o.calls s) :
    ∃ r a, s.strategy? id = some r ∧ a ∈ s.assignments ∧ a.pair = (w, id) ∧ t = s.termsOf r a := by
  cases o with
  | activate id' =>
    simp only [calls] at h
    split at h
    · rename_i r hr
      obtain ⟨a, ha, hcall⟩ := List.mem_map.1 h
      simp only [Store.activation, Call.activate.injEq] at hcall
      obtain ⟨rfl, rfl, rfl⟩ := hcall
      have hid := (Store.mem_of_strategy? hr).2
      obtain ⟨hmem, hsid, -⟩ := Store.mem_of_stoppedOf ha
      exact ⟨r, a, hid ▸ hr, hmem, by rw [Assignment.pair, hsid, hid], rfl⟩
    · cases h
  | deactivate | haltStrategy | deleteStrategy | haltWallet | deleteWallet | kill | unkill =>
    obtain ⟨a, -, ha⟩ := List.mem_map.1 h
    cases ha
  | unassignStrategy w' id' =>
    simp only [calls] at h
    split at h
    · split at h
      · cases List.mem_singleton.1 h
      · cases h
    · cases h
  | _ => cases h

theorem Operation.key_of_mem_sent {e : Behaviour σ} {d : Desk σ} {o : Operation} {x : Exchange}
    {w id : Int} {t : Terms} (hs : d.store.Sound) (hx : x ∈ (o.run e d).sent)
    (hcall : x.call = .activate w id t) :
    ∃ row, d.store.wallet? w = some row ∧ t.privateKey = row.privateKey := by
  have hmem : Call.activate w id t ∈ o.calls d.store := by
    rcases mem_calls_of_sent hx with hmem | hverb
    · exact hcall ▸ hmem
    · rw [hcall] at hverb
      cases hverb
  obtain ⟨r, a, -, ha, hpair, rfl⟩ := activation_of_mem_calls hmem
  have hw : a.walletId = w := congrArg Prod.fst hpair
  obtain ⟨row, hrow⟩ := Store.exists_wallet? (hs.hasWallet a ha)
  exact ⟨row, hw ▸ hrow, by simp [Store.termsOf, hrow]⟩

/-! ### Ids do not outgrow the operations -/

theorem foldl_max_le {ids : List Int} {m n : Int} (hm : m ≤ n) (h : ∀ i ∈ ids, i ≤ n) :
    ids.foldl max m ≤ n := by
  induction ids generalizing m with
  | nil => exact hm
  | cons i ids ih =>
    have hi := h i List.mem_cons_self
    exact ih (Int.max_le.2 ⟨hm, hi⟩) fun j hj => h j (List.mem_cons_of_mem _ hj)

theorem nextId_le {ids : List Int} {n : Int} (hn : 0 ≤ n) (h : ∀ i ∈ ids, i ≤ n) :
    nextId ids ≤ n + 1 := by
  have := foldl_max_le hn h
  unfold nextId
  omega

theorem Operation.Done.strategyIds {d : Desk σ} {o : Operation} {r : Result} {s : Store}
    (h : o.Done d r s) {id : Int} (hid : id ∈ s.strategies.map Strategy.id) :
    id ∈ d.store.strategies.map Strategy.id ∨ id = d.store.nextStrategyId := by
  cases h with
  | createStrategy _ hr =>
    simp only [Store.addStrategy, List.map_append, List.mem_append] at hid
    rcases hid with hid | hid
    · exact Or.inl hid
    · simp only [List.map_cons, List.map_nil, List.mem_singleton] at hid
      exact Or.inr (by rw [hid, (Desk.newStrategy_eq hr).1])
  | updateStrategy _ _ hnew =>
    obtain ⟨name, description, rfl⟩ := Desk.revised_eq hnew
    rw [Desk.strategyIds_revise (by rfl)] at hid
    exact Or.inl hid
  | deleteStrategy => exact Or.inl ((List.filter_sublist.map _).subset hid)
  | deleteWallet =>
    exact Or.inl (Store.strategies_withoutWallet (g := Strategy.id) (fun _ _ => rfl) _ _ ▸ hid)
  | assignStrategy => exact Or.inl (Store.strategies_place _ _ _ ▸ hid)
  | unassignStrategy =>
    exact Or.inl (Store.strategies_withoutAssignment (g := Strategy.id) (fun _ _ => rfl) _ _ ▸ hid)
  | activate =>
    exact Or.inl (Store.strategies_start (g := Strategy.id) (fun _ _ => rfl) _ _ ▸ hid)
  | deactivate =>
    exact Or.inl (Store.strategies_stop (g := Strategy.id) (fun _ _ => rfl) _ _ ▸ hid)
  | _ => exact Or.inl hid

theorem Desk.strategyId_bounds (e : Behaviour σ) (engine : σ) (ids : Form.Supply) (room : Room)
    (os : List Operation) :
    ∀ id ∈ ((Desk.fresh engine ids room).run e os).store.strategies.map Strategy.id,
      0 < id ∧ id ≤ os.length := by
  have hbounds := Desk.history_induction
    (motive := fun h d => ∀ id ∈ d.store.strategies.map Strategy.id, 0 < id ∧ id ≤ h.length)
    e engine ids room (fun id hid => by simp [Desk.fresh, Store.empty] at hid)
    (fun h d o ih id hid => ?_) os
  · rwa [Desk.length_history] at hbounds
  · rw [List.length_append, List.length_singleton]
    have hold : id ∈ d.store.strategies.map Strategy.id →
        0 < id ∧ id ≤ ((h.length + 1 : Nat) : Int) := by
      intro hid
      have := ih id hid
      omega
    cases o.run_course e d with
    | refused _ hstore | stopped _ hstore =>
      rw [hstore] at hid
      exact hold hid
    | done _ hdone =>
      rcases hdone.strategyIds hid with hid | rfl
      · exact hold hid
      · have hpos := nextId_pos (d.store.strategies.map Strategy.id)
        have hle := nextId_le (Int.natCast_nonneg h.length) fun id hid => (ih id hid).2
        rw [Store.nextStrategyId]
        omega

/-- The tables of a reachable desk: both sides of every assignment are there, no pair is assigned
twice, a start is noted exactly while an assignment runs, and a strategy is active exactly while
one of its assignments runs. That is also what is told about it, as long as the run has not given
out an id that cannot be looked up. -/
theorem reachable_tables (e : Behaviour σ) (engine : σ) (ids : Form.Supply) (room : Room)
    (os : List Operation) :
    let d := (Desk.fresh engine ids room).run e os
    (∀ a ∈ d.store.assignments, (∃ w ∈ d.store.wallets, w.id = a.walletId) ∧
      ∃ r ∈ d.store.strategies, r.id = a.strategyId) ∧
    d.store.assignments.Pairwise
      (fun a b => ¬ (a.walletId = b.walletId ∧ a.strategyId = b.strategyId)) ∧
    (∀ a ∈ d.store.assignments, a.started = true ↔ a.running = true) ∧
    (∀ r ∈ d.store.strategies, r.active = true ↔
      ∃ a ∈ d.store.assignments, a.strategyId = r.id ∧ a.running = true) ∧
    ((os.length : Int) < Desk.idBound → ∀ r ∈ d.store.strategies,
      ((Operation.hasRunning r.id).run e d).result = .ok (.flag r.active)) := by
  intro d
  have hs : d.store.Sound := Desk.sound_run e engine ids room os
  refine ⟨fun a ha => ⟨?_, ?_⟩, ?_, fun a ha => ?_, fun r hr => ?_, fun hlength r hr => ?_⟩
  · exact List.mem_map.1 (hs.hasWallet a ha)
  · exact List.mem_map.1 (hs.hasStrategy a ha)
  · refine (List.pairwise_map.1 hs.pairs).imp fun hne hpair => hne ?_
    rw [Assignment.pair, Assignment.pair, hpair.1, hpair.2]
  · rw [hs.started a ha]
  · rw [hs.active r hr, Store.hasRunning_iff]
  · have hbounds := Desk.strategyId_bounds e engine ids room os r.id (List.mem_map_of_mem hr)
    have hid : Desk.isStorable r.id = true := by
      rw [Desk.isStorable, decide_eq_true_eq]
      omega
    rw [Desk.run_eq, Operation.ending, Desk.hasRunning, if_pos hid, hs.active r hr]
    rfl

end StrategyDesk
