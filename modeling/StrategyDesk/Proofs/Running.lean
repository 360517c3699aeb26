import StrategyDesk.Proofs.Tables

set_option autoImplicit false

namespace StrategyDesk.Store

/-- Whether the tables show a pair as running. -/
def Runs (s : Store) (p : Int × Int) : Prop :=
  ∃ a ∈ s.assignments, a.pair = p ∧ a.running = true

variable {s s' : Store}

section Pairs

variable {p : Int × Int}

theorem runs_congr (h : s'.assignments = s.assignments) : s'.Runs p ↔ s.Runs p := by
  rw [Runs, Runs, h]

theorem mem_pairs_runningOf {id : Int} :
    p ∈ (s.runningOf id).map Assignment.pair ↔ s.Runs p ∧ p.2 = id := by
  simp only [runningOf, ofStrategy, List.mem_map, List.mem_filter, beq_iff_eq, Runs]
  constructor
  · intro hex
    obtain ⟨a, ⟨⟨ha, hid⟩, hrun⟩, rfl⟩ := hex
    exact ⟨⟨a, ha, rfl, hrun⟩, hid⟩
  · intro hex
    obtain ⟨⟨a, ha, rfl, hrun⟩, hid⟩ := hex
    exact ⟨a, ⟨⟨ha, hid⟩, hrun⟩, rfl⟩

theorem mem_pairs_runningOn {id : Int} :
    p ∈ (s.runningOn id).map Assignment.pair ↔ s.Runs p ∧ p.1 = id := by
  simp only [runningOn, ofWallet, List.mem_map, List.mem_filter, beq_iff_eq, Runs]
  constructor
  · intro hex
    obtain ⟨a, ⟨⟨ha, hid⟩, hrun⟩, rfl⟩ := hex
    exact ⟨⟨a, ha, rfl, hrun⟩, hid⟩
  · intro hex
    obtain ⟨⟨a, ha, rfl, hrun⟩, hid⟩ := hex
    exact ⟨a, ⟨⟨ha, hid⟩, hrun⟩, rfl⟩

theorem mem_of_stoppedOf {id : Int} {a : Assignment} (h : a ∈ s.stoppedOf id) :
    a ∈ s.assignments ∧ a.strategyId = id ∧ a.running = false := by
  simp only [stoppedOf, ofStrategy, List.mem_filter, beq_iff_eq, Bool.not_eq_true'] at h
  exact ⟨h.1.1, h.1.2, h.2⟩

theorem Linked.not_runs (h : s.Linked) {a : Assignment} (ha : a ∈ s.assignments)
    (hstopped : a.running = false) : ¬ s.Runs a.pair := by
  intro hex
  obtain ⟨b, hb, hpair, hrun⟩ := hex
  rw [h.assignment_eq_of_pair hb ha hpair, hstopped] at hrun
  cases hrun

theorem runs_start (s : Store) (id : Int) :
    (s.start id).Runs p ↔ s.Runs p ∨ p ∈ (s.stoppedOf id).map Assignment.pair := by
  simp only [start, refreshActive, onStrategy, onAssignmentsOf, Runs, stoppedOf, ofStrategy,
    List.mem_map, List.mem_filter, beq_iff_eq, Bool.not_eq_true']
  constructor
  · intro hex
    obtain ⟨-, ⟨a, ha, rfl⟩, hpair, hrun⟩ := hex
    by_cases hid : a.strategyId = id
    · cases hr : a.running with
      | true =>
        simp only [hid, hr, ↓reduceIte] at hpair
        exact Or.inl ⟨a, ha, hpair, hr⟩
      | false =>
        simp only [hid, hr, ↓reduceIte, Bool.false_eq_true] at hpair
        exact Or.inr ⟨a, ⟨⟨ha, hid⟩, hr⟩, hpair⟩
    · simp only [hid, ↓reduceIte] at hpair hrun
      exact Or.inl ⟨a, ha, hpair, hrun⟩
  · intro hex
    rcases hex with ⟨a, ha, hpair, hrun⟩ | ⟨a, ⟨⟨ha, hid⟩, hrun⟩, hpair⟩
    · exact ⟨a, ⟨a, ha, by simp [hrun]⟩, hpair, hrun⟩
    · exact ⟨a.start, ⟨a, ha, by simp [hid, hrun]⟩, hpair, rfl⟩

theorem runs_stop (s : Store) (id : Int) :
    (s.stop id).Runs p ↔ s.Runs p ∧ p ∉ (s.runningOf id).map Assignment.pair := by
  rw [mem_pairs_runningOf]
  simp only [stop, onStrategy, onAssignmentsOf, Runs, List.mem_map]
  constructor
  · intro hex
    obtain ⟨-, ⟨a, ha, rfl⟩, hpair, hrun⟩ := hex
    by_cases hid : a.strategyId = id
    · cases hr : a.running with
      | true =>
        simp only [hid, hr, ↓reduceIte, Assignment.stop] at hrun
        cases hrun
      | false =>
        simp only [hid, hr, ↓reduceIte, Bool.false_eq_true] at hrun
    · simp only [hid, ↓reduceIte] at hpair hrun
      have hne : p.2 ≠ id := by
        rw [← hpair]
        exact hid
      exact ⟨⟨a, ha, hpair, hrun⟩, fun h => hne h.2⟩
  · intro hex
    obtain ⟨⟨a, ha, hpair, hrun⟩, hnot⟩ := hex
    have hid : a.strategyId ≠ id := fun h => hnot ⟨⟨a, ha, hpair, hrun⟩, by rw [← hpair]; exact h⟩
    exact ⟨a, ⟨a, ha, by simp [hid]⟩, hpair, hrun⟩

theorem runs_filter {keep : Assignment → Bool} {gone : List (Int × Int)}
    (h : s'.assignments = s.assignments.filter keep)
    (hgone : ∀ a ∈ s.assignments, a.running = true → (keep a = true ↔ a.pair ∉ gone)) :
    s'.Runs p ↔ s.Runs p ∧ p ∉ gone := by
  simp only [Runs, h, List.mem_filter]
  constructor
  · intro hex
    obtain ⟨a, ⟨ha, hkeep⟩, rfl, hrun⟩ := hex
    exact ⟨⟨a, ha, rfl, hrun⟩, (hgone a ha hrun).1 hkeep⟩
  · intro hex
    obtain ⟨⟨a, ha, rfl, hrun⟩, hnot⟩ := hex
    exact ⟨a, ⟨ha, (hgone a ha hrun).2 hnot⟩, rfl, hrun⟩

theorem runs_dropStrategy (s : Store) (id : Int) :
    (s.dropStrategy id).Runs p ↔ s.Runs p ∧ p ∉ (s.runningOf id).map Assignment.pair := by
  refine runs_filter rfl fun a ha hrun => ?_
  have hruns : s.Runs a.pair := ⟨a, ha, rfl, hrun⟩
  rw [bne_iff_ne, mem_pairs_runningOf]
  exact not_congr (and_iff_right hruns).symm

theorem runs_withoutWallet (s : Store) (id : Int) :
    (s.withoutWallet id).Runs p ↔ s.Runs p ∧ p ∉ (s.runningOn id).map Assignment.pair := by
  refine runs_filter (assignments_refreshAll _) fun a ha hrun => ?_
  have hruns : s.Runs a.pair := ⟨a, ha, rfl, hrun⟩
  rw [bne_iff_ne, mem_pairs_runningOn]
  exact not_congr (and_iff_right hruns).symm

theorem Linked.runs_withoutAssignment (h : s.Linked) {a : Assignment} (ha : a ∈ s.assignments) :
    (s.withoutAssignment a).Runs p ↔
      s.Runs p ∧ p ∉ (if a.running then [a] else []).map Assignment.pair := by
  refine runs_filter rfl fun b hb hrun => ?_
  rw [bne_iff_ne]
  cases hr : a.running with
  | true =>
    simp only [↓reduceIte, List.map_cons, List.map_nil, List.mem_singleton]
    exact not_congr ⟨fun hid => by rw [h.assignment_eq hb ha hid],
      fun hpair => by rw [h.assignment_eq_of_pair hb ha hpair]⟩
  | false =>
    have hne : b.id ≠ a.id := fun hid => by
      rw [h.assignment_eq hb ha hid, hr] at hrun
      cases hrun
    simp [hne]

theorem runs_addAssignment {a : Assignment} (hstopped : a.running = false) :
    (s.addAssignment a).Runs p ↔ s.Runs p := by
  simp only [addAssignment, Runs, List.mem_append, List.mem_singleton]
  constructor
  · intro hex
    obtain ⟨b, hb | rfl, hpair, hrun⟩ := hex
    · exact ⟨b, hb, hpair, hrun⟩
    · rw [hstopped] at hrun
      cases hrun
  · intro hex
    obtain ⟨b, hb, hpair, hrun⟩ := hex
    exact ⟨b, Or.inl hb, hpair, hrun⟩

theorem Linked.runs_onAssignment (h : s.Linked) {old new : Assignment}
    (hold : old ∈ s.assignments) (hpair : new.pair = old.pair)
    (hrunning : new.running = old.running) :
    (s.onAssignment old.id fun _ => new).Runs p ↔ s.Runs p := by
  simp only [Store.onAssignment, Runs, List.mem_map]
  constructor
  · intro hex
    obtain ⟨-, ⟨a, ha, rfl⟩, hap, har⟩ := hex
    by_cases hid : a.id = old.id
    · simp only [hid, ↓reduceIte] at hap har
      exact ⟨old, hold, hpair ▸ hap, hrunning ▸ har⟩
    · simp only [hid, ↓reduceIte] at hap har
      exact ⟨a, ha, hap, har⟩
  · intro hex
    obtain ⟨a, ha, hap, har⟩ := hex
    by_cases hid : a.id = old.id
    · rw [h.assignment_eq ha hold hid] at hap har
      exact ⟨new, ⟨old, hold, if_pos rfl⟩, hpair.trans hap, hrunning.trans har⟩
    · exact ⟨a, ⟨a, ha, if_neg hid⟩, hap, har⟩

end Pairs

/-! ### Strategies that run -/

theorem hasRunning_iff {id : Int} :
    s.hasRunning id = true ↔ ∃ a ∈ s.assignments, a.strategyId = id ∧ a.running = true := by
  simp [hasRunning, ofStrategy]

theorem hasRunning_iff_runs {id : Int} : s.hasRunning id = true ↔ ∃ w, s.Runs (w, id) := by
  rw [hasRunning_iff]
  constructor
  · intro hex
    obtain ⟨a, ha, rfl, hrun⟩ := hex
    exact ⟨a.walletId, a, ha, rfl, hrun⟩
  · intro hex
    obtain ⟨w, a, ha, hpair, hrun⟩ := hex
    exact ⟨a, ha, congrArg Prod.snd hpair, hrun⟩

theorem hasRunning_congr {id : Int} (h : ∀ w, s'.Runs (w, id) ↔ s.Runs (w, id)) :
    s'.hasRunning id = s.hasRunning id := by
  rw [Bool.eq_iff_iff, hasRunning_iff_runs, hasRunning_iff_runs]
  exact exists_congr h

/-- Strategies are active exactly while they run, but for those with an excepted id. -/
def ActiveBut (s : Store) (excepted : Int → Prop) : Prop :=
  ∀ r ∈ s.strategies, ¬ excepted r.id → r.active = s.hasRunning r.id

/-- Linked tables in which every strategy is active exactly while it runs. -/
structure Sound (s : Store) : Prop extends Linked s where
  active : ∀ r ∈ s.strategies, r.active = s.hasRunning r.id

section Active

variable {p q : Int → Prop}

theorem ActiveBut.mono (h : s.ActiveBut p) (hpq : ∀ i, p i → q i) : s.ActiveBut q :=
  fun r hr hq => h r hr fun hp => hq (hpq _ hp)

theorem ActiveBut.refreshActive (h : s.ActiveBut p) (id : Int) :
    (s.refreshActive id).ActiveBut fun i => p i ∧ i ≠ id := by
  intro r' hr' hp
  obtain ⟨r, hr, rfl⟩ := List.mem_map.1 hr'
  by_cases hid : r.id = id
  · subst hid
    simp only [↓reduceIte]
    rfl
  · simp only [hid, ↓reduceIte] at hp ⊢
    exact h r hr fun h => hp ⟨h, hid⟩

theorem ActiveBut.refreshAll {ids : List Int} (h : s.ActiveBut (· ∈ ids)) :
    (ids.foldl Store.refreshActive s).ActiveBut fun _ => False := by
  induction ids generalizing s with
  | nil => exact h.mono fun i hi => by simp at hi
  | cons id ids ih =>
    refine ih ((h.refreshActive id).mono fun i hi => ?_)
    rcases List.mem_cons.1 hi.1 with hid | hi'
    · exact absurd hid hi.2
    · exact hi'

theorem sound_of_activeBut (h : s.Linked) (ha : s.ActiveBut fun _ => False) : s.Sound :=
  ⟨h, fun r hr => ha r hr id⟩

theorem Sound.activeBut {s' : Store} (h : s.Sound)
    (hs : ∀ r ∈ s'.strategies, ¬ p r.id → r ∈ s.strategies)
    (hrun : ∀ i, ¬ p i → s'.hasRunning i = s.hasRunning i) : s'.ActiveBut p := by
  intro r hr hp
  rw [hrun r.id hp]
  exact h.active r (hs r hr hp)

end Active

/-! ### Sound tables stay sound -/

namespace Sound

theorem empty : Store.empty.Sound :=
  ⟨Linked.empty, by simp [Store.empty]⟩

theorem addWallet (h : s.Sound) {w : Wallet} (hid : w.id = s.nextWalletId) :
    (s.addWallet w).Sound :=
  ⟨h.toLinked.addWallet hid, h.active⟩

theorem onWallet (h : s.Sound) {id : Int} {f : Wallet → Wallet} (hf : ∀ w, (f w).id = w.id) :
    (s.onWallet id f).Sound := by
  refine ⟨h.toLinked.of_ids ?_ rfl rfl, h.active⟩
  simp only [Store.onWallet, List.map_map]
  refine List.map_congr_left fun w _ => ?_
  by_cases hid : w.id = id <;> simp [hid, hf]

theorem addStrategy (h : s.Sound) {r : Strategy} (hid : r.id = s.nextStrategyId)
    (hactive : r.active = false) : (s.addStrategy r).Sound := by
  refine ⟨h.toLinked.addStrategy hid, fun r' hr' => ?_⟩
  rcases List.mem_append.1 hr' with hr' | hr'
  · exact h.active r' hr'
  · rw [List.mem_singleton.1 hr', hactive]
    -- No assignment refers to an id that was not given yet.
    have hidle : s.hasRunning r.id = false := by
      rw [Bool.eq_false_iff, ne_eq, hasRunning_iff]
      intro hex
      obtain ⟨a, ha, hs, -⟩ := hex
      have := lt_nextId (h.hasStrategy a ha)
      rw [hs, hid, nextStrategyId] at this
      omega
    exact hidle.symm

theorem onStrategy (h : s.Sound) {old new : Strategy} (hold : old ∈ s.strategies)
    (hid : new.id = old.id) (hactive : new.active = old.active) :
    (s.onStrategy old.id fun _ => new).Sound := by
  refine ⟨h.toLinked.onStrategy fun _ _ _ => hid, fun r' hr' => ?_⟩
  obtain ⟨r, hr, rfl⟩ := List.mem_map.1 hr'
  by_cases hr_id : r.id = old.id
  · simp only [hr_id, ↓reduceIte, hid, hactive]
    exact h.active old hold
  · simp only [hr_id, ↓reduceIte]
    exact h.active r hr

theorem addAssignment (h : s.Sound) {a : Assignment} (hid : a.id = s.nextAssignmentId)
    (hpair : ∀ b ∈ s.assignments, b.pair ≠ a.pair) (hw : a.walletId ∈ s.wallets.map Wallet.id)
    (hs : a.strategyId ∈ s.strategies.map Strategy.id) (hstopped : a.running = false)
    (hstarted : a.started = false) : (s.addAssignment a).Sound := by
  refine ⟨h.toLinked.addAssignment hid hpair hw hs (by rw [hstarted, hstopped]), fun r hr => ?_⟩
  have hrun : (s.addAssignment a).hasRunning r.id = s.hasRunning r.id :=
    hasRunning_congr fun w => runs_addAssignment hstopped
  rw [hrun]
  exact h.active r hr

theorem onAssignment (h : s.Sound) {old new : Assignment} (hold : old ∈ s.assignments)
    (hid : new.id = old.id) (hpair : new.pair = old.pair) (hrunning : new.running = old.running)
    (hstarted : new.started = old.started) : (s.onAssignment old.id fun _ => new).Sound := by
  refine ⟨h.toLinked.map_assignments _ fun a ha => ?_, fun r hr => ?_⟩
  · by_cases haid : a.id = old.id
    · rw [h.toLinked.assignment_eq ha hold haid]
      simp only [↓reduceIte]
      exact ⟨hid, hpair, by rw [hstarted, hrunning, h.started old hold]⟩
    · simp only [haid, ↓reduceIte]
      exact ⟨trivial, trivial, h.started a ha⟩
  · have hrun : (s.onAssignment old.id fun _ => new).hasRunning r.id = s.hasRunning r.id :=
      hasRunning_congr fun w => h.toLinked.runs_onAssignment hold hpair hrunning
    rw [hrun]
    exact h.active r hr

theorem linked_onAssignmentsOf (h : s.Sound) (id : Int) {g : Assignment → Assignment}
    (hg : ∀ a ∈ s.assignments, (g a).id = a.id ∧ (g a).pair = a.pair ∧
      (g a).started = (g a).running) : (s.onAssignmentsOf id g).Linked := by
  refine h.toLinked.map_assignments _ fun a ha => ?_
  by_cases haid : a.strategyId = id
  · simp only [haid, ↓reduceIte]
    exact hg a ha
  · simp only [haid, ↓reduceIte]
    exact ⟨trivial, trivial, h.started a ha⟩

theorem start (h : s.Sound) (id : Int) : (s.start id).Sound := by
  have hlinked := h.linked_onAssignmentsOf id (g := fun a => if a.running then a else a.start)
    fun a ha => by
      split
      · exact ⟨rfl, rfl, h.started a ha⟩
      · exact ⟨rfl, rfl, rfl⟩
  have hbut : (s.onAssignmentsOf id fun a => if a.running then a else a.start).ActiveBut
      (· = id) := by
    refine h.activeBut (fun _ hr _ => hr) fun i hi => hasRunning_congr fun w => ?_
    have hnot : (w, i) ∉ (s.stoppedOf id).map Assignment.pair := by
      intro hp
      obtain ⟨a, ha, hpair⟩ := List.mem_map.1 hp
      exact hi ((congrArg Prod.snd hpair).symm.trans (mem_of_stoppedOf ha).2.1)
    exact (runs_start s id).trans (or_iff_left hnot)
  exact sound_of_activeBut (hlinked.refreshActive id)
    ((hbut.refreshActive id).mono fun i hi => hi.2 hi.1)

theorem stop (h : s.Sound) (id : Int) : (s.stop id).Sound := by
  have hlinked := h.linked_onAssignmentsOf id (g := fun a => if a.running then a.stop else a)
    fun a ha => by
      split
      · exact ⟨rfl, rfl, rfl⟩
      · exact ⟨rfl, rfl, h.started a ha⟩
  refine ⟨hlinked.onStrategy fun _ _ hid => hid, fun r' hr' => ?_⟩
  obtain ⟨r, hr, rfl⟩ := List.mem_map.1 hr'
  by_cases hid : r.id = id
  · have hidle : (s.stop id).hasRunning id = false := by
      rw [Bool.eq_false_iff, ne_eq, hasRunning_iff_runs]
      intro hex
      obtain ⟨w, hw⟩ := hex
      obtain ⟨hruns, hnot⟩ := (runs_stop s id).1 hw
      exact hnot (mem_pairs_runningOf.2 ⟨hruns, rfl⟩)
    simp only [hid, ↓reduceIte]
    exact hidle.symm
  · simp only [hid, ↓reduceIte]
    have hrun : (s.stop id).hasRunning r.id = s.hasRunning r.id := by
      refine hasRunning_congr fun w => (runs_stop s id).trans (and_iff_left ?_)
      exact fun hp => hid (mem_pairs_runningOf.1 hp).2
    rw [hrun]
    exact h.active r hr

theorem dropStrategy (h : s.Sound) (id : Int) : (s.dropStrategy id).Sound := by
  refine ⟨h.toLinked.sublist (List.Sublist.refl _) List.filter_sublist List.filter_sublist
    fun a ha => ?_, fun r hr => ?_⟩
  · obtain ⟨ha, has⟩ := List.mem_filter.1 ha
    refine ⟨h.hasWallet a ha, ?_⟩
    obtain ⟨r, hr, hra⟩ := List.mem_map.1 (h.hasStrategy a ha)
    exact List.mem_map.2 ⟨r, List.mem_filter.2 ⟨hr, by rw [hra]; exact has⟩, hra⟩
  · obtain ⟨hr, hid⟩ := List.mem_filter.1 hr
    rw [bne_iff_ne] at hid
    have hrun : (s.dropStrategy id).hasRunning r.id = s.hasRunning r.id := by
      refine hasRunning_congr fun w => (runs_dropStrategy s id).trans (and_iff_left ?_)
      exact fun hp => hid (mem_pairs_runningOf.1 hp).2
    rw [hrun]
    exact h.active r hr

theorem withoutWallet (h : s.Sound) (id : Int) : (s.withoutWallet id).Sound := by
  have hlinked : (s.dropWallet id).Linked := by
    refine h.toLinked.sublist List.filter_sublist (List.Sublist.refl _) List.filter_sublist
      fun a ha => ?_
    obtain ⟨ha, haw⟩ := List.mem_filter.1 ha
    refine ⟨?_, h.hasStrategy a ha⟩
    obtain ⟨w, hw, hwa⟩ := List.mem_map.1 (h.hasWallet a ha)
    exact List.mem_map.2 ⟨w, List.mem_filter.2 ⟨hw, by rw [hwa]; exact haw⟩, hwa⟩
  -- Only strategies that had assignments of the wallet may stop running, and these are refreshed.
  have hassignments : (s.withoutWallet id).assignments = (s.dropWallet id).assignments :=
    assignments_refreshAll _
  have hbut : (s.dropWallet id).ActiveBut
      (· ∈ (s.ofWallet id).map Assignment.strategyId) := by
    refine h.activeBut (fun _ hr _ => hr) fun i hi => hasRunning_congr fun w => ?_
    rw [← runs_congr hassignments, runs_withoutWallet]
    refine and_iff_left fun hp => hi ?_
    simp only [runningOn, List.mem_map, List.mem_filter] at hp
    obtain ⟨a, ⟨ha, -⟩, hpair⟩ := hp
    exact List.mem_map.2 ⟨a, ha, congrArg Prod.snd hpair⟩
  exact sound_of_activeBut (hlinked.refreshAll _) hbut.refreshAll

theorem withoutAssignment (h : s.Sound) {a : Assignment} (ha : a ∈ s.assignments) :
    (s.withoutAssignment a).Sound := by
  have hlinked : (s.dropAssignment a.id).Linked := by
    refine h.toLinked.sublist (List.Sublist.refl _) (List.Sublist.refl _) List.filter_sublist
      fun b hb => ?_
    have hb := (List.mem_filter.1 hb).1
    exact ⟨h.hasWallet b hb, h.hasStrategy b hb⟩
  have hbut : (s.dropAssignment a.id).ActiveBut (· = a.strategyId) := by
    refine h.activeBut (fun _ hr _ => hr) fun i hi => hasRunning_congr fun w => ?_
    refine (h.toLinked.runs_withoutAssignment ha).trans (and_iff_left fun hp => hi ?_)
    split at hp
    · rw [List.map_cons, List.map_nil, List.mem_singleton] at hp
      exact congrArg Prod.snd hp
    · cases hp
  exact sound_of_activeBut (hlinked.refreshActive _)
    ((hbut.refreshActive a.strategyId).mono fun i hi => hi.2 hi.1)

end Sound

end StrategyDesk.Store
