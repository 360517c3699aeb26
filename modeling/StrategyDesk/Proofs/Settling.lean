import StrategyDesk.Graph.Acceptance

set_option autoImplicit false

namespace StrategyDesk
open Json

namespace Form

/-! ### Ids for single objects -/

theorem lacksId_giveId (next : Supply) (ms : Members) : lacksId (giveId next ms).1 = false := by
  unfold giveId
  split
  · rw [lacksId, look_put_self]
    exact next.nonempty 0
  · rename_i h
    simpa using h

theorem giveId_of_lacksId {ms : Members} (h : lacksId ms = false) (next : Supply) :
    giveId next ms = (ms, next) := by
  simp [giveId, h]

theorem find?_giveId {key : String} (h : key ≠ "id") (next : Supply) (ms : Members) :
    find? (giveId next ms).1 key = find? ms key := by
  unfold giveId
  split
  · rw [find?_put, if_neg (by simpa using h.symm)]
  · rfl

theorem look_giveId {key : String} (h : key ≠ "id") (next : Supply) (ms : Members) :
    look (giveId next ms).1 key = look ms key := by
  rw [look, find?_giveId h, look]

theorem membersHeight_giveId_le (next : Supply) (ms : Members) :
    membersHeight (giveId next ms).1 ≤ max (membersHeight ms) 1 := by
  unfold giveId
  split
  · exact membersHeight_put_le ms "id" (.str next.first)
  · exact Nat.le_max_left _ _

theorem membersWhole_giveId (next : Supply) {ms : Members} (h : membersWhole ms = true) :
    membersWhole (giveId next ms).1 = true := by
  unfold giveId
  split
  · exact membersWhole_put h rfl
  · exact h

/-! ### Ids for lists and for the members that hold them -/

/-- A step that leaves nothing for itself to do, is not seen by a check, tears no text, and makes
nothing higher than a bound that was not as high before. -/
structure Settles {ε : Type} (step : Supply → Json → Except Crash (Json × Supply))
    (check : Json → Check ε) (bound : Nat) : Prop where
  again {n m n' : Supply} {j j' : Json} : step n j = .ok (j', n') → step m j' = .ok (j', m)
  unseen {n n' : Supply} {j j' : Json} : step n j = .ok (j', n') → check j' = check j
  height {n n' : Supply} {j j' : Json} : step n j = .ok (j', n') → j'.height ≤ max j.height bound
  whole {n n' : Supply} {j j' : Json} : step n j = .ok (j', n') → j.allWhole = true →
    j'.allWhole = true

namespace Settles

variable {ε : Type} {step : Supply → Json → Except Crash (Json × Supply)} {check : Json → Check ε}
  {bound : Nat}

theorem items (hs : Settles step check bound) {n n' : Supply} {js js' : List Json}
    (h : throughItems step n js = .ok (js', n')) :
    (∀ m, throughItems step m js' = .ok (js', m)) ∧ js'.map check = js.map check ∧
      itemsHeight js' ≤ max (itemsHeight js) bound ∧
      (itemsWhole js = true → itemsWhole js' = true) := by
  induction js generalizing n js' with
  | nil =>
    cases h
    exact ⟨fun _ => rfl, rfl, Nat.le_max_left _ _, id⟩
  | cons j js ih =>
    simp only [throughItems] at h
    split at h
    · cases h
    · rename_i i k hj
      split at h
      · cases h
      · rename_i is l hjs
        cases h
        obtain ⟨hagain, hunseen, hheight, hwhole⟩ := ih hjs
        refine ⟨fun m => ?_, ?_, ?_, fun h => ?_⟩
        · simp only [throughItems, hs.again hj, hagain m]
        · rw [List.map_cons, List.map_cons, hs.unseen hj, hunseen]
        · have := hs.height hj
          simp only [itemsHeight]
          omega
        · rw [itemsWhole_iff, List.forall_mem_cons] at h ⊢
          exact ⟨hs.whole hj h.1, itemsWhole_iff.1 (hwhole (itemsWhole_iff.2 h.2))⟩

/-- What a step through a member leaves behind. -/
structure Member (step : Supply → Json → Except Crash (Json × Supply)) (check : Json → Check ε)
    (bound : Nat) (key : String) (ms ms' : Members) : Prop where
  again (m : Supply) : throughMember step key m ms' = .ok (ms', m)
  others {other : String} : other ≠ key → find? ms' other = find? ms other
  unseen {δ : Type} (whole : Json → Check δ) : (∀ js js' : List Json,
    js'.map check = js.map check → whole (.arr js') = whole (.arr js)) →
    whole (look ms' key) = whole (look ms key)
  height : membersHeight ms' ≤ max (membersHeight ms) (bound + 1)
  whole : membersWhole ms = true → membersWhole ms' = true

theorem member (hs : Settles step check bound) {key : String} {n n' : Supply} {ms ms' : Members}
    (h : throughMember step key n ms = .ok (ms', n')) : Member step check bound key ms ms' := by
  unfold throughMember at h
  split at h
  · -- An absent member stays absent.
    rename_i hkey
    cases h
    exact ⟨fun m => by simp [throughMember, hkey], fun _ => rfl, fun _ _ => rfl,
      Nat.le_max_left _ _, id⟩
  · rename_i js hkey
    split at h
    · cases h
    · rename_i js' k hjs
      cases h
      obtain ⟨hagain, hunseen, hheight, hwhole⟩ := hs.items hjs
      have hput : find? (put ms key (.arr js')) key = some (.arr js') := by
        rw [find?_put, if_pos rfl]
      refine ⟨fun m => ?_, fun hne => ?_, fun whole hcongr => ?_, ?_, fun h => ?_⟩
      · simp only [throughMember, hput, hagain m, put_find? hput]
      · rw [find?_put, if_neg (by simpa using hne.symm)]
      · rw [look, look, hput, hkey]
        exact hcongr js js' hunseen
      · have hle := membersHeight_put_le ms key (.arr js')
        have hold := height_le_of_find? hkey
        simp only [Json.height] at hle hold
        omega
      · have hold : (Json.arr js).allWhole = true := (membersEvery_iff.1 h _ (mem_of_find? hkey)).2
        exact membersWhole_put h (hwhole hold)
  · -- What is no list has nothing in it that could change.
    rename_i j hlist hkey
    split at h
    · cases h
    · rename_i hrun
      cases h
      refine ⟨fun m => ?_, fun _ => rfl, fun _ _ => rfl, Nat.le_max_left _ _, id⟩
      unfold throughMember
      rw [hkey]
      cases j with
      | arr js => exact (hlist js rfl).elim
      | _ => simp only [hrun]

end Settles

/-! ### Rules, groups and forms -/

theorem settles_rule : Settles ruleWithId checkRule 2 := by
  have hobj : ∀ {n n' : Supply} {j j' : Json}, ruleWithId n j = .ok (j', n') →
      ∃ ms, j = .obj ms ∧ j' = .obj (giveId n ms).1 := by
    intro n n' j j' h
    cases j with
    | obj ms =>
      cases h
      exact ⟨ms, rfl, rfl⟩
    | _ => cases h
  constructor
  · intro n m n' j j' h
    obtain ⟨ms, -, rfl⟩ := hobj h
    simp only [ruleWithId, giveId_of_lacksId (lacksId_giveId n ms)]
  · intro n n' j j' h
    obtain ⟨ms, rfl, rfl⟩ := hobj h
    simp only [checkRule, look_giveId (by decide : "indicator" ≠ "id"),
      look_giveId (by decide : "operator" ≠ "id"), look_giveId (by decide : "value" ≠ "id")]
  · intro n n' j j' h
    obtain ⟨ms, rfl, rfl⟩ := hobj h
    have := membersHeight_giveId_le n ms
    simp only [height]
    omega
  · intro n n' j j' h hwhole
    obtain ⟨ms, rfl, rfl⟩ := hobj h
    exact membersWhole_giveId n hwhole

theorem mapIdx_within {ε δ : Type} (f : Nat → ε → δ) (check : Json → Check ε) (js : List Json) :
    (js.mapIdx fun i j => Check.within (f i) (check j)) =
      (js.map check).mapIdx fun i c => Check.within (f i) c := by
  rw [List.mapIdx_eq_zipIdx_map, List.mapIdx_eq_zipIdx_map, List.zipIdx_map, List.map_map]
  rfl

theorem checkRules_congr {js js' : List Json} (h : js'.map checkRule = js.map checkRule) :
    checkRules (.arr js') = checkRules (.arr js) := by
  cases js with
  | nil => rw [List.map_eq_nil_iff.1 h]
  | cons j js =>
    cases js' with
    | nil => cases h
    | cons j' js' => simp only [checkRules, mapIdx_within, h]

theorem checkConditions_congr {js js' : List Json} (h : js'.map checkGroup = js.map checkGroup) :
    checkConditions (.arr js') = checkConditions (.arr js) := by
  cases js with
  | nil => rw [List.map_eq_nil_iff.1 h]
  | cons j js =>
    cases js' with
    | nil => cases h
    | cons j' js' => simp only [checkConditions, mapIdx_within, h]

theorem settles_group : Settles groupWithIds checkGroup 4 := by
  have hobj : ∀ {n n' : Supply} {j j' : Json}, groupWithIds n j = .ok (j', n') →
      ∃ ms ms', j = .obj ms ∧ j' = .obj ms' ∧
        Settles.Member ruleWithId checkRule 2 "rules" (giveId n ms).1 ms' := by
    intro n n' j j' h
    cases j with
    | obj ms =>
      simp only [groupWithIds] at h
      split at h
      · cases h
      · rename_i ms' k hrules
        cases h
        exact ⟨ms, ms', rfl, rfl, settles_rule.member hrules⟩
    | _ => cases h
  constructor
  · intro n m n' j j' h
    obtain ⟨ms, ms', -, rfl, hrules⟩ := hobj h
    have hid : lacksId ms' = false := by
      rw [lacksId, look, hrules.others (by decide)]
      exact lacksId_giveId n ms
    simp only [groupWithIds, giveId_of_lacksId hid, hrules.again m]
  · intro n n' j j' h
    obtain ⟨ms, ms', rfl, rfl, hrules⟩ := hobj h
    have htype : look ms' "type" = look ms "type" := by
      rw [look, hrules.others (by decide), find?_giveId (by decide), look]
    have hlist := hrules.unseen checkRules fun _ _ => checkRules_congr
    rw [look_giveId (by decide)] at hlist
    simp only [checkGroup, htype, hlist]
  · intro n n' j j' h
    obtain ⟨ms, ms', rfl, rfl, hrules⟩ := hobj h
    have hmember := hrules.height
    have hgiven := membersHeight_giveId_le n ms
    simp only [Json.height]
    omega
  · intro n n' j j' h hwhole
    obtain ⟨ms, ms', rfl, rfl, hrules⟩ := hobj h
    exact hrules.whole (membersWhole_giveId n hwhole)

theorem membersWithIds_of_accept {room : Room} {next next' : Supply} {g g' : Json}
    (h : accept room next g = .ok (g', next')) :
    ∃ ms ms', g = .obj ms ∧ g' = .obj ms' ∧ check (.obj ms) = .ok () ∧
      ¬ room.height < (Json.obj ms).height ∧ membersWithIds next ms = .ok (ms', next') := by
  unfold accept at h
  split at h
  · cases h
  · rename_i hcheck
    cases g with
    | obj ms =>
      simp only [withIds, asMembers, bind, Except.bind] at h
      split at h
      · cases h
      · rename_i hlow
        cases hids : membersWithIds next ms with
        | error c =>
          rw [hids] at h
          cases h
        | ok r =>
          obtain ⟨ms', k⟩ := r
          rw [hids] at h
          cases h
          exact ⟨ms, ms', rfl, rfl, hcheck, hlow, hids⟩
    | _ => cases hcheck

theorem accept_eq {room : Room} {next next' : Supply} {g g' : Json}
    (h : accept room next g = .ok (g', next')) :
    ∃ ms ms', g = .obj ms ∧ g' = .obj ms' ∧ check (.obj ms) = .ok () ∧
      ¬ room.height < (Json.obj ms).height ∧
      Settles.Member groupWithIds checkGroup 4 "conditions" ms ms' := by
  obtain ⟨ms, ms', hg, hg', hcheck, hlow, hids⟩ := membersWithIds_of_accept h
  exact ⟨ms, ms', hg, hg', hcheck, hlow, settles_group.member hids⟩

theorem withIds_again {room : Room} {ms ms' : Members} (hlow : ¬ room.height < (Json.obj ms).height)
    (h : Settles.Member groupWithIds checkGroup 4 "conditions" ms ms') (m : Supply) :
    withIds room m (.obj ms') = .ok (.obj ms', m) := by
  -- Ids are texts: what they make higher is still far from the height that is refused.
  have hstill : ¬ room.height < (Json.obj ms').height := by
    have hgiven := h.height
    have hample := room.ample
    simp only [Json.height] at hlow ⊢
    omega
  have hagain : membersWithIds m ms' = .ok (ms', m) := h.again m
  simp only [withIds, asMembers, bind, Except.bind, hstill, ↓reduceIte, hagain]
  rfl

theorem accept_again {room : Room} {next next' : Supply} {g g' : Json}
    (h : accept room next g = .ok (g', next')) :
    (∀ m, accept room m g' = .ok (g', m)) ∧
      ∃ ms ms', g = .obj ms ∧ g' = .obj ms' ∧ look ms' "mode" = look ms "mode" := by
  obtain ⟨ms, ms', rfl, rfl, hcheck, hlow, hgroups⟩ := accept_eq h
  have hlook {key : String} (hne : key ≠ "conditions") : look ms' key = look ms key := by
    rw [look, hgroups.others hne, look]
  refine ⟨fun m => ?_, ms, ms', rfl, rfl, hlook (by decide)⟩
  have hsame : check (.obj ms') = check (.obj ms) := by
    have hlist := hgroups.unseen checkConditions fun _ _ => checkConditions_congr
    simp only [check, hlist, hlook (by decide : "mode" ≠ "conditions"),
      hlook (by decide : "action" ≠ "conditions"), hlook (by decide : "risk" ≠ "conditions")]
  simp only [accept, hsame, hcheck, withIds_again hlow hgroups m]
  rfl

theorem height_of_accept {room : Room} {next next' : Supply} {g g' : Json}
    (h : accept room next g = .ok (g', next')) :
    g'.height ≤ max g.height 6 := by
  obtain ⟨ms, ms', rfl, rfl, -, -, hgroups⟩ := accept_eq h
  have := hgroups.height
  simp only [Json.height]
  omega

theorem allWhole_of_accept {room : Room} {next next' : Supply} {g g' : Json}
    (h : accept room next g = .ok (g', next')) (hg : g.allWhole = true) : g'.allWhole = true := by
  obtain ⟨ms, ms', rfl, rfl, -, -, hgroups⟩ := accept_eq h
  exact hgroups.whole hg

end Form

theorem Flow.eq_of_accept {g g' : Json} (h : Flow.accept g = .ok g') : g' = g := by
  unfold Flow.accept at h
  split at h
  · cases h
  · unfold Flow.ensureSafe at h
    split at h
    · cases h
    · cases h
      rfl
    · cases h

namespace Graph

theorem mode_of_accept {room : Room} {next : Form.Supply} {g : Json} {a : Accepted}
    (h : accept room next g = .ok a) :
    Mode.ofGraph g = .ok a.mode := by
  unfold accept at h
  split at h
  · cases h
  · rename_i hmode
    split at h
    · cases h
    · cases h
      exact hmode
  · rename_i hmode
    split at h
    · cases h
    · cases h
      exact hmode

theorem height_of_accept {room : Room} {next : Form.Supply} {g : Json} {a : Accepted}
    (h : accept room next g = .ok a) :
    a.graph.height ≤ max g.height 6 := by
  unfold accept at h
  split at h
  · cases h
  · split at h
    · cases h
    · rename_i hform
      cases h
      exact Form.height_of_accept hform
  · split at h
    · cases h
    · rename_i hflow
      cases h
      rw [Flow.eq_of_accept hflow]
      exact Nat.le_max_left _ _

theorem allWhole_of_accept {room : Room} {next : Form.Supply} {g : Json} {a : Accepted}
    (h : accept room next g = .ok a) (hg : g.allWhole = true) : a.graph.allWhole = true := by
  unfold accept at h
  split at h
  · cases h
  · split at h
    · cases h
    · rename_i hform
      cases h
      exact Form.allWhole_of_accept hform hg
  · split at h
    · cases h
    · rename_i hflow
      cases h
      rw [Flow.eq_of_accept hflow]
      exact hg

theorem accept_again {room : Room} {next : Form.Supply} {g : Json} {a : Accepted}
    (h : accept room next g = .ok a) (m : Form.Supply) :
    accept room m a.graph = .ok { a with next := m } := by
  have hmode := mode_of_accept h
  unfold accept at h
  rw [hmode] at h
  obtain ⟨mode, graph, next'⟩ := a
  cases mode with
  | form =>
    simp only at h
    split at h
    · cases h
    · rename_i g' k hform
      cases h
      obtain ⟨hagain, ms, ms', rfl, rfl, hkept⟩ := Form.accept_again hform
      have hsame : Mode.ofGraph (.obj ms') = Mode.ofGraph (.obj ms) := by
        simp only [Mode.ofGraph, Mode.ofMembers, hkept]
      simp only [accept, hsame, hmode, hagain m]
  | flow =>
    simp only at h
    split at h
    · cases h
    · rename_i g' hflow
      cases h
      obtain rfl := Flow.eq_of_accept hflow
      simp only [accept, hmode, hflow]

end Graph

end StrategyDesk
