import Mathlib.Data.List.Nodup
import Mathlib.Logic.Function.Iterate
import StrategyDesk.Form.Supply
import StrategyDesk.Proofs.Stumbling

/-!
Giving ids. The groups and rules of a graph stand in document order, a group before its rules and
its rules before the next group. Those without an id take the ids of a supply in this order, one
each and all different, and nothing else in the graph changes; a graph with its ids takes none.
Only a graph in which too many values stand in one another is given nothing.
-/

set_option autoImplicit false

namespace StrategyDesk.Form
open Json Text

/-! ### The supply -/

theorem Supply.nodup_take (s : Supply) (count : Nat) : (s.take count).Nodup :=
  List.nodup_range.map fun _ _ h => s.distinct h

/-- Ids in turn before and after some are drawn: one that is missing takes the next that is drawn,
any other stays. -/
inductive Fills : List String → List Json → List Json → Prop where
  | nil : Fills [] [] []
  | drawn {id : String} {ids : List String} {j : Json} {js ks : List Json}
    (h : j.isEmpty = true) (hrest : Fills ids js ks) : Fills (id :: ids) (j :: js) (.str id :: ks)
  | kept {ids : List String} {j : Json} {js ks : List Json} (h : j.isEmpty = false)
    (hrest : Fills ids js ks) : Fills ids (j :: js) (j :: ks)

theorem Fills.append {ids ids' : List String} {js ks js' ks' : List Json} (h : Fills ids js ks)
    (h' : Fills ids' js' ks') : Fills (ids ++ ids') (js ++ js') (ks ++ ks') := by
  induction h with
  | nil => exact h'
  | drawn h _ ih => exact .drawn h ih
  | kept h _ ih => exact .kept h ih

theorem Fills.isEmpty_eq_false {ids : List String} {js ks : List Json} (h : Fills ids js ks)
    (hids : ∀ id ∈ ids, id.isEmpty = false) : ∀ k ∈ ks, k.isEmpty = false := by
  induction h with
  | nil => exact fun _ hk => nomatch hk
  | drawn _ _ ih =>
    obtain ⟨hid, hids⟩ := List.forall_mem_cons.1 hids
    exact List.forall_mem_cons.2 ⟨hid, ih hids⟩
  | kept h _ ih => exact List.forall_mem_cons.2 ⟨h, ih hids⟩

/-- What is missing takes the first ids of a supply, and the others are left. -/
def Supplied (next next' : Supply) (js ks : List Json) : Prop :=
  ∃ count, next' = next.drop count ∧ Fills (next.take count) js ks

theorem Supplied.append {n n' n'' : Supply} {js ks js' ks' : List Json} (h : Supplied n n' js ks)
    (h' : Supplied n' n'' js' ks') : Supplied n n'' (js ++ js') (ks ++ ks') := by
  obtain ⟨k, rfl, hfills⟩ := h
  obtain ⟨l, rfl, hfills'⟩ := h'
  exact ⟨k + l, n.drop_drop k l, n.take_append k l ▸ hfills.append hfills'⟩

theorem Supplied.isEmpty_eq_false {n n' : Supply} {js ks : List Json} (h : Supplied n n' js ks) :
    ∀ k ∈ ks, k.isEmpty = false := by
  obtain ⟨count, -, hfills⟩ := h
  exact hfills.isEmpty_eq_false fun _ => Supply.isEmpty_of_mem_take

theorem Supplied.nil (n : Supply) : Supplied n n [] [] := ⟨0, n.drop_zero.symm, .nil⟩

/-! ### Groups and rules -/

def idOf : Json → Json
  | .obj ms => look ms "id"
  | _ => .null

def itemsIn (key : String) : Json → List Json
  | .obj ms =>
    match look ms key with
    | .arr js => js
    | _ => []
  | _ => []

def groupParts (j : Json) : List Json := j :: itemsIn "rules" j

/-- The groups and rules of a graph in document order. -/
def holders (g : Json) : List Json := (itemsIn "conditions" g).flatMap groupParts

def ids (g : Json) : List Json := (holders g).map idOf

def withoutId : Json → Json
  | .obj ms => .obj (ms.filter fun m => m.1 != "id")
  | j => j

def onItems (key : String) (f : Json → Json) : Json → Json
  | .obj ms => .obj (ms.map fun m =>
      match m.2 with
      | .arr js => if m.1 = key then (key, .arr (js.map f)) else m
      | _ => m)
  | j => j

def groupWithoutIds (j : Json) : Json := onItems "rules" withoutId (withoutId j)

def withoutIds : Json → Json := onItems "conditions" groupWithoutIds

def HoldsObjects (key : String) (fine : Members → Prop) (ms : Members) : Prop :=
  ∀ j, find? ms key = some j → ∃ js, j = .arr js ∧ ∀ k ∈ js, ∃ ns, k = .obj ns ∧ fine ns

/-- The conditions of a graph are a list of objects, and so are the rules of each, where they are
there. -/
def HoldsGroups : Members → Prop := HoldsObjects "conditions" (HoldsObjects "rules" fun _ => True)

/-! ### What the rest of a value is -/

theorem filter_put {ms : Members} (key : Text) (v : Json) :
    (put ms key v).filter (fun m => m.1 != key) = ms.filter fun m => m.1 != key := by
  induction ms with
  | nil => simp [put]
  | cons m ms ih =>
    obtain ⟨k, w⟩ := m
    by_cases hk : k = key
    · simp [put, hk]
    · simp [put, hk, ih]

theorem withoutId_giveId (next : Supply) (ms : Members) :
    withoutId (.obj (giveId next ms).1) = withoutId (.obj ms) := by
  unfold giveId
  split
  · rw [withoutId, withoutId, filter_put]
  · rfl

theorem withoutId_onItems (key : String) (f : Json → Json) (j : Json) :
    withoutId (onItems key f j) = onItems key f (withoutId j) := by
  cases j with
  | obj ms =>
    rw [onItems, withoutId, withoutId, onItems, List.filter_map]
    congr 3
    funext m
    obtain ⟨k, v⟩ := m
    cases v with
    | arr js =>
      by_cases hk : k = key <;> simp [hk]
    | _ => rfl
  | _ => rfl

theorem onItems_put {key : String} {f : Json → Json} {ms : Members} {js js' : List Json}
    (hkey : find? ms key = some (.arr js)) (hsame : js'.map f = js.map f) :
    onItems key f (.obj (put ms key (.arr js'))) = onItems key f (.obj ms) := by
  rw [onItems, onItems]
  congr 1
  induction ms with
  | nil => cases hkey
  | cons m ms ih =>
    obtain ⟨k, v⟩ := m
    by_cases hk : k = key
    · simp only [find?, hk, if_true, Option.some.injEq] at hkey
      simp [put, hk, hkey, hsame]
    · simp only [find?, hk, if_false] at hkey
      simp only [put, hk, if_false, List.map_cons, ih hkey]

/-! ### What a step gives -/

/-- A step gives ids to parts of a value and leaves the rest of it. -/
structure GivesIds (parts : Json → List Json) (rest : Json → Json) (n : Supply) (j j' : Json)
    (n' : Supply) : Prop where
  supplied : Supplied n n' ((parts j).map idOf) ((parts j').map idOf)
  same : rest j' = rest j

section Steps

variable {step : Supply → Json → Except Crash (Json × Supply)} {parts : Json → List Json}
  {rest : Json → Json}

theorem givesIds_items
    (hstep : ∀ {n n' : Supply} {j j' : Json}, step n j = .ok (j', n') →
      GivesIds parts rest n j j' n')
    {n n' : Supply} {js js' : List Json} (h : throughItems step n js = .ok (js', n')) :
    Supplied n n' ((js.flatMap parts).map idOf) ((js'.flatMap parts).map idOf) ∧
      js'.map rest = js.map rest := by
  induction js generalizing n js' with
  | nil =>
    cases h
    exact ⟨.nil _, rfl⟩
  | cons j js ih =>
    simp only [throughItems] at h
    split at h
    · cases h
    · rename_i j' m hj
      split at h
      · cases h
      · rename_i ks l hjs
        cases h
        -- The supply that the first item leaves is the one of the others.
        obtain ⟨hsupplied, hsame⟩ := ih hjs
        have hone := hstep hj
        refine ⟨?_, by rw [List.map_cons, List.map_cons, hone.same, hsame]⟩
        simp only [List.flatMap_cons, List.map_append]
        exact hone.supplied.append hsupplied

theorem givesIds_member
    (hstep : ∀ {n n' : Supply} {j j' : Json}, step n j = .ok (j', n') →
      GivesIds parts rest n j j' n')
    {key : String} {n n' : Supply} {ms ms' : Members}
    (h : throughMember step key n ms = .ok (ms', n')) :
    GivesIds (fun j => (itemsIn key j).flatMap parts) (onItems key rest) n (.obj ms) (.obj ms')
      n' := by
  unfold throughMember at h
  split at h
  · rename_i hkey
    cases h
    have hnone : itemsIn key (.obj ms) = [] := by rw [itemsIn, look, hkey]; rfl
    exact ⟨by simp only [hnone]; exact .nil _, rfl⟩
  · rename_i js hkey
    split at h
    · cases h
    · rename_i js' m hjs
      cases h
      obtain ⟨hsupplied, hsame⟩ := givesIds_items hstep hjs
      have hold : itemsIn key (.obj ms) = js := by rw [itemsIn, look, hkey]; rfl
      have hnew : itemsIn key (.obj (put ms key (.arr js'))) = js' := by
        rw [itemsIn, look_put_self]
      exact ⟨by simp only [hold, hnew]; exact hsupplied, onItems_put hkey hsame⟩
  · -- What is no list has no items, and stays.
    rename_i j hlist hkey
    split at h
    · cases h
    · cases h
      have hnone : itemsIn key (.obj ms) = [] := by
        rw [itemsIn, look, hkey]
        cases j with
        | arr js => exact (hlist js rfl).elim
        | _ => rfl
      exact ⟨by simp only [hnone]; exact .nil _, rfl⟩

end Steps

theorem supplied_giveId (n : Supply) (ms : Members) :
    Supplied n (giveId n ms).2 [look ms "id"] [look (giveId n ms).1 "id"] := by
  unfold giveId
  cases hid : lacksId ms with
  | true =>
    rw [lacksId] at hid
    simp only [if_true, look_put_self]
    exact ⟨1, rfl, .drawn hid .nil⟩
  | false =>
    rw [lacksId] at hid
    exact ⟨0, n.drop_zero.symm, .kept hid .nil⟩

theorem givesIds_rule {n n' : Supply} {j j' : Json} (h : ruleWithId n j = .ok (j', n')) :
    GivesIds (fun j => [j]) withoutId n j j' n' := by
  cases j with
  | obj ms =>
    cases h
    exact ⟨supplied_giveId n ms, withoutId_giveId n ms⟩
  | _ => cases h

theorem givesIds_group {n n' : Supply} {j j' : Json} (h : groupWithIds n j = .ok (j', n')) :
    GivesIds groupParts groupWithoutIds n j j' n' := by
  cases j with
  | obj ms =>
    simp only [groupWithIds] at h
    split at h
    · cases h
    · rename_i ms' m hrules
      cases h
      have hmember := givesIds_member givesIds_rule hrules
      have hid : look ms' "id" = look (giveId n ms).1 "id" := by
        rw [look, (settles_rule.member hrules).others (by decide), look]
      have hitems : itemsIn "rules" (.obj (giveId n ms).1) = itemsIn "rules" (.obj ms) := by
        rw [itemsIn, itemsIn, look_giveId (by decide)]
      constructor
      · have hrules := hmember.supplied
        simp only [List.flatMap_singleton', hitems] at hrules
        have hboth := (supplied_giveId n ms).append hrules
        rw [← hid] at hboth
        exact hboth
      · rw [groupWithoutIds, groupWithoutIds, ← withoutId_onItems, hmember.same, withoutId_onItems,
          withoutId_giveId]
  | _ => cases h

/-! ### What a graph is given -/

theorem throughMember_of_holdsObjects {step : Supply → Json → Except Crash (Json × Supply)}
    {key : String} {fine : Members → Prop} {ms : Members} (h : HoldsObjects key fine ms)
    (hstep : ∀ {ns : Members}, fine ns → ∀ n, ∃ r, step n (.obj ns) = .ok r) (next : Supply) :
    ∃ r, throughMember step key next ms = .ok r := by
  cases hkey : find? ms key with
  | none => exact ⟨(ms, next), by simp only [throughMember, hkey]⟩
  | some j =>
    obtain ⟨js, rfl, hjs⟩ := h j hkey
    refine throughMember_isOk hkey (fun k hk n => ?_) next
    obtain ⟨ns, rfl, hfine⟩ := hjs k hk
    exact hstep hfine n

theorem membersWithIds_of_holdsGroups {ms : Members} (h : HoldsGroups ms) (next : Supply) :
    ∃ r, membersWithIds next ms = .ok r := by
  refine throughMember_of_holdsObjects h (fun {ns} hrules n => ?_) next
  have hgiven : HoldsObjects "rules" (fun _ => True) (giveId n ns).1 := by
    intro j hj
    rw [find?_giveId (by decide)] at hj
    exact hrules j hj
  obtain ⟨⟨ns', m⟩, hids⟩ := throughMember_of_holdsObjects hgiven
    (fun {_} _ _ => ⟨_, rfl⟩ : ∀ {ms : Members}, True → ∀ n, ∃ r, ruleWithId n (.obj ms) = .ok r)
    (giveId n ns).2
  exact ⟨(.obj ns', m), by simp only [groupWithIds, hids]⟩

/-- A graph that is not too high is given ids where there are none, and nothing else: they are the
next of the supply, in document order. A second time none is given. -/
theorem ids_are_given {ms : Members} (h : HoldsGroups ms) (room : Room) (next : Supply) :
    (room.height < (Json.obj ms).height → withIds room next (.obj ms) = .error .tooDeep) ∧
      ((Json.obj ms).height ≤ room.height → ∃ g' drawn,
        withIds room next (.obj ms) = .ok (g', next.drop drawn.length) ∧
          drawn = next.take drawn.length ∧ drawn.Nodup ∧
          Fills drawn (ids (.obj ms)) (ids g') ∧ withoutIds g' = withoutIds (.obj ms) ∧
          ∀ m, withIds room m g' = .ok (g', m)) := by
  refine ⟨fun hhigh => ?_, fun hlow => ?_⟩
  · simp only [withIds, asMembers, bind, Except.bind, if_pos hhigh]
  · have hlow := Nat.not_lt.2 hlow
    obtain ⟨⟨ms', n⟩, hids⟩ := membersWithIds_of_holdsGroups h next
    obtain ⟨⟨count, rfl, hfills⟩, hsame⟩ := givesIds_member givesIds_group hids
    refine ⟨.obj ms', next.take count, ?_, by rw [Supply.length_take], next.nodup_take count,
      hfills, hsame, withIds_again hlow (settles_group.member hids)⟩
    simp only [withIds, asMembers, bind, Except.bind, if_neg hlow, hids, Supply.length_take]
    rfl

def halfNamed : Members :=
  [("conditions", .arr
    [.obj [("id", .int 0), ("rules", .arr [.obj [("id", .str "r")], .obj [("value", .int 1)]])],
      .obj [("id", .arr [.int 1])]])]

theorem holdsGroups_halfNamed : HoldsGroups halfNamed := by
  intro j hj
  cases hj
  refine ⟨_, rfl, List.forall_mem_cons.2 ⟨⟨_, rfl, ?_⟩, List.forall_mem_singleton.2 ⟨_, rfl, ?_⟩⟩⟩
  · intro k hk
    cases hk
    exact ⟨_, rfl, List.forall_mem_cons.2 ⟨⟨_, rfl, trivial⟩, List.forall_mem_singleton.2
      ⟨_, rfl, trivial⟩⟩⟩
  · intro k hk
    cases hk

theorem ids_are_given_to_halfNamed : HoldsGroups halfNamed ∧
    (Json.obj halfNamed).height ≤ Room.direct.height ∧ ∃ g' drawn,
      withIds .direct .counted (.obj halfNamed) = .ok (g', Supply.counted.drop drawn.length) ∧
        drawn = Supply.counted.take drawn.length ∧ drawn.Nodup ∧
        Fills drawn [.int 0, .str "r", .null, .arr [.int 1]] (ids g') ∧
        withoutIds g' = withoutIds (.obj halfNamed) ∧ ∀ m, withIds .direct m g' = .ok (g', m) :=
  ⟨holdsGroups_halfNamed, by decide,
    (ids_are_given holdsGroups_halfNamed .direct .counted).2 (by decide)⟩

theorem height_iterate_arr (n : Nat) (j : Json) :
    ((fun k => Json.arr [k])^[n] j).height = j.height + n := by
  induction n with
  | zero => rfl
  | succ n ih =>
    rw [Function.iterate_succ_apply', height, itemsHeight, itemsHeight, ih]
    omega

def highForm : Members :=
  [("mode", .str "form"),
    ("conditions", .arr [.obj [("type", .str "AND"), ("rules", .arr
      [.obj [("indicator", .str "mid_up"), ("operator", .str ">"), ("value", .int 1)]])]]),
    ("action", .obj [("signal", .str "buy"), ("outcome", .str "UP"), ("size_mode", .str "fixed"),
      ("size_usdc", .int 5), ("order_type", .str "limit")]),
    ("risk", .obj [("max_position_usdc", .int 10), ("max_trades_per_slot", .int 1)]),
    ("x", (fun k => .arr [k])^[799] (.arr []))]

/-- Where 800 lists stand in one another, groups and rules are left without an id. -/
theorem no_ids_for_highForm : HoldsGroups highForm ∧
    ¬ ∃ r, withIds .direct .counted (.obj highForm) = .ok r := by
  have hgroups : HoldsGroups highForm := by
    intro j hj
    cases hj
    refine ⟨_, rfl, List.forall_mem_singleton.2 ⟨_, rfl, fun k hk => ?_⟩⟩
    cases hk
    exact ⟨_, rfl, List.forall_mem_singleton.2 ⟨_, rfl, trivial⟩⟩
  have hhigh : Room.direct.height < (Json.obj highForm).height := by
    simp only [highForm, height, membersHeight, memberHeight, height_iterate_arr, Room.direct]
    omega
  refine ⟨hgroups, ?_⟩
  rintro ⟨r, hr⟩
  simp only [withIds, asMembers, bind, Except.bind, if_pos hhigh] at hr
  cases hr

end StrategyDesk.Form
