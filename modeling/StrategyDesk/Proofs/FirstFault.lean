import StrategyDesk.Proofs.Stumbling

/-!
The fault that the check of a form reports. A form may violate many checks at once and at any depth;
`Violates` tells all of them, and the rank of a fault says in which order the checks come. A form
passes if it violates no check, and otherwise the fault that is reported comes before all others.
-/

set_option autoImplicit false

namespace StrategyDesk.Form
open Json Check

/-! ### Violated checks -/

inductive RuleViolates : Json → RuleFault → Prop where
  | notObject {j : Json} (h : ∀ ms, j ≠ .obj ms) : RuleViolates j .notObject
  | indicator {ms : Members} (h : ¬ Names Indicator (look ms "indicator")) :
    RuleViolates (.obj ms) .indicator
  | operator {ms : Members} (h : ¬ Names Operator (look ms "operator")) :
    RuleViolates (.obj ms) .operator
  | range {ms : Members} (hword : look ms "operator" = .str betweenWord)
    (h : ¬ IsNumberPair (look ms "value")) : RuleViolates (.obj ms) .range
  | number {ms : Members} (hword : look ms "operator" ≠ .str betweenWord)
    (h : ¬ IsNumber (look ms "value")) : RuleViolates (.obj ms) .number

/-- What is no list with items, or a list with an item that violates a check. -/
inductive ListViolates {ε δ : Type} (noItems : δ) (item : Nat → ε → δ)
    (violates : Json → ε → Prop) : Json → δ → Prop where
  | noItems {j : Json} (h : ∀ k ks, j ≠ .arr (k :: ks)) :
    ListViolates noItems item violates j noItems
  | item {js : List Json} {i : Nat} {j : Json} {f : ε} (hj : js[i]? = some j) (h : violates j f) :
    ListViolates noItems item violates (.arr js) (item i f)

inductive GroupViolates : Json → GroupFault → Prop where
  | notObject {j : Json} (h : ∀ ms, j ≠ .obj ms) : GroupViolates j .notObject
  | junction {ms : Members} (h : ¬ Names Junction (look ms "type")) :
    GroupViolates (.obj ms) .junction
  | rules {ms : Members} {f : GroupFault}
    (h : ListViolates .noRules .rule RuleViolates (look ms "rules") f) : GroupViolates (.obj ms) f

inductive ActionViolates : Json → ActionFault → Prop where
  | notObject {j : Json} (h : ∀ ms, j ≠ .obj ms) : ActionViolates j .notObject
  | signal {ms : Members} (h : ¬ Names Signal (look ms "signal")) : ActionViolates (.obj ms) .signal
  | outcome {ms : Members} (h : ¬ Names Outcome (look ms "outcome")) :
    ActionViolates (.obj ms) .outcome
  | sizeMode {ms : Members} (h : ¬ Names SizeMode (look ms "size_mode")) :
    ActionViolates (.obj ms) .sizeMode
  | size {ms : Members} (h : ¬ IsAtLeastOne (look ms "size_usdc")) : ActionViolates (.obj ms) .size
  | orderType {ms : Members} (h : ¬ Names OrderType (look ms "order_type")) :
    ActionViolates (.obj ms) .orderType

inductive RiskViolates : Json → RiskFault → Prop where
  | notObject {j : Json} (h : ∀ ms, j ≠ .obj ms) : RiskViolates j .notObject
  | maxPosition {ms : Members} (h : ¬ IsAtLeastOne (look ms "max_position_usdc")) :
    RiskViolates (.obj ms) .maxPosition
  | maxTrades {ms : Members} (h : ¬ IsAtLeastOne (look ms "max_trades_per_slot")) :
    RiskViolates (.obj ms) .maxTrades
  | limit {ms : Members} {l : RiskLimit} (h : ¬ IsLimit (look ms l.name)) :
    RiskViolates (.obj ms) (.limit l)

/-- The checks that a form violates, each with the fault that would be reported for it. -/
inductive Violates : Json → Fault → Prop where
  | notObject {j : Json} (h : ∀ ms, j ≠ .obj ms) : Violates j .notObject
  | mode {ms : Members} (h : look ms "mode" ≠ .str Mode.form.name) : Violates (.obj ms) .mode
  | conditions {ms : Members} {f : Fault}
    (h : ListViolates .noConditions .group GroupViolates (look ms "conditions") f) :
    Violates (.obj ms) f
  | action {ms : Members} {f : ActionFault} (h : ActionViolates (look ms "action") f) :
    Violates (.obj ms) (.action f)
  | risk {ms : Members} {f : RiskFault} (h : RiskViolates (look ms "risk") f) :
    Violates (.obj ms) (.risk f)

/-! ### The order of checks

Ranks are compared from the left. A part is ranked by its index before what is checked in it. -/

def RuleFault.rank : RuleFault → List Nat
  | .notObject => [0]
  | .indicator => [1]
  | .operator => [2]
  | .range | .number => [3]

def GroupFault.rank : GroupFault → List Nat
  | .notObject => [0]
  | .junction => [1]
  | .noRules => [2]
  | .rule i f => 2 :: i :: f.rank

def ActionFault.rank : ActionFault → List Nat
  | .notObject => [0]
  | .signal => [1]
  | .outcome => [2]
  | .sizeMode => [3]
  | .size => [4]
  | .orderType => [5]

def RiskFault.rank : RiskFault → List Nat
  | .notObject => [0]
  | .maxPosition => [1]
  | .maxTrades => [2]
  | .limit l => [3, RiskLimit.all.idxOf l]

def Fault.rank : Fault → List Nat
  | .notObject => [0]
  | .mode => [1]
  | .noConditions => [2]
  | .group i f => 2 :: i :: f.rank
  | .action f => 3 :: f.rank
  | .risk f => 4 :: f.rank

/-! ### The places of faults

The place of a fault leads from the form to the value that violates the check. -/

def RuleFault.place : RuleFault → List Step
  | .notObject => []
  | .indicator => [.key "indicator"]
  | .operator => [.key "operator"]
  | .range | .number => [.key "value"]

def GroupFault.place : GroupFault → List Step
  | .notObject => []
  | .junction => [.key "type"]
  | .noRules => [.key "rules"]
  | .rule i f => .key "rules" :: .index i :: f.place

def ActionFault.place : ActionFault → List Step
  | .notObject => []
  | .signal => [.key "signal"]
  | .outcome => [.key "outcome"]
  | .sizeMode => [.key "size_mode"]
  | .size => [.key "size_usdc"]
  | .orderType => [.key "order_type"]

def RiskFault.place : RiskFault → List Step
  | .notObject => []
  | .maxPosition => [.key "max_position_usdc"]
  | .maxTrades => [.key "max_trades_per_slot"]
  | .limit l => [.key l.name]

def Fault.place : Fault → List Step
  | .notObject => []
  | .mode => [.key "mode"]
  | .noConditions => [.key "conditions"]
  | .group i f => .key "conditions" :: .index i :: f.place
  | .action f => .key "action" :: f.place
  | .risk f => .key "risk" :: f.place

/-- What stands at a place of a value; an absent member counts as `null`. -/
inductive StandsAt (j : Json) : List Step → Json → Prop where
  | here : StandsAt j [] j
  | member {ms : Members} {k : String} {p : List Step} (h : StandsAt j p (look ms k)) :
    StandsAt j (.key k :: p) (.obj ms)
  | item {js : List Json} {i : Nat} {k : Json} {p : List Step} (hk : js[i]? = some k)
    (h : StandsAt j p k) : StandsAt j (.index i :: p) (.arr js)

section Places

variable {g : Json}

theorem RuleViolates.exists_at {f : RuleFault} (h : RuleViolates g f) :
    ∃ j, StandsAt j f.place g := by
  cases h with
  | notObject => exact ⟨_, .here⟩
  | _ => exact ⟨_, .member .here⟩

theorem GroupViolates.exists_at {f : GroupFault} (h : GroupViolates g f) :
    ∃ j, StandsAt j f.place g := by
  cases h with
  | notObject => exact ⟨_, .here⟩
  | junction => exact ⟨_, .member .here⟩
  | @rules ms f h =>
    generalize hrules : look ms "rules" = rules at h
    cases h with
    | noItems => exact ⟨_, .member .here⟩
    | item hj h =>
      obtain ⟨j, hat⟩ := h.exists_at
      exact ⟨j, .member (hrules ▸ .item hj hat)⟩

theorem ActionViolates.exists_at {f : ActionFault} (h : ActionViolates g f) :
    ∃ j, StandsAt j f.place g := by
  cases h with
  | notObject => exact ⟨_, .here⟩
  | _ => exact ⟨_, .member .here⟩

theorem RiskViolates.exists_at {f : RiskFault} (h : RiskViolates g f) :
    ∃ j, StandsAt j f.place g := by
  cases h with
  | notObject => exact ⟨_, .here⟩
  | _ => exact ⟨_, .member .here⟩

theorem Violates.exists_at {f : Fault} (h : Violates g f) : ∃ j, StandsAt j f.place g := by
  cases h with
  | notObject => exact ⟨_, .here⟩
  | mode => exact ⟨_, .member .here⟩
  | @conditions ms f h =>
    generalize hconditions : look ms "conditions" = conditions at h
    cases h with
    | noItems => exact ⟨_, .member .here⟩
    | item hj h =>
      obtain ⟨j, hat⟩ := h.exists_at
      exact ⟨j, .member (hconditions ▸ .item hj hat)⟩
  | action h =>
    obtain ⟨j, hat⟩ := h.exists_at
    exact ⟨j, .member hat⟩
  | risk h =>
    obtain ⟨j, hat⟩ := h.exists_at
    exact ⟨j, .member hat⟩

end Places

theorem isPath_member {p : List Step} {t s k : String} (hp : p ≠ []) (h : IsPath p t)
    (hs : s = "." ++ k) : IsPath (p ++ [.key k]) (t ++ s) := by
  rw [hs, ← String.append_assoc]
  exact .member hp h k

theorem RuleFault.isPath (f : RuleFault) {p : List Step} {base : String} (hp : p ≠ [])
    (h : IsPath p base) : IsPath (p ++ f.place) (f.path base) := by
  cases f with
  | notObject => simpa [place, path] using h
  | _ => exact isPath_member hp h rfl

theorem GroupFault.isPath (f : GroupFault) {p : List Step} {base : String} (hp : p ≠ [])
    (h : IsPath p base) : IsPath (p ++ f.place) (f.path base) := by
  cases f with
  | notObject => simpa [place, path] using h
  | junction | noRules => exact isPath_member hp h rfl
  | rule i f =>
    have hrules : IsPath (p ++ [.key "rules"]) (base ++ ".rules") := isPath_member hp h rfl
    have hrule := f.isPath (by simp) (.item (by simp) hrules i)
    rwa [List.append_assoc, List.append_assoc] at hrule

theorem ActionFault.isPath (f : ActionFault) : IsPath (.key "action" :: f.place) f.path := by
  have h : IsPath [.key "action"] "action" := .name "action"
  cases f with
  | notObject => exact h
  | _ => exact .member (by simp) h _

theorem RiskFault.isPath (f : RiskFault) : IsPath (.key "risk" :: f.place) f.path := by
  have h : IsPath [.key "risk"] "risk" := .name "risk"
  cases f with
  | notObject => exact h
  | _ => exact .member (by simp) h _

theorem Fault.isPath (f : Fault) : IsPath f.place f.path := by
  cases f with
  | notObject => exact .graph
  | mode => exact .name "mode"
  | noConditions => exact .name "conditions"
  | group i f => exact f.isPath (by simp) (.item (by simp) (.name "conditions") i)
  | action f => exact f.isPath
  | risk f => exact f.isPath

/-! ### Checks that find the first fault -/

section Finds

variable {ε δ : Type} {rank : ε → List Nat} {rank' : δ → List Nat} {F G : ε → Prop} {c : Check ε}
  {cs : List (Check ε)} {k m n : Nat}

/-- A check passes what has no fault, and reports the first fault of what has any. The ranks of the
faults start in an interval. -/
structure Finds (rank : ε → List Nat) (m n : Nat) (faulty : ε → Prop) (c : Check ε) : Prop where
  passes_iff : c = .ok () ↔ ∀ f, ¬ faulty f
  first : ∀ {f}, c = .error (.fault f) → faulty f ∧ ∀ h, faulty h → h = f ∨ rank f < rank h
  rank_eq : ∀ {f}, faulty f → ∃ i p, rank f = i :: p ∧ m ≤ i ∧ i < n
  le : m ≤ n

namespace Finds

theorem congr (h : Finds rank m n F c) (hFG : ∀ f, G f ↔ F f) : Finds rank m n G c := by
  rwa [funext fun f => propext (hFG f)]

theorem mono {m' n' : Nat} (h : Finds rank m n F c) (hm : m' ≤ m) (hn : n ≤ n') :
    Finds rank m' n' F c where
  passes_iff := h.passes_iff
  first := h.first
  rank_eq := fun hf => by
    obtain ⟨i, p, hp, hmi, hin⟩ := h.rank_eq hf
    exact ⟨i, p, hp, Nat.le_trans hm hmi, Nat.lt_of_lt_of_le hin hn⟩
  le := Nat.le_trans hm (Nat.le_trans h.le hn)

theorem nil : Finds rank m m (fun _ => False) (inOrder []) where
  passes_iff := by simp [inOrder]
  first := fun h => by cases h
  rank_eq := False.elim
  le := Nat.le_refl m

theorem ensure {test : Except Crash Bool} {e : ε} {fine : Prop} {p : List Nat}
    (h : test = .ok true ↔ fine) (hrank : rank e = m :: p) :
    Finds rank m (m + 1) (fun f => f = e ∧ ¬ fine) (ensure test e) where
  passes_iff := by simp [ensure_eq_ok_iff, h]
  first := fun hf => by
    obtain ⟨htest, rfl⟩ := ensure_eq_fault_iff.1 hf
    refine ⟨⟨rfl, fun hfine => ?_⟩, fun k hk => Or.inl hk.1⟩
    rw [h.2 hfine] at htest
    cases htest
  rank_eq := fun hf => ⟨m, p, hf.1 ▸ hrank, Nat.le_refl m, Nat.lt_succ_self m⟩
  le := Nat.le_succ m

theorem fault {e : ε} (he : F e) (honly : ∀ f, F f → f = e) (hrank : rank e = [k]) (hm : m ≤ k)
    (hn : k < n) : Finds rank m n F (.error (.fault e)) where
  passes_iff := iff_of_false (fun h => nomatch h) fun h => h e he
  first := fun hf => by
    cases hf
    exact ⟨he, fun h hh => Or.inl (honly h hh)⟩
  rank_eq := fun hf => ⟨k, [], honly _ hf ▸ hrank, hm, hn⟩
  le := Nat.le_of_lt (Nat.lt_of_le_of_lt hm hn)

theorem both (hc : Finds rank m n F c) (hcs : Finds rank m n G (inOrder cs))
    (hlt : ∀ f h, F f → G h → rank f < rank h) :
    Finds rank m n (fun f => F f ∨ G f) (inOrder (c :: cs)) where
  passes_iff := by
    rw [inOrder_cons_eq_ok_iff, hc.passes_iff, hcs.passes_iff, ← forall_and]
    simp only [not_or]
  first := fun {f} hf => by
    obtain hf | ⟨hpass, hf⟩ := inOrder_cons_eq_error_iff.1 hf
    · obtain ⟨hfault, hfirst⟩ := hc.first hf
      exact ⟨Or.inl hfault, fun h hh => hh.elim (hfirst h) fun hh => Or.inr (hlt f h hfault hh)⟩
    · obtain ⟨hfault, hfirst⟩ := hcs.first hf
      refine ⟨Or.inr hfault, fun h hh => hh.elim (fun hh => ?_) (hfirst h)⟩
      exact absurd hh (hc.passes_iff.1 hpass h)
  rank_eq := fun hf => hf.elim hc.rank_eq hcs.rank_eq
  le := hc.le

theorem cons (hc : Finds rank m k F c) (hcs : Finds rank k n G (inOrder cs)) :
    Finds rank m n (fun f => F f ∨ G f) (inOrder (c :: cs)) := by
  refine both (hc.mono (Nat.le_refl m) hcs.le) (hcs.mono hc.le (Nat.le_refl n)) fun f h hf hh => ?_
  obtain ⟨i, p, hp, -, hik⟩ := hc.rank_eq hf
  obtain ⟨j, q, hq, hkj, -⟩ := hcs.rank_eq hh
  rw [hp, hq, List.cons_lt_cons_iff]
  exact Or.inl (Nat.lt_of_lt_of_le hik hkj)

theorem each {α : Type} {xs : List α} {check : α → Check ε} {F : α → ε → Prop} (hmn : m ≤ n)
    (h : ∀ x ∈ xs, Finds rank m n (F x) (check x))
    (hlt : xs.Pairwise fun x y => ∀ f h, F x f → F y h → rank f < rank h) :
    Finds rank m n (fun f => ∃ x ∈ xs, F x f) (inOrder (xs.map check)) := by
  induction xs with
  | nil => exact (nil.mono (Nat.le_refl m) hmn).congr fun f => by simp
  | cons x xs ih =>
    obtain ⟨hx, hxs⟩ := List.forall_mem_cons.1 h
    obtain ⟨hfirst, hrest⟩ := List.pairwise_cons.1 hlt
    refine (hx.both (ih hxs hrest) fun f h hf hh => ?_).congr fun f => by simp
    obtain ⟨y, hy, hh⟩ := hh
    exact hfirst y hy f h hf hh

theorem within (hc : Finds rank m n F c) {g : ε → δ} (hrank : ∀ f, ∃ p, rank' (g f) = k :: p)
    (hlt : ∀ f h, rank f < rank h → rank' (g f) < rank' (g h)) :
    Finds rank' k (k + 1) (fun e => ∃ f, e = g f ∧ F f) (within g c) where
  passes_iff := by
    rw [within_eq_ok_iff, hc.passes_iff]
    constructor
    · intro hnone e he
      obtain ⟨f, -, hf⟩ := he
      exact hnone f hf
    · intro hnone f hf
      exact hnone (g f) ⟨f, rfl, hf⟩
  first := fun he => by
    obtain ⟨f, hf, rfl⟩ := within_eq_fault_iff.1 he
    obtain ⟨hfault, hfirst⟩ := hc.first hf
    refine ⟨⟨f, rfl, hfault⟩, fun e he => ?_⟩
    obtain ⟨h, rfl, hh⟩ := he
    exact (hfirst h hh).imp (congrArg g) (hlt f h)
  rank_eq := fun he => by
    obtain ⟨f, rfl, -⟩ := he
    obtain ⟨p, hp⟩ := hrank f
    exact ⟨k, p, hp, Nat.le_refl k, Nat.lt_succ_self k⟩
  le := Nat.le_succ k

section Lists

variable {check : Json → Check ε} {violates : Json → ε → Prop} {item : Nat → ε → δ}

theorem items (h : ∀ j, Finds rank m n (violates j) (check j))
    (hitem : ∀ i f, rank' (item i f) = k :: i :: rank f) (js : List Json) :
    Finds rank' k (k + 1) (fun e => ∃ p ∈ js.zipIdx, ∃ f, e = item p.2 f ∧ violates p.1 f)
      (inOrder (js.mapIdx fun i j => Check.within (item i) (check j))) := by
  rw [List.mapIdx_eq_zipIdx_map]
  have hparts : ∀ p ∈ js.zipIdx, Finds rank' k (k + 1)
      (fun e => ∃ f, e = item p.2 f ∧ violates p.1 f) (Check.within (item p.2) (check p.1)) :=
    fun p _ => (h p.1).within (fun f => ⟨_, hitem p.2 f⟩) fun f h hlt => by
      simpa [hitem] using hlt
  have hindices : js.zipIdx.Pairwise fun p q => p.2 < q.2 := by
    rw [← List.pairwise_map, List.zipIdx_map_snd]
    exact List.pairwise_lt_range'
  refine each (Nat.le_succ k) hparts (hindices.imp fun {p q} hlt e e' he he' => ?_)
  obtain ⟨f, rfl, -⟩ := he
  obtain ⟨f', rfl, -⟩ := he'
  rw [hitem, hitem, List.cons_lt_cons_self]
  exact List.cons_lt_cons_iff.2 (Or.inl hlt)

theorem list {whole : Json → Check δ} {noItems : δ}
    (h : ∀ j, Finds rank m n (violates j) (check j))
    (hitems : ∀ j js, whole (.arr (j :: js)) =
      inOrder ((j :: js).mapIdx fun i j => Check.within (item i) (check j)))
    (hother : ∀ x, (∀ j js, x ≠ .arr (j :: js)) → whole x = .error (.fault noItems))
    (hnoItems : rank' noItems = [k]) (hitem : ∀ i f, rank' (item i f) = k :: i :: rank f)
    (x : Json) :
    Finds rank' k (k + 1) (ListViolates noItems item violates x) (whole x) := by
  by_cases hx : ∃ j js, x = .arr (j :: js)
  · obtain ⟨j, js, rfl⟩ := hx
    rw [hitems]
    refine (items h hitem (j :: js)).congr fun e => ?_
    constructor
    · intro he
      cases he with
      | noItems hno => exact absurd rfl (hno j js)
      | item hj hf => exact ⟨(_, _), List.mem_zipIdx_iff_getElem?.2 hj, _, rfl, hf⟩
    · intro he
      obtain ⟨p, hp, f, rfl, hf⟩ := he
      exact .item (List.mem_zipIdx_iff_getElem?.1 hp) hf
  · have hx : ∀ j js, x ≠ .arr (j :: js) := fun j js heq => hx ⟨j, js, heq⟩
    rw [hother x hx]
    refine .fault (.noItems hx) (fun e he => ?_) hnoItems (Nat.le_refl k) (Nat.lt_succ_self k)
    cases he with
    | noItems => rfl
    | item hj =>
      obtain ⟨j, js, rfl⟩ :=
        List.exists_cons_of_ne_nil (List.ne_nil_of_mem (List.mem_of_getElem? hj))
      exact absurd rfl (hx j js)

end Lists

end Finds

end Finds

/-! ### The check of a form -/

theorem finds_checkValue (operator value : Json) :
    Finds RuleFault.rank 3 4
      (fun f => (operator = .str betweenWord ∧ f = .range ∧ ¬ IsNumberPair value) ∨
        (operator ≠ .str betweenWord ∧ f = .number ∧ ¬ IsNumber value))
      (checkValue operator value) := by
  unfold checkValue
  split
  · rename_i hword
    have hword : operator = .str betweenWord := isWord_iff.1 hword
    exact .congr (.ensure tests_numberPair.fine_iff rfl) fun f => by simp [hword]
  · rename_i hword
    have hword : operator ≠ .str betweenWord := fun h => hword (isWord_iff.2 h)
    exact .congr (.ensure tests_number.fine_iff rfl) fun f => by simp [hword]

theorem finds_checkRule (j : Json) : Finds RuleFault.rank 0 4 (RuleViolates j) (checkRule j) := by
  cases j with
  | obj ms =>
    refine .congr (.mono (.cons (.ensure tests_listed.fine_iff rfl)
      (.cons (.ensure tests_listed.fine_iff rfl) (.cons (finds_checkValue _ _) .nil)))
      (Nat.zero_le 1) (Nat.le_refl 4)) fun f => ?_
    constructor
    · intro h
      cases h with
      | notObject h => exact absurd rfl (h ms)
      | indicator h => exact Or.inl ⟨rfl, h⟩
      | operator h => exact Or.inr (Or.inl ⟨rfl, h⟩)
      | range hword h => exact Or.inr (Or.inr (Or.inl (Or.inl ⟨hword, rfl, h⟩)))
      | number hword h => exact Or.inr (Or.inr (Or.inl (Or.inr ⟨hword, rfl, h⟩)))
    · intro h
      obtain ⟨rfl, h⟩ | ⟨rfl, h⟩ | (⟨hword, rfl, h⟩ | ⟨hword, rfl, h⟩) | h := h
      · exact .indicator h
      · exact .operator h
      · exact .range hword h
      · exact .number hword h
      · exact h.elim
  | _ =>
    exact .fault (.notObject fun _ h => nomatch h) (fun f h => by cases h; rfl) rfl (Nat.le_refl 0)
      (by decide)

theorem finds_checkRules (j : Json) :
    Finds GroupFault.rank 2 3 (ListViolates .noRules .rule RuleViolates j) (checkRules j) := by
  have hitems (j : Json) (js : List Json) : checkRules (.arr (j :: js)) =
      inOrder ((j :: js).mapIdx fun i j => within (.rule i) (checkRule j)) := rfl
  refine .list finds_checkRule hitems (fun x hx => ?_) rfl (fun _ _ => rfl) j
  unfold checkRules
  split
  · rename_i k ks
    exact absurd rfl (hx k ks)
  · rfl

theorem isOneOf_eq_ok_iff {α : Type} [Vocabulary α] {j : Json} :
    (.ok (isOneOf α j) : Except Crash Bool) = .ok true ↔ Names α j := by
  rw [Except.ok.injEq, isOneOf_iff]

theorem finds_checkGroup (j : Json) :
    Finds GroupFault.rank 0 3 (GroupViolates j) (checkGroup j) := by
  cases j with
  | obj ms =>
    refine .congr (.mono (.cons (.ensure isOneOf_eq_ok_iff rfl) (.cons (finds_checkRules _) .nil))
      (Nat.zero_le 1) (Nat.le_refl 3)) fun f => ?_
    constructor
    · intro h
      cases h with
      | notObject h => exact absurd rfl (h ms)
      | junction h => exact Or.inl ⟨rfl, h⟩
      | rules h => exact Or.inr (Or.inl h)
    · intro h
      obtain ⟨rfl, h⟩ | h | h := h
      · exact .junction h
      · exact .rules h
      · exact h.elim
  | _ =>
    exact .fault (.notObject fun _ h => nomatch h) (fun f h => by cases h; rfl) rfl (Nat.le_refl 0)
      (by decide)

theorem finds_checkConditions (j : Json) :
    Finds Fault.rank 2 3 (ListViolates .noConditions .group GroupViolates j)
      (checkConditions j) := by
  have hitems (j : Json) (js : List Json) : checkConditions (.arr (j :: js)) =
      inOrder ((j :: js).mapIdx fun i j => within (.group i) (checkGroup j)) := rfl
  refine .list finds_checkGroup hitems (fun x hx => ?_) rfl (fun _ _ => rfl) j
  unfold checkConditions
  split
  · rename_i k ks
    exact absurd rfl (hx k ks)
  · rfl

theorem finds_checkAction (j : Json) :
    Finds ActionFault.rank 0 6 (ActionViolates j) (checkAction j) := by
  cases j with
  | obj ms =>
    refine .congr (.mono (.cons (.ensure isOneOf_eq_ok_iff rfl)
      (.cons (.ensure isOneOf_eq_ok_iff rfl)
      (.cons (.ensure isOneOf_eq_ok_iff rfl) (.cons (.ensure tests_atLeastOne.fine_iff rfl)
        (.cons (.ensure isOneOf_eq_ok_iff rfl) .nil))))) (Nat.zero_le 1) (Nat.le_refl 6))
      fun f => ?_
    constructor
    · intro h
      cases h with
      | notObject h => exact absurd rfl (h ms)
      | signal h => exact Or.inl ⟨rfl, h⟩
      | outcome h => exact Or.inr (Or.inl ⟨rfl, h⟩)
      | sizeMode h => exact Or.inr (Or.inr (Or.inl ⟨rfl, h⟩))
      | size h => exact Or.inr (Or.inr (Or.inr (Or.inl ⟨rfl, h⟩)))
      | orderType h => exact Or.inr (Or.inr (Or.inr (Or.inr (Or.inl ⟨rfl, h⟩))))
    · intro h
      obtain ⟨rfl, h⟩ | ⟨rfl, h⟩ | ⟨rfl, h⟩ | ⟨rfl, h⟩ | ⟨rfl, h⟩ | h := h
      · exact .signal h
      · exact .outcome h
      · exact .sizeMode h
      · exact .size h
      · exact .orderType h
      · exact h.elim
  | _ =>
    exact .fault (.notObject fun _ h => nomatch h) (fun f h => by cases h; rfl) rfl (Nat.le_refl 0)
      (by decide)

theorem RiskLimit.mem_all (l : RiskLimit) : l ∈ all := by
  cases l <;> decide

theorem finds_checkLimit (ms : Members) (l : RiskLimit) :
    Finds RiskFault.rank 3 4 (fun f => f = .limit l ∧ ¬ IsLimit (look ms l.name))
      (checkLimit ms l) := by
  unfold checkLimit
  split
  · rename_i hnull
    exact .congr (.mono .nil (Nat.le_refl 3) (by decide)) fun f => by simp [IsLimit, hnull]
  · rename_i hsome
    exact .congr (.ensure tests_positive.fine_iff rfl) fun f => by
      rw [IsLimit, or_iff_right hsome]

theorem finds_checkRisk (j : Json) : Finds RiskFault.rank 0 4 (RiskViolates j) (checkRisk j) := by
  cases j with
  | obj ms =>
    refine .congr (.mono (.cons (.ensure tests_atLeastOne.fine_iff rfl)
      (.cons (.ensure tests_atLeastOne.fine_iff rfl)
        (.each (by decide) (fun l _ => finds_checkLimit ms l) ?_))) (Nat.zero_le 1) (Nat.le_refl 4))
      fun f => ?_
    · have hall : RiskLimit.all.Pairwise fun l k =>
          (RiskFault.limit l).rank < (RiskFault.limit k).rank := by decide
      refine hall.imp fun {l k} hlt f h hf hh => ?_
      rw [hf.1, hh.1]
      exact hlt
    · constructor
      · intro h
        cases h with
        | notObject h => exact absurd rfl (h ms)
        | maxPosition h => exact Or.inl ⟨rfl, h⟩
        | maxTrades h => exact Or.inr (Or.inl ⟨rfl, h⟩)
        | limit h => exact Or.inr (Or.inr ⟨_, RiskLimit.mem_all _, rfl, h⟩)
      · intro h
        obtain ⟨rfl, h⟩ | ⟨rfl, h⟩ | ⟨l, -, rfl, h⟩ := h
        · exact .maxPosition h
        · exact .maxTrades h
        · exact .limit h
  | _ =>
    exact .fault (.notObject fun _ h => nomatch h) (fun f h => by cases h; rfl) rfl (Nat.le_refl 0)
      (by decide)

theorem finds_check (j : Json) : Finds Fault.rank 0 5 (Violates j) (check j) := by
  cases j with
  | obj ms =>
    have hmode : (.ok (isWord "form" (look ms "mode")) : Except Crash Bool) = .ok true ↔
        look ms "mode" = .str Mode.form.name := by
      rw [Except.ok.injEq]
      exact isWord_iff
    refine .congr (.mono (.cons (.ensure hmode rfl) (.cons (finds_checkConditions _)
      (.cons (.within (finds_checkAction _) (fun _ => ⟨_, rfl⟩) fun f h hlt => ?_)
        (.cons (.within (finds_checkRisk _) (fun _ => ⟨_, rfl⟩) fun f h hlt => ?_) .nil))))
      (Nat.zero_le 1) (Nat.le_refl 5)) fun f => ?_
    · exact List.cons_lt_cons_iff.2 (Or.inr ⟨rfl, hlt⟩)
    · exact List.cons_lt_cons_iff.2 (Or.inr ⟨rfl, hlt⟩)
    · constructor
      · intro h
        cases h with
        | notObject h => exact absurd rfl (h ms)
        | mode h => exact Or.inl ⟨rfl, h⟩
        | conditions h => exact Or.inr (Or.inl h)
        | action h => exact Or.inr (Or.inr (Or.inl ⟨_, rfl, h⟩))
        | risk h => exact Or.inr (Or.inr (Or.inr (Or.inl ⟨_, rfl, h⟩)))
      · intro h
        obtain ⟨rfl, h⟩ | h | ⟨f, rfl, h⟩ | ⟨f, rfl, h⟩ | h := h
        · exact .mode h
        · exact .conditions h
        · exact .action h
        · exact .risk h
        · exact h.elim
  | _ =>
    exact .fault (.notObject fun _ h => nomatch h) (fun f h => by cases h; rfl) rfl (Nat.le_refl 0)
      (by decide)

theorem failureOf_eq_graph_iff {a : Abort Fault} {e : GraphError} :
    failureOf a = .graph e ↔ ∃ f, a = .fault f ∧ e = f.report := by
  cases a with
  | fault f => simp [failureOf, eq_comm]
  | crash c => simp [failureOf]

/-- A value passes the check exactly if it has the shape of a form, which is if it violates no check
of a form. An error that is reported is that of a violated check which comes before all others that
are violated, and its path is that of the place of the value in the form. One is reported for every
value that is no form, unless the check stumbles over it. -/
theorem form_verdicts (g : Json) :
    (check g = .ok () ↔ IsForm g) ∧
    (IsForm g ↔ ∀ f, ¬ Violates g f) ∧
    (∀ a e, check g = .error a → failureOf a = .graph e →
      ∃ f path, e = ⟨f.kind, path, f.message⟩ ∧ IsPath f.place path ∧
        (∃ j, StandsAt j f.place g) ∧ Violates g f ∧
        ∀ h, Violates g h → h = f ∨ f.rank < h.rank) ∧
    ((∃ a e, check g = .error a ∧ failureOf a = .graph e) ↔
      ¬ IsForm g ∧ ∀ c, ¬ CheckTrips g c) := by
  refine ⟨check_eq_ok_iff, check_eq_ok_iff.symm.trans (finds_check g).passes_iff,
    fun a e ha he => ?_, ?_⟩
  · obtain ⟨f, rfl, rfl⟩ := failureOf_eq_graph_iff.1 he
    obtain ⟨hviolates, hfirst⟩ := (finds_check g).first ha
    exact ⟨f, _, rfl, f.isPath, hviolates.exists_at, hviolates, hfirst⟩
  · rw [← check_eq_ok_iff]
    simp only [← check_eq_crash_iff]
    constructor
    · intro hreported
      obtain ⟨a, e, ha, he⟩ := hreported
      obtain ⟨f, rfl, -⟩ := failureOf_eq_graph_iff.1 he
      simp [ha]
    · intro hrest
      obtain ⟨hfails, hcrash⟩ := hrest
      cases hcheck : check g with
      | ok => exact absurd hcheck hfails
      | error a =>
        cases a with
        | fault f => exact ⟨.fault f, f.report, rfl, rfl⟩
        | crash c => exact absurd hcheck (hcrash c)

def sunnyRule : Json :=
  .obj [("indicator", .str "mid_up"), ("operator", .str ">"), ("value", .int 1)]

/-- In the second group the second rule has a number where a pair has to be and the third is none,
and there is neither an action nor a risk block. -/
def faultyForm : Json :=
  .obj [("action", .int 1), ("mode", .str "form"), ("conditions", .arr [
    .obj [("type", .str "OR"), ("rules", .arr [sunnyRule])],
    .obj [("type", .str "AND"), ("rules", .arr [sunnyRule,
      .obj [("indicator", .str "mid_up"), ("operator", .str "between"), ("value", .int 1)],
      .null])]])]

theorem verdict_of_faultyForm :
    (∃ a, check faultyForm = .error a ∧ failureOf a = .graph
      ⟨.semantic, "conditions[1].rules[1].value", "must be [min, max] for between"⟩) ∧
    Violates faultyForm (.action .notObject) ∧
    ∃ f, Violates faultyForm f ∧ IsPath f.place "conditions[1].rules[1].value" ∧
      ∀ h, Violates faultyForm h → h = f ∨ f.rank < h.rank := by
  have hcheck : check faultyForm = .error (.fault (.group 1 (.rule 1 .range))) := by
    set_option maxRecDepth 8000 in rfl
  obtain ⟨-, -, hreport, -⟩ := form_verdicts faultyForm
  have hreported : failureOf (.fault (.group 1 (.rule 1 .range))) = .graph
      ⟨.semantic, "conditions[1].rules[1].value", "must be [min, max] for between"⟩ := by
    decide +kernel
  obtain ⟨f, path, hpath, hplace, -, hviolates, hfirst⟩ := hreport _ _ hcheck hreported
  obtain ⟨-, rfl, -⟩ := GraphError.mk.inj hpath
  exact ⟨⟨_, hcheck, hreported⟩, .action (.notObject nofun), f, hviolates, hplace, hfirst⟩

end StrategyDesk.Form
