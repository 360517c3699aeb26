import Mathlib.Data.List.Forall2
import StrategyDesk.Form.Model
import StrategyDesk.Proofs.FormShape
import StrategyDesk.Proofs.Readings
import StrategyDesk.Proofs.Settling

/-!
Forms as typed values. A form that passes its check and has its ids can be read as a typed one
field by field, but for ids that are no texts: these pass and cannot be read. So the mistakes in
reading an accepted form are told by its ids alone.
-/

set_option autoImplicit false

namespace StrategyDesk
open Json Reading Reader

namespace Form

/-! ### Fields that passed their checks are read -/

theorem read_of_names {α : Type} [Vocabulary α] {j : Json} (h : Names α j) :
    (Vocabulary.read (α := α) j).details = [] := by
  cases h with
  | word h =>
    obtain ⟨a, ha⟩ := Option.isSome_iff_exists.1 (isSome_ofName?_iff.2 h)
    simp [Vocabulary.read, ha]

theorem number_of_hasUnits {j : Json} {units : Int} (h : HasUnits j units) :
    ∃ d, number j = .value d ∧ (0 < units → Double.zero.lt d = true) ∧
      (Double.scale ≤ units → Double.one.le d = true) := by
  have hscale := scale_pos
  cases h with
  | @int n h =>
    by_cases hpos : 0 < n
    · obtain ⟨size, hread, hsize⟩ := Double.exists_ofInt?_of_pos h hpos
      refine ⟨.finite false size, number_int hread, fun _ => ?_, fun _ => ?_⟩
      · rw [Double.zero_lt_finite, Double.signed, if_neg (by decide)]
        omega
      · rw [Double.one_le_finite, Double.signed, if_neg (by decide)]
        exact Int.ofNat_le.2 hsize
    · obtain ⟨d, hread⟩ := Option.isSome_iff_exists.1 (Double.isSome_ofInt?_iff.2 h)
      have hunits : n * Double.scale ≤ 0 :=
        Int.mul_nonpos_of_nonpos_of_nonneg (Int.not_lt.1 hpos) (Int.le_of_lt hscale)
      refine ⟨d, number_int hread, fun hunits => ?_, fun hunits => ?_⟩
      · omega
      · omega
  | @double negative size =>
    exact ⟨.finite negative size, rfl, Double.zero_lt_finite.2, Double.one_le_finite.2⟩

theorem number_of_isNumber {j : Json} (h : IsNumber j) : ∃ d, number j = .value d := by
  obtain ⟨units, hunits, -⟩ := h
  obtain ⟨d, hd, -⟩ := number_of_hasUnits hunits
  exact ⟨d, hd⟩

theorem ofInt_one : Double.ofInt (1 : Nat) = .one := by decide +kernel

theorem read_of_isAtLeastOne {j : Json} (h : IsAtLeastOne j) : (numberFrom 1 j).details = [] := by
  obtain ⟨units, hunits, hone⟩ := h
  obtain ⟨d, hd, -, hle⟩ := number_of_hasUnits hunits
  simp only [numberFrom, hd, ofInt_one, hle hone, require, if_true, details_value]

theorem read_of_isPositive {j : Json} (h : IsPositive j) : (positiveNumber j).details = [] := by
  obtain ⟨units, hunits, hpos⟩ := h
  obtain ⟨d, hd, hlt, -⟩ := number_of_hasUnits hunits
  simp only [positiveNumber, hd, hlt hpos, require, if_true, details_value]

theorem read_of_isNumber {j : Json} (h : IsNumber j) : (Bound.read j).details = [] := by
  obtain ⟨d, hd⟩ := number_of_isNumber h
  simp only [Bound.read, hd, details_value]

theorem read_pair {a b : Json} {x y : Double} (hx : number a = .value x)
    (hy : number b = .value y) : Bound.read (.arr [a, b]) = .value (.range x y) := by
  have hpair : Bound.readPair (.arr [a, b]) = .value (x, y) := by
    rw [Bound.readPair, if_neg (by simp)]
    simp only [List.getElem?_cons_zero, List.getElem?_cons_succ, hx, hy, under]
    rfl
  have hlist : number (.arr [a, b]) = wrong .notNumber (.arr [a, b]) := rfl
  simp only [Bound.read, hpair, hlist, wrong]

theorem read_of_isNumberPair {j : Json} (h : IsNumberPair j) : (Bound.read j).details = [] := by
  cases h with
  | @pair a b ha hb =>
    obtain ⟨x, hx⟩ := number_of_isNumber ha
    obtain ⟨y, hy⟩ := number_of_isNumber hb
    rw [read_pair hx hy, details_value]

/-! ### Members -/

/-- The place of a mistake, seen from one step further out. -/
def outward (s : Step) (d : Detail) : Detail := { d with place := s :: d.place }

theorem details_field {α : Type} {ms : Members} {key : String} (h : look ms key ≠ .null)
    (r : Reader α) :
    (field ms key r).details = (r (look ms key)).details.map (outward (.key key)) := by
  rw [field, details_under, find?_of_look rfl h]
  rfl

theorem details_fieldOrNull {α : Type} {ms : Members} {key : String} (h : look ms key ≠ .null)
    (r : Reader α) :
    (fieldOrNull ms key r).details = (r (look ms key)).details.map (outward (.key key)) := by
  rw [fieldOrNull, fieldOr, find?_of_look rfl h]
  simp only [details_under, details_optional h]
  rfl

theorem field_of_fine {α : Type} {ms : Members} {key : String} {r : Reader α} {fine : Json → Prop}
    (h : fine (look ms key)) (hnull : ¬ fine .null)
    (hread : ∀ {j}, fine j → (r j).details = []) : (field ms key r).details = [] := by
  have hne : look ms key ≠ .null := fun hlook => hnull (hlook ▸ h)
  rw [details_field hne, hread h, List.map_nil]

theorem field_of_names {α : Type} [Vocabulary α] {ms : Members} {key : String}
    (h : Names α (look ms key)) : (field ms key (Vocabulary.read (α := α))).details = [] :=
  field_of_fine h (fun h => nomatch h) read_of_names

theorem not_isNumberThat_null {p : Int → Prop} : ¬ IsNumberThat p .null :=
  fun ⟨_, h, _⟩ => nomatch h

theorem field_of_isAtLeastOne {ms : Members} {key : String} (h : IsAtLeastOne (look ms key)) :
    (field ms key (numberFrom 1)).details = [] :=
  field_of_fine h not_isNumberThat_null read_of_isAtLeastOne

theorem read_of_isAction {j : Json} (h : IsAction j) : (Action.read j).details = [] := by
  cases h with
  | action hsignal houtcome hmode hsize horder =>
    simp only [Action.read, details_seq, details_map, field_of_names hsignal,
      field_of_names houtcome, field_of_names hmode, field_of_isAtLeastOne hsize,
      field_of_names horder, List.append_nil]

theorem read_of_isLimit {ms : Members} {l : RiskLimit} (h : IsLimit (look ms l.name)) :
    (Risk.readLimit ms l).details = [] := by
  rw [Risk.readLimit]
  rcases h with hnull | hpositive
  · rw [fieldOrNull, fieldOr]
    unfold look at hnull
    cases hkey : find? ms l.name with
    | none => rfl
    | some j =>
      rw [hkey] at hnull
      cases hnull
      rfl
  · have hne : look ms l.name ≠ .null := fun hlook => not_isNumberThat_null (hlook ▸ hpositive)
    rw [details_fieldOrNull hne, read_of_isPositive hpositive, List.map_nil]

theorem read_of_isRisk {j : Json} (h : IsRisk j) : (Risk.read j).details = [] := by
  cases h with
  | risk hposition htrades hlimits =>
    have hlimit : ∀ l : RiskLimit, (Risk.readLimit _ l).details = [] := fun l =>
      read_of_isLimit (hlimits l (by cases l <;> decide))
    simp only [Risk.read, details_seq, details_map, field_of_isAtLeastOne hposition,
      field_of_isAtLeastOne htrades, hlimit, List.append_nil]

/-! ### Ids that are no texts -/

def itemFaults (faults : Json → List Detail) : Nat → List Json → List Detail
  | _, [] => []
  | i, j :: js => (faults j).map (outward (.index i)) ++ itemFaults faults (i + 1) js

def listFaults (faults : Json → List Detail) : Json → List Detail
  | .arr js => itemFaults faults 0 js
  | _ => []

def idFaults (ms : Members) : List Detail :=
  match look ms "id" with
  | .str _ => []
  | j => if j.isEmpty then [] else [⟨[.key "id"], .notText, j⟩]

def ruleFaults : Json → List Detail
  | .obj ms => idFaults ms
  | _ => []

def groupFaults : Json → List Detail
  | .obj ms => idFaults ms ++
      (listFaults ruleFaults (look ms "rules")).map (outward (.key "rules"))
  | _ => []

/-- The ids of a form that are no texts, each at its place: a group before its rules. -/
def formFaults : Json → List Detail
  | .obj ms => (listFaults groupFaults (look ms "conditions")).map (outward (.key "conditions"))
  | _ => []

theorem details_itemsFrom {α : Type} (r : Reader α) (i : Nat) (js : List Json) :
    (itemsFrom r i js).details = itemFaults (fun j => (r j).details) i js := by
  induction js generalizing i with
  | nil => rfl
  | cons j js ih =>
    simp only [itemsFrom, details_seq, details_map, details_under, ih, itemFaults]
    rfl

theorem details_someItems {α : Type} (r : Reader α) {js : List Json} (hne : js ≠ []) :
    (someItems r (.arr js)).details = itemFaults (fun j => (r j).details) 0 js := by
  obtain ⟨j, js, rfl⟩ := List.exists_cons_of_ne_nil hne
  exact details_itemsFrom r 0 (j :: js)

theorem idFaults_congr {ms ns : Members} (h : look ms "id" = look ns "id") :
    idFaults ms = idFaults ns := by
  rw [idFaults, idFaults, h]

theorem idFaults_giveId (next : Supply) (ms : Members) :
    idFaults (giveId next ms).1 = idFaults ms := by
  unfold giveId
  split
  · rename_i hid
    rw [lacksId] at hid
    simp only [idFaults, look_put_self]
    split
    · rfl
    · rw [if_pos hid]
  · rfl

theorem read_id {ms : Members} (hid : lacksId ms = false) :
    (fieldOrNull ms "id" text).details = idFaults ms := by
  rw [lacksId] at hid
  have hne : look ms "id" ≠ .null := by
    intro hnull
    rw [hnull] at hid
    cases hid
  rw [details_fieldOrNull hne, idFaults]
  cases hlook : look ms "id" with
  | str s => rfl
  | _ =>
    rw [hlook] at hid
    simp only [hid]
    rfl

theorem read_of_isRule {ms : Members} (h : IsRule (.obj ms)) (hid : lacksId ms = false) :
    (Rule.read (.obj ms)).details = idFaults ms := by
  have hvalue : (field ms "value" Bound.read).details = [] := by
    cases h with
    | single _ _ _ hvalue => exact field_of_fine hvalue not_isNumberThat_null read_of_isNumber
    | range _ _ hvalue => exact field_of_fine hvalue (fun h => nomatch h) read_of_isNumberPair
  have hwords : Names Indicator (look ms "indicator") ∧ Names Operator (look ms "operator") := by
    cases h with
    | single hindicator hoperator => exact ⟨hindicator, hoperator⟩
    | range hindicator hword => exact ⟨hindicator, hword ▸ names_betweenWord⟩
  simp only [Rule.read, details_seq, details_map, read_id hid, field_of_names hwords.1,
    field_of_names hwords.2, hvalue, List.append_nil]

theorem read_of_isGroup {ms : Members} {js : List Json} (h : IsGroup (.obj ms))
    (hid : lacksId ms = false) (hrules : look ms "rules" = .arr js) :
    (RuleGroup.read (.obj ms)).details = idFaults ms ++
      (itemFaults (fun j => (Rule.read j).details) 0 js).map (outward (.key "rules")) := by
  cases h with
  | group hjunction hlist =>
    have hne : look ms "rules" ≠ .null := by rw [hrules]; exact fun h => nomatch h
    have hitems : js ≠ [] := by
      rw [hrules] at hlist
      cases hlist with
      | items hne => exact hne
    simp only [RuleGroup.read, details_seq, details_map, read_id hid, field_of_names hjunction,
      details_field hne, hrules, details_someItems _ hitems, List.append_nil]

/-! ### From the raw form to the one with its ids -/

theorem throughItems_forall₂ {step : Supply → Json → Except Crash (Json × Supply)} {n n' : Supply}
    {js js' : List Json} (h : throughItems step n js = .ok (js', n')) :
    List.Forall₂ (fun j j' => ∃ m m', step m j = .ok (j', m')) js js' := by
  induction js generalizing n js' with
  | nil =>
    cases h
    exact .nil
  | cons j js ih =>
    simp only [throughItems] at h
    split at h
    · cases h
    · rename_i i k hj
      split at h
      · cases h
      · rename_i is l hjs
        cases h
        exact .cons ⟨n, k, hj⟩ (ih hjs)

theorem throughMember_arr {step : Supply → Json → Except Crash (Json × Supply)} {key : String}
    {n n' : Supply} {ms ms' : Members} {js : List Json}
    (h : throughMember step key n ms = .ok (ms', n')) (hlook : look ms key = .arr js) :
    ∃ js', look ms' key = .arr js' ∧
      List.Forall₂ (fun j j' => ∃ m m', step m j = .ok (j', m')) js js' := by
  have hkey : find? ms key = some (.arr js) := find?_of_look hlook fun h => nomatch h
  unfold throughMember at h
  rw [hkey] at h
  dsimp only at h
  split at h
  · cases h
  · rename_i js' k hjs
    cases h
    exact ⟨js', look_put_self ms key (.arr js'), throughItems_forall₂ hjs⟩

theorem itemFaults_of_forall₂ {read faults : Json → List Detail} (fine : Json → Prop)
    {step : Supply → Json → Except Crash (Json × Supply)}
    (hstep : ∀ {m m' : Supply} {j j' : Json}, step m j = .ok (j', m') → fine j → read j' = faults j)
    {js js' : List Json} (h : List.Forall₂ (fun j j' => ∃ m m', step m j = .ok (j', m')) js js')
    (hfine : ∀ j ∈ js, fine j) (i : Nat) : itemFaults read i js' = itemFaults faults i js := by
  induction h generalizing i with
  | nil => rfl
  | @cons j j' js js' hj _ ih =>
    obtain ⟨m, m', hj⟩ := hj
    rw [itemFaults, itemFaults, hstep hj (hfine j List.mem_cons_self),
      ih fun k hk => hfine k (List.mem_cons_of_mem j hk)]

theorem read_ruleWithId {m m' : Supply} {j j' : Json} (h : ruleWithId m j = .ok (j', m'))
    (hrule : IsRule j) : (Rule.read j').details = ruleFaults j := by
  have hrule' : IsRule j' := by
    rw [← checkRule_eq_ok_iff, settles_rule.unseen h]
    exact checkRule_eq_ok_iff.2 hrule
  cases j with
  | obj ms =>
    obtain rfl : j' = .obj (giveId m ms).1 := by
      cases h
      rfl
    rw [read_of_isRule hrule' (lacksId_giveId m ms), idFaults_giveId, ruleFaults]
  | _ => cases h

theorem read_groupWithIds {m m' : Supply} {j j' : Json} (h : groupWithIds m j = .ok (j', m'))
    (hgroup : IsGroup j) : (RuleGroup.read j').details = groupFaults j := by
  have hgroup' : IsGroup j' := by
    rw [← checkGroup_eq_ok_iff, settles_group.unseen h]
    exact checkGroup_eq_ok_iff.2 hgroup
  cases hgroup with
  | @group ms hjunction hlist =>
    simp only [groupWithIds] at h
    split at h
    · cases h
    · rename_i ms' k hrules
      cases h
      have hid : look ms' "id" = look (giveId m ms).1 "id" := by
        rw [look, (settles_rule.member hrules).others (by decide), look]
      have hlook : look (giveId m ms).1 "rules" = look ms "rules" := look_giveId (by decide) m ms
      generalize hjs : look ms "rules" = x at hlist
      cases hlist with
      | @items js _ hfine =>
        obtain ⟨js', hjs', hitems⟩ := throughMember_arr hrules (hlook.trans hjs)
        have hlacks : lacksId ms' = false := by
          rw [lacksId, hid]
          exact lacksId_giveId m ms
        rw [read_of_isGroup hgroup' hlacks hjs', idFaults_congr hid, idFaults_giveId, groupFaults,
          hjs, listFaults, itemFaults_of_forall₂ IsRule read_ruleWithId hitems hfine]

theorem read_of_accept {room : Room} {next next' : Supply} {g g' : Json}
    (h : accept room next g = .ok (g', next')) :
    (Form.read g').details = formFaults g := by
  obtain ⟨ms, ms', rfl, rfl, hcheck, -, hids⟩ := membersWithIds_of_accept h
  have hkept {key : String} (hne : key ≠ "conditions") : look ms' key = look ms key := by
    rw [look, (settles_group.member hids).others hne, look]
  have hform := check_eq_ok_iff.1 hcheck
  cases hform with
  | form hmode hconditions haction hrisk =>
    generalize hjs : look ms "conditions" = x at hconditions
    cases hconditions with
    | @items js hne hfine =>
      obtain ⟨js', hjs', hitems⟩ := throughMember_arr hids hjs
      have hne' : js' ≠ [] := by
        rintro rfl
        cases hitems
        exact hne rfl
      have hthere : look ms' "conditions" ≠ .null := by simp [hjs']
      have hword : (fieldOr ms' "mode" () (keyword "form")).details = [] := by
        have hlook : look ms' "mode" = .str "form" := (hkept (by decide)).trans hmode
        rw [fieldOr, find?_of_look hlook (by simp)]
        rfl
      have hact : (field ms' "action" Action.read).details = [] :=
        field_of_fine (hkept (by decide : "action" ≠ "conditions") ▸ haction) (by rintro ⟨⟩)
          read_of_isAction
      have hrisks : (field ms' "risk" Risk.read).details = [] :=
        field_of_fine (hkept (by decide : "risk" ≠ "conditions") ▸ hrisk) (by rintro ⟨⟩)
          read_of_isRisk
      simp only [Form.read, details_seq, details_map, hword, details_field hthere, hjs',
        details_someItems _ hne', itemFaults_of_forall₂ IsGroup read_groupWithIds hitems hfine,
        hact, hrisks, List.append_nil, List.nil_append, formFaults, hjs, listFaults]

/-! ### Accepting against parsing -/

/-- The objects of a form that may have an id: its groups, and the rules of each of them. -/
inductive MayHaveId : Json → Members → Prop where
  | group {ms group : Members} {gs : List Json} (hgroups : look ms "conditions" = .arr gs)
    (hgroup : .obj group ∈ gs) : MayHaveId (.obj ms) group
  | rule {ms group rule : Members} {gs rs : List Json} (hgroups : look ms "conditions" = .arr gs)
    (hgroup : .obj group ∈ gs) (hrules : look group "rules" = .arr rs) (hrule : .obj rule ∈ rs) :
    MayHaveId (.obj ms) rule

def HasTextIds (g : Json) : Prop :=
  ∀ ms, MayHaveId g ms → lacksId ms = true ∨ ∃ s, look ms "id" = .str s

theorem idFaults_eq_nil_iff {ms : Members} :
    idFaults ms = [] ↔ lacksId ms = true ∨ ∃ s, look ms "id" = .str s := by
  unfold idFaults lacksId
  split
  · rename_i s hs
    simp [hs]
  · rename_i hother
    have hnone : ¬ ∃ s, look ms "id" = .str s := not_exists.2 hother
    simp [hnone]

theorem itemFaults_eq_nil_iff {faults : Json → List Detail} {i : Nat} {js : List Json} :
    itemFaults faults i js = [] ↔ ∀ j ∈ js, faults j = [] := by
  induction js generalizing i with
  | nil => simp [itemFaults]
  | cons j js ih => simp [itemFaults, ih]

theorem listFaults_eq_nil_iff {faults : Json → List Detail} {j : Json} :
    listFaults faults j = [] ↔ ∀ js, j = .arr js → ∀ k ∈ js, faults k = [] := by
  cases j with
  | arr js => simp [listFaults, itemFaults_eq_nil_iff]
  | _ => simp [listFaults]

theorem groupFaults_eq_nil_iff {ms : Members} : groupFaults (.obj ms) = [] ↔
    idFaults ms = [] ∧ ∀ js, look ms "rules" = .arr js → ∀ j ∈ js, ruleFaults j = [] := by
  rw [groupFaults, List.append_eq_nil_iff, List.map_eq_nil_iff, listFaults_eq_nil_iff]

theorem formFaults_eq_nil_iff {g : Json} : formFaults g = [] ↔ HasTextIds g := by
  cases g with
  | obj ms =>
    rw [formFaults, List.map_eq_nil_iff, listFaults_eq_nil_iff]
    constructor
    · intro h part hpart
      rw [← idFaults_eq_nil_iff]
      cases hpart with
      | group hgroups hgroup => exact (groupFaults_eq_nil_iff.1 (h _ hgroups _ hgroup)).1
      | rule hgroups hgroup hrules hrule =>
        exact (groupFaults_eq_nil_iff.1 (h _ hgroups _ hgroup)).2 _ hrules _ hrule
    · intro h gs hgroups j hj
      cases j with
      | obj group =>
        refine groupFaults_eq_nil_iff.2
          ⟨idFaults_eq_nil_iff.2 (h group (.group hgroups hj)), fun rs hrules k hk => ?_⟩
        cases k with
        | obj rule => exact idFaults_eq_nil_iff.2 (h rule (.rule hgroups hj hrules hk))
        | _ => rfl
      | _ => rfl
  | _ =>
    refine ⟨fun _ ms hms => ?_, fun _ => rfl⟩
    cases hms

theorem parse_of_accept {room : Room} {next next' : Supply} {g g' : Json}
    (h : accept room next g = .ok (g', next')) :
    (formFaults g = [] ∧ ∃ f, parse room next g = .ok (f, next')) ∨
      ∃ d ds, formFaults g = d :: ds ∧
        parse room next g = .error (.fault (.reading (d :: ds))) := by
  have hread := read_of_accept h
  unfold parse
  rw [h]
  dsimp only
  cases hform : Form.read g' with
  | value f =>
    rw [hform] at hread
    exact Or.inl ⟨hread.symm, f, rfl⟩
  | faulty d ds =>
    rw [hform] at hread
    exact Or.inr ⟨d, ds, hread.symm, rfl⟩

/-- A form becomes a typed one exactly if it is accepted and its ids are texts; and an accepted form
with other ids fails in the reading, for these ids alone, each at its place. -/
theorem parse_iff_accept_and_hasTextIds (room : Room) (next : Supply) (g : Json) :
    ((∃ f, parse room next g = .ok f) ↔ (∃ g', accept room next g = .ok g') ∧ HasTextIds g) ∧
      ∀ g', accept room next g = .ok g' → ¬ HasTextIds g →
        ∃ d ds, formFaults g = d :: ds ∧
          parse room next g = .error (.fault (.reading (d :: ds))) := by
  rw [← formFaults_eq_nil_iff]
  cases haccept : accept room next g with
  | error e =>
    have hparse : parse room next g = .error (e.map .check) := by
      unfold parse
      rw [haccept]
    simp [hparse]
  | ok r =>
    rcases parse_of_accept haccept with ⟨hnone, f, hparse⟩ | ⟨d, ds, hfaults, hparse⟩
    · simp [hparse, hnone]
    · simp [hparse, hfaults]

def numberedForm : Json :=
  .obj [("mode", .str "form"),
    ("conditions", .arr [.obj [("id", .int 5), ("type", .str "AND"), ("rules", .arr [.obj
      [("id", .str "r"), ("indicator", .str "mid_up"), ("operator", .str ">"),
        ("value", .int 1)]])]]),
    ("action", .obj [("signal", .str "buy"), ("outcome", .str "UP"), ("size_mode", .str "fixed"),
      ("size_usdc", .int 5), ("order_type", .str "market")]),
    ("risk", .obj [("max_position_usdc", .int 10), ("max_trades_per_slot", .int 1)])]

theorem accept_numberedForm : ∃ g', accept .direct .counted numberedForm = .ok g' := by
  have hok : (accept .direct .counted numberedForm).isOk = true := by decide +kernel
  cases hform : accept .direct .counted numberedForm with
  | error e =>
    rw [hform] at hok
    cases hok
  | ok g' => exact ⟨g', rfl⟩

theorem formFaults_numberedForm : formFaults numberedForm =
    [⟨[.key "conditions", .index 0, .key "id"], .notText, .int 5⟩] := rfl

theorem parse_numberedForm : parse .direct .counted numberedForm = .error (.fault (.reading
    [⟨[.key "conditions", .index 0, .key "id"], .notText, .int 5⟩])) := by
  obtain ⟨g', haccept⟩ := accept_numberedForm
  have hids : ¬ HasTextIds numberedForm := by
    rw [← formFaults_eq_nil_iff, formFaults_numberedForm]
    exact List.cons_ne_nil _ _
  obtain ⟨d, ds, hfaults, hparse⟩ :=
    (parse_iff_accept_and_hasTextIds .direct .counted numberedForm).2 g' haccept hids
  rw [hparse, ← hfaults, formFaults_numberedForm]

theorem not_parse_of_accept : ¬ ∀ room next g, (∃ g', accept room next g = .ok g') →
    ∃ f, parse room next g = .ok f := by
  intro h
  obtain ⟨f, hf⟩ := h .direct .counted numberedForm accept_numberedForm
  have hfail : (parse .direct .counted numberedForm).isOk = false := by decide +kernel
  rw [hf] at hfail
  cases hfail

end Form

end StrategyDesk
