import StrategyDesk.Graph.Model
import StrategyDesk.Proofs.Commands
import StrategyDesk.Proofs.GivenIds
import StrategyDesk.Proofs.Readings
import StrategyDesk.Proofs.TypedForms

/-!
Forms there and back. A typed form that was read from an accepted graph is dumped field by field as
it stood there, with its numbers as doubles and `null` for what was absent. The dump is accepted as
it is, by itself or as the typed form, and read as the same typed form again.
-/

set_option autoImplicit false

namespace StrategyDesk.Form
open Json Reading Reader Service

/-! ### Members -/

section Members

variable {α : Type} {ms : Members} {key : String} {r : Reader α}

theorem read_look_of_field {a : α} (h : field ms key r = .value a) :
    r (look ms key) = .value a := by
  obtain ⟨j, hkey, hread⟩ := field_eq_value_iff.1 h
  rw [look_of_find? hkey]
  exact hread

theorem read_look_of_fieldOrNull {o : Option α} (h : fieldOrNull ms key r = .value o) :
    optional r (look ms key) = .value o := by
  rcases fieldOr_eq_value_iff.1 h with ⟨j, hkey, hread⟩ | ⟨hkey, rfl⟩
  · rw [look_of_find? hkey]
    exact hread
  · rw [look, hkey]
    rfl

theorem field_of_find? {j : Json} {a : α} (hkey : find? ms key = some j) (h : r j = .value a) :
    field ms key r = .value a :=
  field_eq_value_iff.2 ⟨j, hkey, h⟩

theorem fieldOrNull_of_find? {j : Json} {o : Option α} (hkey : find? ms key = some j)
    (h : optional r j = .value o) : fieldOrNull ms key r = .value o :=
  fieldOr_eq_value_iff.2 (.inl ⟨j, hkey, h⟩)

end Members

/-! ### What values are dumped as -/

inductive NumberDumps : Json → Json → Prop where
  | int {n : Int} {d : Double} (h : Double.ofInt? n = some d) : NumberDumps (.int n) (.double d)
  | double (d : Double) : NumberDumps (.double d) (.double d)

/-- What a rule compares with is a number, or two of them in a list. -/
inductive BoundDumps : Json → Json → Prop where
  | single {j k : Json} (h : NumberDumps j k) : BoundDumps j k
  | range {a b c d : Json} (hlow : NumberDumps a c) (hhigh : NumberDumps b d) :
    BoundDumps (.arr [a, b]) (.arr [c, d])

inductive LimitDumps : Json → Json → Prop where
  | absent : LimitDumps .null .null
  | number {j k : Json} (h : NumberDumps j k) : LimitDumps j k

inductive ListDumps (item : Json → Json → Prop) : Json → Json → Prop where
  | items {js ks : List Json} (h : List.Forall₂ item js ks) : ListDumps item (.arr js) (.arr ks)

/-- An object is dumped as the listed fields in their order, and nothing else; an absent member
stands for a `null`. -/
inductive RecordDumps (fields : List (String × (Json → Json → Prop))) : Json → Json → Prop where
  | fields {ms ds : Members} (h : List.Forall₂
      (fun f d => d.1 = f.1 ∧ f.2 (look ms f.1) d.2) fields ds) :
    RecordDumps fields (.obj ms) (.obj ds)

def RuleDumps : Json → Json → Prop :=
  RecordDumps [("id", Eq), ("indicator", Eq), ("operator", Eq), ("value", BoundDumps)]

def GroupDumps : Json → Json → Prop :=
  RecordDumps [("id", Eq), ("type", Eq), ("rules", ListDumps RuleDumps)]

def ActionDumps : Json → Json → Prop :=
  RecordDumps [("signal", Eq), ("outcome", Eq), ("size_mode", Eq), ("size_usdc", NumberDumps),
    ("order_type", Eq)]

def RiskDumps : Json → Json → Prop :=
  RecordDumps (("max_position_usdc", NumberDumps) :: ("max_trades_per_slot", NumberDumps) ::
    RiskLimit.all.map fun l => (l.name, LimitDumps))

def FormDumps : Json → Json → Prop :=
  RecordDumps [("mode", Eq), ("conditions", ListDumps GroupDumps), ("action", ActionDumps),
    ("risk", RiskDumps)]

/-! ### Values -/

/-- A value that was read is dumped as it should be, and the dump is read as the same value and is
as fine as what was read. -/
structure RoundTrip {α : Type} (r : Reader α) (dump : α → Json) (fine : Json → Prop)
    (agrees : Json → Json → Prop) (j : Json) (x : α) : Prop where
  agrees : agrees j (dump x)
  again : r (dump x) = .value x
  fine : fine (dump x)

theorem roundTrip_word {α : Type} [Vocabulary α] {j : Json} {a : α}
    (h : Vocabulary.read j = .value a) :
    RoundTrip Vocabulary.read Vocabulary.json (Names α) Eq j a := by
  unfold Vocabulary.read at h
  split at h
  · split at h
    · rename_i s _ b hb
      cases h
      have hname := List.find?_some hb
      obtain rfl := eq_of_beq hname
      refine ⟨rfl, ?_, .word (List.mem_map_of_mem (List.mem_of_find?_eq_some hb))⟩
      simp only [Vocabulary.read, Vocabulary.json, hb]
    · cases h
  · cases h
  · cases h

theorem roundTrip_id {j : Json} {o : Option Text} (hfine : j.isEmpty = false)
    (h : optional text j = .value o) :
    RoundTrip (optional text) dumpText (fun k => k.isEmpty = false) Eq j o := by
  have hsame : j = dumpText o := by
    cases j with
    | null =>
      cases h
      rfl
    | _ =>
      obtain ⟨s, hs, rfl⟩ := map_eq_value_iff.1 h
      exact text_eq_value_iff.1 hs
  obtain rfl := hsame
  exact ⟨rfl, h, hfine⟩

theorem exists_finite_of_ofInt? {n : Int} {d : Double} (h : Double.ofInt? n = some d) :
    ∃ negative size, d = .finite negative size := by
  unfold Double.ofInt? at h
  generalize Double.ofInt n = e at h
  cases e with
  | finite negative size => exact ⟨negative, size, (Option.some.inj h).symm⟩
  | _ => cases h

theorem numberDumps_of_number {j : Json} {d : Double} {units : Int} (h : HasUnits j units)
    (hread : number j = .value d) :
    NumberDumps j (.double d) ∧ ∃ negative size, d = .finite negative size := by
  cases h with
  | @int n h =>
    obtain ⟨e, he⟩ := Option.isSome_iff_exists.1 (Double.isSome_ofInt?_iff.2 h)
    rw [number_int he] at hread
    cases hread
    exact ⟨.int he, exists_finite_of_ofInt? he⟩
  | double =>
    cases hread
    exact ⟨.double _, _, _, rfl⟩

theorem isNumberThat_finite {p : Int → Prop} {negative : Bool} {size : Nat}
    (h : p (Double.signed negative size)) :
    IsNumberThat p (.double (.finite negative size)) :=
  ⟨_, .double, h⟩

theorem roundTrip_atLeastOne {j : Json} {d : Double} (hfine : IsAtLeastOne j)
    (h : numberFrom 1 j = .value d) :
    RoundTrip (numberFrom 1) .double IsAtLeastOne NumberDumps j d := by
  obtain ⟨units, hunits, -⟩ := hfine
  obtain ⟨hnumber, hle⟩ := numberFrom_eq_value_iff.1 h
  obtain ⟨hdumps, negative, size, rfl⟩ := numberDumps_of_number hunits hnumber
  refine ⟨hdumps, numberFrom_eq_value_iff.2 ⟨rfl, hle⟩, isNumberThat_finite ?_⟩
  rw [ofInt_one] at hle
  exact Double.one_le_finite.1 hle

theorem roundTrip_positive {j : Json} {d : Double} (hfine : IsPositive j)
    (h : positiveNumber j = .value d) :
    RoundTrip positiveNumber .double IsPositive NumberDumps j d := by
  obtain ⟨units, hunits, -⟩ := hfine
  obtain ⟨hnumber, hlt⟩ := positiveNumber_eq_value_iff.1 h
  obtain ⟨hdumps, negative, size, rfl⟩ := numberDumps_of_number hunits hnumber
  exact ⟨hdumps, positiveNumber_eq_value_iff.2 ⟨rfl, hlt⟩,
    isNumberThat_finite (Double.zero_lt_finite.1 hlt)⟩

theorem roundTrip_limit {j : Json} {o : Option Double} (hfine : IsLimit j)
    (h : optional positiveNumber j = .value o) :
    RoundTrip (optional positiveNumber) dumpNumber IsLimit LimitDumps j o := by
  rcases hfine with rfl | hfine
  · cases h
    exact ⟨.absent, rfl, Or.inl rfl⟩
  · have hsome : optional positiveNumber j = (positiveNumber j).map some := by
      cases j with
      | null => exact (not_isNumberThat_null hfine).elim
      | _ => rfl
    rw [hsome] at h
    obtain ⟨d, hd, rfl⟩ := map_eq_value_iff.1 h
    have hpositive := roundTrip_positive hfine hd
    refine ⟨.number hpositive.agrees, ?_, Or.inr hpositive.fine⟩
    exact map_eq_value_iff.2 ⟨d, hpositive.again, rfl⟩

theorem roundTrip_single {j : Json} {b : Bound} (hfine : IsNumber j)
    (h : Bound.read j = .value b) : RoundTrip Bound.read Bound.dump IsNumber BoundDumps j b := by
  obtain ⟨units, hunits, -⟩ := hfine
  obtain ⟨d, hnumber, -⟩ := number_of_hasUnits hunits
  simp only [Bound.read, hnumber, Reading.value.injEq] at h
  subst h
  obtain ⟨hdumps, negative, size, rfl⟩ := numberDumps_of_number hunits hnumber
  exact ⟨.single hdumps, rfl, isNumberThat_finite trivial⟩

theorem roundTrip_range {j : Json} {b : Bound} (hfine : IsNumberPair j)
    (h : Bound.read j = .value b) :
    RoundTrip Bound.read Bound.dump IsNumberPair BoundDumps j b := by
  cases hfine with
  | @pair low high hlow hhigh =>
    obtain ⟨_, hlow, -⟩ := hlow
    obtain ⟨_, hhigh, -⟩ := hhigh
    obtain ⟨x, hx, -⟩ := number_of_hasUnits hlow
    obtain ⟨y, hy, -⟩ := number_of_hasUnits hhigh
    have hread : Bound.read (.arr [low, high]) = .value (.range x y) := read_pair hx hy
    rw [hread] at h
    cases h
    obtain ⟨hlow, _, _, rfl⟩ := numberDumps_of_number hlow hx
    obtain ⟨hhigh, _, _, rfl⟩ := numberDumps_of_number hhigh hy
    exact ⟨.range hlow hhigh, rfl,
      .pair (isNumberThat_finite trivial) (isNumberThat_finite trivial)⟩

theorem roundTrip_items {α : Type} {r : Reader α} {dump : α → Json} {fine : Json → Prop}
    {agrees : Json → Json → Prop}
    (hitem : ∀ {j x}, fine j → r j = .value x → RoundTrip r dump fine agrees j x) {j : Json}
    {xs : List α} (hfine : IsListOf fine j) (h : someItems r j = .value xs) :
    RoundTrip (someItems r) (fun xs => .arr (xs.map dump)) (IsListOf fine) (ListDumps agrees) j
      xs := by
  obtain ⟨js, rfl, hne, hread⟩ := someItems_eq_value_iff.1 h
  cases hfine with
  | items _ hfine =>
    have hitems : List.Forall₂ (RoundTrip r dump fine agrees) js xs :=
      ((List.forall₂_and_left js xs).2 ⟨hfine, hread⟩).imp fun _ _ hjx => hitem hjx.1 hjx.2
    have hback : ∀ x ∈ xs, r (dump x) = .value x ∧ fine (dump x) :=
      ((List.forall₂_and_left xs js).1
        (hitems.flip.imp fun _ _ hx => ⟨⟨hx.again, hx.fine⟩, hx.agrees⟩)).1
    have hxs : xs.map dump ≠ [] := by
      intro hnil
      rw [List.map_eq_nil_iff.1 hnil, List.forall₂_nil_right_iff] at hread
      exact hne hread
    refine ⟨.items ?_, someItems_eq_value_iff.2 ⟨_, rfl, hxs, ?_⟩, .items hxs ?_⟩
    · rw [List.forall₂_map_right_iff]
      exact hitems.imp fun _ _ hx => hx.agrees
    · rw [List.forall₂_map_left_iff, List.forall₂_same]
      exact fun x hx => (hback x hx).1
    · exact List.forall_mem_map.2 fun x hx => (hback x hx).2

/-! ### Rules and groups -/

def HasId (j : Json) : Prop := (idOf j).isEmpty = false

theorem roundTrip_rule {j : Json} {r : Rule} (hfine : IsRule j ∧ HasId j)
    (h : Rule.read j = .value r) :
    RoundTrip Rule.read Rule.dump (fun j => IsRule j ∧ HasId j) RuleDumps j r := by
  obtain ⟨hrule, hid⟩ := hfine
  cases j with
  | obj ms =>
    simp only [Rule.read, seq_eq_value_iff, map_eq_value_iff] at h
    obtain ⟨_, bound, ⟨_, operator, ⟨_, indicator, ⟨id, hids, rfl⟩, hindicator, rfl⟩, hoperator,
      rfl⟩, hvalue, rfl⟩ := h
    have hids := roundTrip_id hid (read_look_of_fieldOrNull hids)
    have hindicator := roundTrip_word (read_look_of_field hindicator)
    have hoperator := roundTrip_word (read_look_of_field hoperator)
    have hvalue := read_look_of_field hvalue
    -- What a rule compares with has to fit its operator.
    have hbound : RoundTrip Bound.read Bound.dump (fun k => IsRule (.obj
        [("id", dumpText id), ("indicator", Vocabulary.json indicator),
          ("operator", Vocabulary.json operator), ("value", k)])) BoundDumps (look ms "value")
        bound := by
      cases hrule with
      | single _ _ hword hnumber =>
        obtain ⟨hagrees, hagain, hnumber⟩ := roundTrip_single hnumber hvalue
        refine ⟨hagrees, hagain, .single hindicator.fine hoperator.fine ?_ hnumber⟩
        rw [hoperator.agrees] at hword
        exact hword
      | range _ hword hpair =>
        obtain ⟨hagrees, hagain, hpair⟩ := roundTrip_range hpair hvalue
        refine ⟨hagrees, hagain, .range hindicator.fine ?_ hpair⟩
        rw [hoperator.agrees] at hword
        exact hword
    refine ⟨.fields ?_, ?_, hbound.fine, hids.fine⟩
    · exact .cons ⟨rfl, hids.agrees⟩ <| .cons ⟨rfl, hindicator.agrees⟩ <|
        .cons ⟨rfl, hoperator.agrees⟩ <| .cons ⟨rfl, hbound.agrees⟩ .nil
    · simp only [Rule.read, Rule.dump, seq_eq_value_iff, map_eq_value_iff]
      exact ⟨_, bound, ⟨_, operator, ⟨_, indicator, ⟨id, fieldOrNull_of_find? rfl hids.again, rfl⟩,
        field_of_find? rfl hindicator.again, rfl⟩, field_of_find? rfl hoperator.again, rfl⟩,
        field_of_find? rfl hbound.again, rfl⟩
  | _ => cases h

theorem isListOf_and_iff {p q : Json → Prop} {ms : Members} {key : String} :
    IsListOf (fun j => p j ∧ q j) (look ms key) ↔
      IsListOf p (look ms key) ∧ ∀ j ∈ itemsIn key (.obj ms), q j := by
  rw [itemsIn]
  generalize look ms key = x
  constructor
  · rintro ⟨hne, h⟩
    exact ⟨.items hne fun j hj => (h j hj).1, fun j hj => (h j hj).2⟩
  · rintro ⟨⟨hne, hp⟩, hq⟩
    exact .items hne fun j hj => ⟨hp j hj, hq j hj⟩

theorem roundTrip_group {j : Json} {g : RuleGroup}
    (hfine : IsGroup j ∧ ∀ k ∈ groupParts j, HasId k) (h : RuleGroup.read j = .value g) :
    RoundTrip RuleGroup.read RuleGroup.dump (fun j => IsGroup j ∧ ∀ k ∈ groupParts j, HasId k)
      GroupDumps j g := by
  obtain ⟨hgroup, hids⟩ := hfine
  obtain ⟨hid, hruleIds⟩ := List.forall_mem_cons.1 hids
  cases hgroup with
  | @group ms _ hrules =>
    simp only [RuleGroup.read, seq_eq_value_iff, map_eq_value_iff] at h
    obtain ⟨_, rules, ⟨_, junction, ⟨id, hids, rfl⟩, hjunction, rfl⟩, hread, rfl⟩ := h
    have hids := roundTrip_id hid (read_look_of_fieldOrNull hids)
    have hjunction := roundTrip_word (read_look_of_field hjunction)
    have hitems := roundTrip_items roundTrip_rule (isListOf_and_iff.2 ⟨hrules, hruleIds⟩)
      (read_look_of_field hread)
    refine ⟨.fields ?_, ?_, .group hjunction.fine (And.left (isListOf_and_iff.1 hitems.fine)),
      List.forall_mem_cons.2 ⟨hids.fine, And.right (isListOf_and_iff.1 hitems.fine)⟩⟩
    · exact .cons ⟨rfl, hids.agrees⟩ <| .cons ⟨rfl, hjunction.agrees⟩ <|
        .cons ⟨rfl, hitems.agrees⟩ .nil
    · simp only [RuleGroup.read, RuleGroup.dump, seq_eq_value_iff, map_eq_value_iff]
      exact ⟨_, rules, ⟨_, junction, ⟨id, fieldOrNull_of_find? rfl hids.again, rfl⟩,
        field_of_find? rfl hjunction.again, rfl⟩, field_of_find? rfl hitems.again, rfl⟩

/-! ### Actions and risk blocks -/

theorem roundTrip_action {j : Json} {a : Action} (hfine : IsAction j)
    (h : Action.read j = .value a) :
    RoundTrip Action.read Action.dump IsAction ActionDumps j a := by
  cases hfine with
  | action _ _ _ hsize _ =>
    simp only [Action.read, seq_eq_value_iff, map_eq_value_iff] at h
    obtain ⟨_, orderType, ⟨_, size, ⟨_, mode, ⟨_, outcome, ⟨signal, hsignal, rfl⟩, houtcome, rfl⟩,
      hmode, rfl⟩, hread, rfl⟩, horder, rfl⟩ := h
    have hsignal := roundTrip_word (read_look_of_field hsignal)
    have houtcome := roundTrip_word (read_look_of_field houtcome)
    have hmode := roundTrip_word (read_look_of_field hmode)
    have hsize := roundTrip_atLeastOne hsize (read_look_of_field hread)
    have horder := roundTrip_word (read_look_of_field horder)
    refine ⟨.fields ?_, ?_, .action hsignal.fine houtcome.fine hmode.fine hsize.fine horder.fine⟩
    · exact .cons ⟨rfl, hsignal.agrees⟩ <| .cons ⟨rfl, houtcome.agrees⟩ <|
        .cons ⟨rfl, hmode.agrees⟩ <| .cons ⟨rfl, hsize.agrees⟩ <| .cons ⟨rfl, horder.agrees⟩ .nil
    · simp only [Action.read, Action.dump, seq_eq_value_iff, map_eq_value_iff]
      exact ⟨_, orderType, ⟨_, size, ⟨_, mode, ⟨_, outcome,
        ⟨signal, field_of_find? rfl hsignal.again, rfl⟩, field_of_find? rfl houtcome.again, rfl⟩,
        field_of_find? rfl hmode.again, rfl⟩, field_of_find? rfl hsize.again, rfl⟩,
        field_of_find? rfl horder.again, rfl⟩

theorem roundTrip_risk {j : Json} {r : Risk} (hfine : IsRisk j) (h : Risk.read j = .value r) :
    RoundTrip Risk.read Risk.dump IsRisk RiskDumps j r := by
  cases hfine with
  | @risk ms hposition htrades hlimits =>
    simp only [Risk.read, Risk.readLimit, seq_eq_value_iff, map_eq_value_iff] at h
    obtain ⟨_, cooldown, ⟨_, dailyLoss, ⟨_, takeProfit, ⟨_, stopLoss, ⟨_, trades,
      ⟨position, hreadPosition, rfl⟩, hreadTrades, rfl⟩, hstop, rfl⟩, hprofit, rfl⟩, hloss, rfl⟩,
      hcooldown, rfl⟩ := h
    have hposition := roundTrip_atLeastOne hposition (read_look_of_field hreadPosition)
    have htrades := roundTrip_atLeastOne htrades (read_look_of_field hreadTrades)
    have hlimit {l : RiskLimit} {o : Option Double}
        (hread : fieldOrNull ms l.name positiveNumber = .value o) :=
      roundTrip_limit (hlimits l (by cases l <;> decide)) (read_look_of_fieldOrNull hread)
    have hstop := hlimit hstop
    have hprofit := hlimit hprofit
    have hloss := hlimit hloss
    have hcooldown := hlimit hcooldown
    refine ⟨.fields ?_, ?_, .risk hposition.fine htrades.fine ?_⟩
    · exact .cons ⟨rfl, hposition.agrees⟩ <| .cons ⟨rfl, htrades.agrees⟩ <|
        .cons ⟨rfl, hstop.agrees⟩ <| .cons ⟨rfl, hprofit.agrees⟩ <|
        .cons ⟨rfl, hloss.agrees⟩ <| .cons ⟨rfl, hcooldown.agrees⟩ .nil
    · simp only [Risk.read, Risk.readLimit, Risk.dump, seq_eq_value_iff, map_eq_value_iff]
      exact ⟨_, cooldown, ⟨_, dailyLoss, ⟨_, takeProfit, ⟨_, stopLoss, ⟨_, trades,
        ⟨position, field_of_find? rfl hposition.again, rfl⟩,
        field_of_find? rfl htrades.again, rfl⟩, fieldOrNull_of_find? rfl hstop.again, rfl⟩,
        fieldOrNull_of_find? rfl hprofit.again, rfl⟩, fieldOrNull_of_find? rfl hloss.again, rfl⟩,
        fieldOrNull_of_find? rfl hcooldown.again, rfl⟩
    · intro l _
      cases l with
      | stopLoss => exact hstop.fine
      | takeProfit => exact hprofit.fine
      | dailyLoss => exact hloss.fine
      | cooldown => exact hcooldown.fine

/-! ### Forms -/

/-- A form that passes its check and has its ids. -/
structure IsSettled (j : Json) : Prop where
  form : IsForm j
  ids : ∀ k ∈ holders j, HasId k

theorem roundTrip_form {j : Json} {f : Form} (hfine : IsSettled j) (h : Form.read j = .value f) :
    RoundTrip Form.read Form.dump IsSettled FormDumps j f := by
  obtain ⟨hform, hids⟩ := hfine
  cases hform with
  | @form ms hmode hconditions haction hrisk =>
    simp only [Form.read, seq_eq_value_iff, map_eq_value_iff] at h
    obtain ⟨_, risk, ⟨_, action, ⟨_, conditions, ⟨_, -, rfl⟩, hconditions', rfl⟩, haction', rfl⟩,
      hrisk', rfl⟩ := h
    have hgroups := roundTrip_items roundTrip_group
      (isListOf_and_iff.2 ⟨hconditions, List.forall_mem_flatMap.1 hids⟩)
      (read_look_of_field hconditions')
    have haction := roundTrip_action haction (read_look_of_field haction')
    have hrisk := roundTrip_risk hrisk (read_look_of_field hrisk')
    refine ⟨.fields ?_, ?_,
      .form rfl (And.left (isListOf_and_iff.1 hgroups.fine)) haction.fine hrisk.fine,
      List.forall_mem_flatMap.2 (And.right (isListOf_and_iff.1 hgroups.fine))⟩
    · exact .cons ⟨rfl, hmode⟩ <| .cons ⟨rfl, hgroups.agrees⟩ <| .cons ⟨rfl, haction.agrees⟩ <|
        .cons ⟨rfl, hrisk.agrees⟩ .nil
    · simp only [Form.read, Form.dump, seq_eq_value_iff, map_eq_value_iff]
      exact ⟨_, risk, ⟨_, action, ⟨_, conditions, ⟨(), rfl, rfl⟩,
        field_of_find? rfl hgroups.again, rfl⟩, field_of_find? rfl haction.again, rfl⟩,
        field_of_find? rfl hrisk.again, rfl⟩

theorem isSettled_of_accept {room : Room} {next next' : Supply} {g g' : Json}
    (h : accept room next g = .ok (g', next')) : IsSettled g' := by
  obtain ⟨ms, ms', rfl, hsame, hcheck, -, hids⟩ :=
    membersWithIds_of_accept ((accept_again h).1 next)
  cases hsame
  have hgiven := (givesIds_member givesIds_group hids).supplied.isEmpty_eq_false
  exact ⟨check_eq_ok_iff.1 hcheck, fun k hk => hgiven (idOf k) (List.mem_map_of_mem hk)⟩

/-! ### A settled form is given no ids -/

theorem throughItems_of_settled {step : Supply → Json → Except Crash (Json × Supply)}
    {js : List Json} (h : ∀ j ∈ js, ∀ m, step m j = .ok (j, m)) (m : Supply) :
    throughItems step m js = .ok (js, m) := by
  induction js with
  | nil => rfl
  | cons j js ih =>
    obtain ⟨hj, hjs⟩ := List.forall_mem_cons.1 h
    simp only [throughItems, hj m, ih hjs]

theorem throughMember_of_settled {step : Supply → Json → Except Crash (Json × Supply)}
    {key : String} {ms : Members} {fine : Json → Prop} (hlist : IsListOf fine (look ms key))
    (h : ∀ j, fine j → ∀ m, step m j = .ok (j, m)) (m : Supply) :
    throughMember step key m ms = .ok (ms, m) := by
  generalize hlook : look ms key = x at hlist
  obtain ⟨-, hfine⟩ := hlist
  have hkey := find?_of_look hlook fun h => nomatch h
  simp only [throughMember, hkey, throughItems_of_settled (fun j hj => h j (hfine j hj)) m,
    put_find? hkey]

theorem ruleWithId_of_settled {j : Json} (h : IsRule j ∧ HasId j) (m : Supply) :
    ruleWithId m j = .ok (j, m) := by
  obtain ⟨hrule, hid⟩ := h
  cases hrule <;> simp only [ruleWithId, giveId_of_lacksId hid]

theorem groupWithIds_of_settled {j : Json} (h : IsGroup j ∧ ∀ k ∈ groupParts j, HasId k)
    (m : Supply) : groupWithIds m j = .ok (j, m) := by
  obtain ⟨hgroup, hids⟩ := h
  obtain ⟨hid, hruleIds⟩ := List.forall_mem_cons.1 hids
  cases hgroup with
  | group _ hrules =>
    have hsettled := throughMember_of_settled (isListOf_and_iff.2 ⟨hrules, hruleIds⟩)
      (fun _ => ruleWithId_of_settled) m
    simp only [groupWithIds, giveId_of_lacksId hid, hsettled]

theorem accept_of_isSettled {room : Room} {g : Json} (h : IsSettled g)
    (hlow : g.height ≤ room.height) (m : Supply) : accept room m g = .ok (g, m) := by
  obtain ⟨hform, hids⟩ := h
  have hcheck := check_eq_ok_iff.2 hform
  cases hform with
  | @form ms _ hconditions =>
    have hsettled : membersWithIds m ms = .ok (ms, m) := throughMember_of_settled
      (isListOf_and_iff.2 ⟨hconditions, List.forall_mem_flatMap.1 hids⟩)
      (fun _ => groupWithIds_of_settled) m
    simp only [accept, hcheck, withIds, asMembers, bind, Except.bind, if_neg (Nat.not_lt.2 hlow),
      hsettled]
    rfl

/-! ### The height of a dump -/

theorem itemsHeight_map_le {α : Type} {f : α → Json} {n : Nat} (h : ∀ x, (f x).height ≤ n)
    (xs : List α) : itemsHeight (xs.map f) ≤ n := by
  induction xs with
  | nil => exact Nat.zero_le n
  | cons x xs ih => exact Nat.max_le.2 ⟨h x, ih⟩

theorem height_dumpText (o : Option Text) : (dumpText o).height = 1 := by cases o <;> rfl

theorem height_dumpNumber (o : Option Double) : (dumpNumber o).height = 1 := by cases o <;> rfl

theorem height_boundDump_le (b : Bound) : b.dump.height ≤ 2 := by
  cases b <;> simp [Bound.dump, height, itemsHeight]

theorem height_ruleDump_le (r : Rule) : r.dump.height ≤ 3 := by
  have := height_boundDump_le r.bound
  simp only [Rule.dump, height, membersHeight, memberHeight, height_dumpText, Vocabulary.json]
  omega

theorem height_groupDump_le (g : RuleGroup) : g.dump.height ≤ 5 := by
  have := itemsHeight_map_le height_ruleDump_le g.rules
  simp only [RuleGroup.dump, height, membersHeight, memberHeight, height_dumpText, Vocabulary.json]
  omega

theorem height_dump_le (f : Form) : f.dump.height ≤ 7 := by
  have hgroups := itemsHeight_map_le height_groupDump_le f.conditions
  have haction : f.action.dump.height = 2 := by
    simp [Action.dump, height, membersHeight, memberHeight, Vocabulary.json]
  have hrisk : f.risk.dump.height = 2 := by
    simp [Risk.dump, RiskLimit.all, height, membersHeight, memberHeight, height_dumpNumber]
  simp only [Form.dump, height, membersHeight, memberHeight, haction, hrisk]
  omega

/-! ### There and back -/

theorem exists_accept_of_parse {room : Room} {next next' : Supply} {g : Json} {f : Form}
    (h : parse room next g = .ok (f, next')) :
    ∃ g', accept room next g = .ok (g', next') ∧ Form.read g' = .value f := by
  unfold parse at h
  split at h
  · cases h
  · rename_i g' n haccept
    split at h
    · rename_i hread
      cases h
      exact ⟨g', haccept, hread⟩
    · cases h

theorem read_dump {f : Form} (h : Form.read f.dump = .value f) :
    Graph.read f.dump = .ok (.form f) := by
  have hmode : Mode.ofGraph f.dump = .ok .form := rfl
  simp only [Graph.read, hmode, Graph.readAs, h]
  rfl

/-- A parsed form is dumped as its graph with ids stands, field by field; the dump, handed over as
it is or as the typed form, is accepted without new ids; and it is read as the same form. -/
theorem dump_of_parse {room : Room} {next next' : Supply} {g : Json} {f : Form}
    (h : parse room next g = .ok (f, next')) :
    ∃ g', accept room next g = .ok (g', next') ∧ FormDumps g' f.dump ∧
      (∀ s ∈ [Subject.typed f, .raw f.dump], check s.graph = .ok () ∧
        ∀ m, accept room m s.graph = .ok (f.dump, m)) ∧
      Form.read f.dump = .value f ∧ Graph.read f.dump = .ok (.form f) := by
  obtain ⟨g', haccept, hread⟩ := exists_accept_of_parse h
  obtain ⟨hagrees, hagain, hsettled⟩ := roundTrip_form (isSettled_of_accept haccept) hread
  refine ⟨g', haccept, hagrees, fun s hs => ?_, hagain, read_dump hagain⟩
  have hgraph : s.graph = f.dump := by
    simp only [List.mem_cons, List.not_mem_nil, or_false] at hs
    rcases hs with rfl | rfl <;> rfl
  have hlow : f.dump.height ≤ room.height :=
    Nat.le_trans (height_dump_le f) (Nat.le_trans (by decide) room.ample)
  rw [hgraph]
  exact ⟨check_eq_ok_iff.2 hsettled.form, accept_of_isSettled hsettled hlow⟩

def mixedForm : Json :=
  .obj [("mode", .str "form"), ("note", .arr []),
    ("conditions", .arr [.obj [("type", .str "OR"), ("rules", .arr
      [.obj [("indicator", .str "mid_up"), ("operator", .str ">"), ("value", .int 1)],
        .obj [("id", .str "r"), ("indicator", .str "hour_utc"), ("operator", .str "between"),
          ("value", .arr [.int (-3), .double .one])]])]]),
    ("action", .obj [("signal", .str "buy"), ("outcome", .str "UP"), ("size_mode", .str "fixed"),
      ("size_usdc", .int 5), ("order_type", .str "market")]),
    ("risk", .obj [("max_position_usdc", .int 10), ("max_trades_per_slot", .double .one),
      ("stoploss_pct", .null), ("cooldown_seconds", .int 60)])]

def typedMixedForm : Form where
  conditions := [⟨some (idText 1), .any, [⟨some (idText 2), .midUp, .above, .single .one⟩,
    ⟨some "r", .hourUtc, .between, .range (.ofInt (-3)) .one⟩]⟩]
  action := ⟨.buy, .up, .fixed, .ofInt 5, .market⟩
  risk := ⟨.ofInt 10, .one, none, none, none, some (.ofInt 60)⟩

theorem parse_mixedForm :
    ∃ next, parse .direct .counted mixedForm = .ok (typedMixedForm, next) := by
  have hsome : (parse .direct .counted mixedForm).toOption.map Prod.fst = some typedMixedForm := by
    decide +kernel
  cases hparse : parse .direct .counted mixedForm with
  | error e =>
    rw [hparse] at hsome
    cases hsome
  | ok r =>
    obtain ⟨f, next⟩ := r
    rw [hparse] at hsome
    cases hsome
    exact ⟨next, rfl⟩

theorem dump_of_parse_mixedForm : ∃ next,
    parse .direct .counted mixedForm = .ok (typedMixedForm, next) ∧
    ∃ g', accept .direct .counted mixedForm = .ok (g', next) ∧ FormDumps g' typedMixedForm.dump ∧
      (∀ s ∈ [Subject.typed typedMixedForm, .raw typedMixedForm.dump], check s.graph = .ok () ∧
        ∀ m, accept .direct m s.graph = .ok (typedMixedForm.dump, m)) ∧
      Form.read typedMixedForm.dump = .value typedMixedForm ∧
      Graph.read typedMixedForm.dump = .ok (.form typedMixedForm) := by
  obtain ⟨next, hparse⟩ := parse_mixedForm
  exact ⟨next, hparse, dump_of_parse hparse⟩

end StrategyDesk.Form
