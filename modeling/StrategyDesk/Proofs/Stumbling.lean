import StrategyDesk.Proofs.FlowAcceptance
import StrategyDesk.Proofs.FormShape
import StrategyDesk.Proofs.Settling

/-!
Where a check stumbles. The check of a flow always ends with a verdict. The check of a form
stumbles over the first field that is not in order if that field is a list or an object in the
place of a word, or a number without a finite double; and a form that is in order is stumbled over
if it is too high to be copied. Nothing else keeps a graph from a verdict.
-/

set_option autoImplicit false

namespace StrategyDesk
open Json Check

namespace Form

/-- A rule that the check stumbles over. -/
inductive RuleTrips : Json → Crash → Prop where
  | indicator {ms : Members} (h : IsContainer (look ms "indicator")) :
    RuleTrips (.obj ms) .wrongKind
  | operator {ms : Members} (hindicator : Names Indicator (look ms "indicator"))
    (h : IsContainer (look ms "operator")) : RuleTrips (.obj ms) .wrongKind
  | single {ms : Members} (hindicator : Names Indicator (look ms "indicator"))
    (hoperator : Names Operator (look ms "operator"))
    (hword : look ms "operator" ≠ .str betweenWord) (h : IsVast (look ms "value")) :
    RuleTrips (.obj ms) .tooLarge
  | range {ms : Members} (hindicator : Names Indicator (look ms "indicator"))
    (hword : look ms "operator" = .str betweenWord) (h : IsVastPair (look ms "value")) :
    RuleTrips (.obj ms) .tooLarge

/-- A list with an item that is stumbled over, before which all is fine. -/
inductive ItemTrips (fine : Json → Prop) (trips : Json → Crash → Prop) : Json → Crash → Prop where
  | item {before after : List Json} {j : Json} {c : Crash} (hbefore : ∀ b ∈ before, fine b)
    (h : trips j c) : ItemTrips fine trips (.arr (before ++ j :: after)) c

inductive GroupTrips : Json → Crash → Prop where
  | rules {ms : Members} {c : Crash} (hjunction : Names Junction (look ms "type"))
    (h : ItemTrips IsRule RuleTrips (look ms "rules") c) : GroupTrips (.obj ms) c

inductive ActionTrips : Json → Crash → Prop where
  | size {ms : Members} (hsignal : Names Signal (look ms "signal"))
    (houtcome : Names Outcome (look ms "outcome")) (hmode : Names SizeMode (look ms "size_mode"))
    (h : IsVast (look ms "size_usdc")) : ActionTrips (.obj ms) .tooLarge

inductive RiskTrips : Json → Crash → Prop where
  | position {ms : Members} (h : IsVast (look ms "max_position_usdc")) :
    RiskTrips (.obj ms) .tooLarge
  | trades {ms : Members} (hposition : IsAtLeastOne (look ms "max_position_usdc"))
    (h : IsVast (look ms "max_trades_per_slot")) : RiskTrips (.obj ms) .tooLarge
  | limit {ms : Members} {before after : List RiskLimit} {l : RiskLimit}
    (hposition : IsAtLeastOne (look ms "max_position_usdc"))
    (htrades : IsAtLeastOne (look ms "max_trades_per_slot"))
    (hall : RiskLimit.all = before ++ l :: after)
    (hbefore : ∀ k ∈ before, IsLimit (look ms k.name)) (h : IsVast (look ms l.name)) :
    RiskTrips (.obj ms) .tooLarge

/-- A form that the check stumbles over. -/
inductive CheckTrips : Json → Crash → Prop where
  | conditions {ms : Members} {c : Crash} (hmode : look ms "mode" = .str Mode.form.name)
    (h : ItemTrips IsGroup GroupTrips (look ms "conditions") c) : CheckTrips (.obj ms) c
  | action {ms : Members} {c : Crash} (hmode : look ms "mode" = .str Mode.form.name)
    (hconditions : IsListOf IsGroup (look ms "conditions"))
    (h : ActionTrips (look ms "action") c) : CheckTrips (.obj ms) c
  | risk {ms : Members} {c : Crash} (hmode : look ms "mode" = .str Mode.form.name)
    (hconditions : IsListOf IsGroup (look ms "conditions")) (haction : IsAction (look ms "action"))
    (h : RiskTrips (look ms "risk") c) : CheckTrips (.obj ms) c

/-- A form that is stumbled over on the way to a verdict. -/
inductive Trips (room : Room) : Json → Crash → Prop where
  | check {g : Json} {c : Crash} (h : CheckTrips g c) : Trips room g c
  | copy {g : Json} (h : IsForm g) (hhigh : room.height < g.height) : Trips room g .tooDeep

theorem checkValue_eq_crash_iff {operator value : Json} {c : Crash} :
    checkValue operator value = .error (.crash c) ↔
      (operator ≠ .str betweenWord ∧ IsVast value ∧ c = .tooLarge) ∨
        (operator = .str betweenWord ∧ IsVastPair value ∧ c = .tooLarge) := by
  unfold checkValue
  split
  · rename_i hword
    rw [ensure_eq_crash_iff, tests_numberPair.wild_iff]
    simp [isWord_iff.1 hword, betweenWord]
  · rename_i hword
    have hother : operator ≠ .str betweenWord := fun h => hword (isWord_iff.2 h)
    rw [ensure_eq_crash_iff, tests_number.wild_iff]
    simp [hother]

theorem checkRule_eq_crash_iff {j : Json} {c : Crash} :
    checkRule j = .error (.crash c) ↔ RuleTrips j c := by
  cases j with
  | obj ms =>
    simp only [checkRule, inOrder_cons_eq_error_iff, inOrder_nil, reduceCtorEq, and_false, or_false,
      ensure_eq_crash_iff, ensure_eq_ok_iff, tests_listed.fine_iff, tests_listed.wild_iff,
      checkValue_eq_crash_iff]
    constructor
    · rintro (⟨h, rfl⟩ | ⟨hindicator, ⟨h, rfl⟩ | ⟨hoperator, ⟨hword, h, rfl⟩ | ⟨hword, h, rfl⟩⟩⟩)
      · exact .indicator h
      · exact .operator hindicator h
      · exact .single hindicator hoperator hword h
      · exact .range hindicator hword h
    · intro h
      cases h with
      | indicator h => exact Or.inl ⟨h, rfl⟩
      | operator hindicator h => exact Or.inr ⟨hindicator, Or.inl ⟨h, rfl⟩⟩
      | single hindicator hoperator hword h =>
        exact Or.inr ⟨hindicator, Or.inr ⟨hoperator, Or.inl ⟨hword, h, rfl⟩⟩⟩
      | range hindicator hword h =>
        exact Or.inr ⟨hindicator, Or.inr ⟨hword ▸ names_betweenWord, Or.inr ⟨hword, h, rfl⟩⟩⟩
  | _ => constructor <;> intro h <;> cases h

theorem itemTrips_iff {ε δ : Type} {whole : Json → Check δ} {check : Json → Check ε}
    {f : Nat → ε → δ} {fine : Json → Prop} {trips : Json → Crash → Prop}
    (hfine : ∀ {j : Json}, check j = .ok () ↔ fine j)
    (htrips : ∀ {j : Json} {c : Crash}, check j = .error (.crash c) ↔ trips j c)
    (hitems : ∀ j js, whole (.arr (j :: js)) =
      inOrder ((j :: js).mapIdx fun i k => within (f i) (check k)))
    (hlist : ∀ x c, whole x = .error (.crash c) → ∃ j js, x = .arr (j :: js)) {x : Json}
    {c : Crash} : whole x = .error (.crash c) ↔ ItemTrips fine trips x c := by
  have hwhole (j : Json) (js : List Json) : whole (.arr (j :: js)) = .error (.crash c) ↔
      ∃ before k after, j :: js = before ++ k :: after ∧ (∀ b ∈ before, fine b) ∧ trips k c := by
    rw [hitems, mapIdx_within, inOrder_mapIdx_within_eq_crash_iff, inOrder_map_eq_crash_iff]
    simp only [hfine, htrips]
  constructor
  · intro h
    obtain ⟨j, js, rfl⟩ := hlist x c h
    obtain ⟨before, k, after, hjs, hbefore, hk⟩ := (hwhole j js).1 h
    rw [hjs]
    exact .item hbefore hk
  · intro h
    cases h with
    | item hbefore hk =>
      rename_i before after k
      obtain ⟨j, js, hjs⟩ := List.exists_cons_of_ne_nil
        (List.append_ne_nil_of_right_ne_nil before (List.cons_ne_nil k after))
      rw [hjs]
      exact (hwhole j js).2 ⟨before, k, after, hjs.symm, hbefore, hk⟩

theorem checkRules_eq_crash_iff {j : Json} {c : Crash} :
    checkRules j = .error (.crash c) ↔ ItemTrips IsRule RuleTrips j c := by
  refine itemTrips_iff checkRule_eq_ok_iff checkRule_eq_crash_iff (fun _ _ => rfl) fun x c hx => ?_
  unfold checkRules at hx
  split at hx
  · exact ⟨_, _, rfl⟩
  · cases hx

theorem checkGroup_eq_crash_iff {j : Json} {c : Crash} :
    checkGroup j = .error (.crash c) ↔ GroupTrips j c := by
  cases j with
  | obj ms =>
    simp only [checkGroup, inOrder_cons_eq_error_iff, inOrder_nil, reduceCtorEq, and_false,
      or_false, false_or, ensure_eq_crash_iff, ensure_eq_ok_iff, Except.ok.injEq, isOneOf_iff,
      checkRules_eq_crash_iff]
    exact ⟨fun h => .rules h.1 h.2, fun h => by cases h; exact ⟨‹_›, ‹_›⟩⟩
  | _ => constructor <;> intro h <;> cases h

theorem checkConditions_eq_crash_iff {j : Json} {c : Crash} :
    checkConditions j = .error (.crash c) ↔ ItemTrips IsGroup GroupTrips j c := by
  refine itemTrips_iff checkGroup_eq_ok_iff checkGroup_eq_crash_iff (fun _ _ => rfl)
    fun x c hx => ?_
  unfold checkConditions at hx
  split at hx
  · exact ⟨_, _, rfl⟩
  · cases hx

theorem checkAction_eq_crash_iff {j : Json} {c : Crash} :
    checkAction j = .error (.crash c) ↔ ActionTrips j c := by
  cases j with
  | obj ms =>
    simp only [checkAction, inOrder_cons_eq_error_iff, inOrder_nil, reduceCtorEq, and_false,
      or_false, false_or, ensure_eq_crash_iff, ensure_eq_ok_iff, Except.ok.injEq, isOneOf_iff,
      tests_atLeastOne.wild_iff]
    constructor
    · rintro ⟨hsignal, houtcome, hmode, h, rfl⟩
      exact .size hsignal houtcome hmode h
    · rintro ⟨hsignal, houtcome, hmode, h⟩
      exact ⟨hsignal, houtcome, hmode, h, rfl⟩
  | _ => constructor <;> intro h <;> cases h

theorem checkLimit_eq_crash_iff {ms : Members} {l : RiskLimit} {c : Crash} :
    checkLimit ms l = .error (.crash c) ↔ IsVast (look ms l.name) ∧ c = .tooLarge := by
  unfold checkLimit
  split
  · rename_i hnull
    rw [hnull]
    constructor
    · intro h
      cases h
    · rintro ⟨h, -⟩
      cases h
  · rw [ensure_eq_crash_iff, tests_positive.wild_iff]

theorem checkRisk_eq_crash_iff {j : Json} {c : Crash} :
    checkRisk j = .error (.crash c) ↔ RiskTrips j c := by
  cases j with
  | obj ms =>
    simp only [checkRisk, inOrder_cons_eq_error_iff, inOrder_map_eq_crash_iff, ensure_eq_crash_iff,
      ensure_eq_ok_iff, tests_atLeastOne.fine_iff, tests_atLeastOne.wild_iff, checkLimit_eq_ok_iff,
      checkLimit_eq_crash_iff]
    constructor
    · rintro (⟨h, rfl⟩ | ⟨hposition, ⟨h, rfl⟩ |
        ⟨htrades, before, l, after, hall, hbefore, h, rfl⟩⟩)
      · exact .position h
      · exact .trades hposition h
      · exact .limit hposition htrades hall hbefore h
    · intro h
      cases h with
      | position h => exact Or.inl ⟨h, rfl⟩
      | trades hposition h => exact Or.inr ⟨hposition, Or.inl ⟨h, rfl⟩⟩
      | limit hposition htrades hall hbefore h =>
        exact Or.inr ⟨hposition, Or.inr ⟨htrades, _, _, _, hall, hbefore, h, rfl⟩⟩
  | _ => constructor <;> intro h <;> cases h

theorem check_eq_crash_iff {j : Json} {c : Crash} :
    check j = .error (.crash c) ↔ CheckTrips j c := by
  cases j with
  | obj ms =>
    simp only [check, inOrder_cons_eq_error_iff, inOrder_nil, reduceCtorEq, and_false, or_false,
      false_or, ensure_eq_crash_iff, ensure_eq_ok_iff, within_eq_crash_iff, within_eq_ok_iff,
      Except.ok.injEq, isWord_iff, checkConditions_eq_ok_iff, checkConditions_eq_crash_iff,
      checkAction_eq_ok_iff, checkAction_eq_crash_iff, checkRisk_eq_crash_iff]
    constructor
    · rintro ⟨hmode, h | ⟨hconditions, h | ⟨haction, h⟩⟩⟩
      · exact .conditions hmode h
      · exact .action hmode hconditions h
      · exact .risk hmode hconditions haction h
    · intro h
      cases h with
      | conditions hmode h => exact ⟨hmode, Or.inl h⟩
      | action hmode hconditions h => exact ⟨hmode, Or.inr ⟨hconditions, Or.inl h⟩⟩
      | risk hmode hconditions haction h =>
        exact ⟨hmode, Or.inr ⟨hconditions, Or.inr ⟨haction, h⟩⟩⟩
  | _ => constructor <;> intro h <;> cases h

/-! ### Ids -/

theorem throughItems_isOk {step : Supply → Json → Except Crash (Json × Supply)} {js : List Json}
    (h : ∀ j ∈ js, ∀ n, ∃ r, step n j = .ok r) (next : Supply) :
    ∃ r, throughItems step next js = .ok r := by
  induction js generalizing next with
  | nil => exact ⟨_, rfl⟩
  | cons j js ih =>
    obtain ⟨hj, hjs⟩ := List.forall_mem_cons.1 h
    obtain ⟨⟨j', n⟩, hj⟩ := hj next
    obtain ⟨⟨js', m⟩, hrest⟩ := ih hjs n
    exact ⟨(j' :: js', m), by simp only [throughItems, hj, hrest]⟩

theorem throughMember_isOk {step : Supply → Json → Except Crash (Json × Supply)} {key : String}
    {ms : Members} {js : List Json} (hkey : find? ms key = some (.arr js))
    (h : ∀ j ∈ js, ∀ n, ∃ r, step n j = .ok r) (next : Supply) :
    ∃ r, throughMember step key next ms = .ok r := by
  obtain ⟨⟨js', n⟩, hitems⟩ := throughItems_isOk h next
  exact ⟨_, by simp only [throughMember, hkey, hitems]; rfl⟩

theorem ruleWithId_isOk {j : Json} (h : IsRule j) (next : Supply) :
    ∃ r, ruleWithId next j = .ok r := by
  cases h <;> exact ⟨_, rfl⟩

theorem groupWithIds_isOk {j : Json} (h : IsGroup j) (next : Supply) :
    ∃ r, groupWithIds next j = .ok r := by
  cases h with
  | @group ms _ hrules =>
    generalize hlook : look ms "rules" = rules at hrules
    cases hrules with
    | @items js _ hrules =>
      have hfind : find? (giveId next ms).1 "rules" = some (.arr js) := by
        rw [find?_giveId (by decide)]
        exact find?_of_look hlook (fun h => nomatch h)
      obtain ⟨⟨ms', n⟩, hids⟩ := throughMember_isOk hfind
        (fun j hj m => ruleWithId_isOk (hrules j hj) m) (giveId next ms).2
      exact ⟨(.obj ms', n), by simp only [groupWithIds, hids]⟩

theorem membersWithIds_isOk {ms : Members} (h : IsForm (.obj ms)) (next : Supply) :
    ∃ r, membersWithIds next ms = .ok r := by
  cases h with
  | form _ hconditions =>
    generalize hlook : look ms "conditions" = conditions at hconditions
    cases hconditions with
    | items _ hgroups =>
      exact throughMember_isOk (find?_of_look hlook fun h => nomatch h)
        (fun j hj n => groupWithIds_isOk (hgroups j hj) n) next

theorem withIds_of_isForm {g : Json} (h : IsForm g) (room : Room) (next : Supply) :
    (room.height < g.height ∧ withIds room next g = .error .tooDeep) ∨
      (¬ room.height < g.height ∧ ∃ r, withIds room next g = .ok r) := by
  cases g with
  | obj ms =>
    obtain ⟨⟨ms', n⟩, hids⟩ := membersWithIds_isOk h next
    by_cases hhigh : room.height < (Json.obj ms).height
    · refine Or.inl ⟨hhigh, ?_⟩
      simp only [withIds, asMembers, bind, Except.bind, if_pos hhigh]
    · refine Or.inr ⟨hhigh, (.obj ms', n), ?_⟩
      simp only [withIds, asMembers, bind, Except.bind, if_neg hhigh, hids]
      rfl
  | _ => cases h

theorem accept_cases (room : Room) (next : Supply) (g : Json) :
    (IsForm g ∧ ¬ room.height < g.height ∧ ∃ r, accept room next g = .ok r) ∨
      (∃ c, Trips room g c ∧ accept room next g = .error (.crash c)) ∨
      (∃ f, check g = .error (.fault f) ∧ accept room next g = .error (.fault f)) := by
  cases hcheck : check g with
  | ok u =>
    have hform := check_eq_ok_iff.1 hcheck
    have haccept : accept room next g = (withIds room next g).mapError .crash := by
      simp only [accept, hcheck]
    obtain ⟨hhigh, hids⟩ | ⟨hlow, r, hids⟩ := withIds_of_isForm hform room next
    · exact Or.inr (Or.inl ⟨_, .copy hform hhigh, by rw [haccept, hids]; rfl⟩)
    · exact Or.inl ⟨hform, hlow, r, by rw [haccept, hids]; rfl⟩
  | error a =>
    have haccept : accept room next g = .error a := by simp only [accept, hcheck]
    cases a with
    | fault f => exact Or.inr (Or.inr ⟨f, rfl, haccept⟩)
    | crash c => exact Or.inr (Or.inl ⟨c, .check (check_eq_crash_iff.1 hcheck), haccept⟩)

theorem accept_eq_crash_iff {room : Room} {next : Supply} {g : Json} {c : Crash} :
    accept room next g = .error (.crash c) ↔ Trips room g c := by
  constructor
  · intro h
    obtain ⟨-, -, r, haccept⟩ | ⟨d, htrips, haccept⟩ | ⟨f, -, haccept⟩ := accept_cases room next g
    · rw [haccept] at h
      cases h
    · rw [haccept] at h
      cases h
      exact htrips
    · rw [haccept] at h
      cases h
  · intro h
    cases h with
    | check h => simp only [accept, check_eq_crash_iff.2 h]
    | copy hform hhigh =>
      obtain ⟨-, hids⟩ | ⟨hlow, -⟩ := withIds_of_isForm hform room next
      · simp only [accept, check_eq_ok_iff.2 hform, hids]
        rfl
      · exact absurd hhigh hlow

theorem Trips.mode {room : Room} {g : Json} {c : Crash} (h : Trips room g c) :
    Mode.ofGraph g = .ok .form := by
  rw [Mode.ofGraph_eq_ok_iff]
  cases h with
  | check h => cases h <;> exact ⟨_, rfl, ‹_›⟩
  | copy h => cases h; exact ⟨_, rfl, ‹_›⟩

/-! ### Paths -/

theorem Fault.path_ne_empty (f : Fault) : f.path ≠ "" := by
  have hrule (base : String) (hbase : base ≠ "") (f : RuleFault) : f.path base ≠ "" := by
    cases f <;> simp [RuleFault.path, hbase]
  have hindexed (name : String) (i : Nat) : indexed name i ≠ "" := by simp [indexed]
  have hgroup (base : String) (hbase : base ≠ "") (f : GroupFault) : f.path base ≠ "" := by
    cases f with
    | rule i f => exact hrule _ (hindexed _ i) f
    | _ => simp [GroupFault.path, hbase]
  cases f with
  | group i f => exact hgroup _ (hindexed _ i) f
  | action f => cases f <;> simp [Fault.path, ActionFault.path]
  | risk f => cases f <;> simp [Fault.path, RiskFault.path]
  | _ => simp [Fault.path]

end Form

theorem pathText_ne_empty (place : List Step) : pathText place ≠ "" := by
  unfold pathText
  dsimp only
  split
  · decide
  · rename_i hpath
    exact fun h => hpath (by rw [h]; rfl)

theorem Mode.path_ne_empty {g : Json} {e : GraphError} (h : Mode.ofGraph g = .error e) :
    e.path ≠ "" := by
  cases g with
  | obj ms =>
    simp only [ofGraph, ofMembers] at h
    split at h
    · split at h
      · cases h
      · cases h
        decide
    · cases h
      decide
  | _ =>
    cases h
    decide

theorem Flow.Breach.path_ne_empty {ms : Members} {v : Violation} (h : Flow.Breach ms v) :
    v.path ≠ "" := by
  cases h with
  | tooMany => decide
  | node => simp [Flow.FetchFault.report]

/-- Whether a graph was judged: it is accepted, or an error or the unsafe sources are placed. -/
inductive IsJudged : Except Failure Accepted → Prop where
  | accepted (a : Accepted) : IsJudged (.ok a)
  | wrong (e : GraphError) (hpath : e.path ≠ "") : IsJudged (.error (.graph e))
  | insecure (vs : List Violation) (hne : vs ≠ []) (hpath : ∀ v ∈ vs, v.path ≠ "") :
    IsJudged (.error (.insecure vs))

theorem isJudged_or_trips (room : Room) (next : Form.Supply) (g : Json) :
    IsJudged (Graph.accept room next g) ∨
      ∃ c, Form.Trips room g c ∧ Graph.accept room next g = .error (.crash c) := by
  cases hmode : Mode.ofGraph g with
  | error e =>
    have haccept : Graph.accept room next g = .error (.graph e) := by
      simp only [Graph.accept, hmode]
    exact Or.inl (haccept ▸ .wrong e (Mode.path_ne_empty hmode))
  | ok m =>
    cases m with
    | form =>
      obtain ⟨-, -, ⟨g', n⟩, hform⟩ | ⟨c, htrips, hform⟩ | ⟨f, -, hform⟩ :=
        Form.accept_cases room next g
      · have haccept : Graph.accept room next g = .ok ⟨.form, g', n⟩ := by
          simp only [Graph.accept, hmode, hform]
        exact Or.inl (haccept ▸ .accepted _)
      · exact Or.inr ⟨c, htrips, by simp only [Graph.accept, hmode, hform, Form.failureOf]⟩
      · have haccept : Graph.accept room next g = .error (.graph f.report) := by
          simp only [Graph.accept, hmode, hform, Form.failureOf]
        exact Or.inl (haccept ▸ .wrong _ f.path_ne_empty)
    | flow =>
      obtain ⟨ms, rfl, hname⟩ := Mode.ofGraph_eq_ok_iff.1 hmode
      refine Or.inl ?_
      obtain ⟨-, -, h⟩ | ⟨-, p, m, -, h⟩ | ⟨-, -, vs, hne, hvs, h⟩ := Flow.accept_cases hname
      · have haccept : Graph.accept room next (.obj ms) = .ok ⟨.flow, .obj ms, next⟩ := by
          simp only [Graph.accept, hmode, h]
        exact haccept ▸ .accepted _
      · have haccept : Graph.accept room next (.obj ms) =
            .error (.graph ⟨.structural, pathText p, m.message⟩) := by
          simp only [Graph.accept, hmode, h]
        exact haccept ▸ .wrong _ (pathText_ne_empty p)
      · have haccept : Graph.accept room next (.obj ms) = .error (.insecure vs) := by
          simp only [Graph.accept, hmode, h]
        exact haccept ▸ .insecure vs hne fun v hv => ((hvs v).1 hv).path_ne_empty

theorem not_isJudged_crash (c : Crash) : ¬ IsJudged (.error (.crash c)) := fun h => nomatch h

theorem Graph.accept_of_trips {room : Room} {g : Json} {c : Crash} (h : Form.Trips room g c)
    (next : Form.Supply) :
    Graph.accept room next g = .error (.crash c) := by
  simp only [Graph.accept, h.mode, Form.accept_eq_crash_iff.2 h, Form.failureOf]

/-- A graph is judged unless it is a form that is stumbled over, and crashes if it is one. -/
theorem judged_graphs (room : Room) (next : Form.Supply) (g : Json) :
    (IsJudged (Graph.accept room next g) ↔ ∀ c, ¬ Form.Trips room g c) ∧
      ∀ c, Graph.accept room next g = .error (.crash c) ↔ Form.Trips room g c := by
  refine ⟨⟨fun hjudged c htrips => ?_, fun hnone => ?_⟩, fun c => ⟨fun hcrash => ?_, fun htrips =>
    Graph.accept_of_trips htrips next⟩⟩
  · rw [Graph.accept_of_trips htrips next] at hjudged
    exact not_isJudged_crash c hjudged
  · obtain hjudged | ⟨c, htrips, -⟩ := isJudged_or_trips room next g
    · exact hjudged
    · exact absurd htrips (hnone c)
  · obtain hjudged | ⟨d, htrips, hd⟩ := isJudged_or_trips room next g
    · rw [hcrash] at hjudged
      exact absurd hjudged (not_isJudged_crash c)
    · rw [hcrash] at hd
      cases hd
      exact htrips

def listedForm : Json :=
  .obj [("mode", .str "form"), ("conditions", .arr [.obj [("type", .str "AND"), ("rules", .arr
    [.obj [("indicator", .arr []), ("operator", .str ">"), ("value", .int 1)]])]])]

/-- A list in the place of an indicator has no verdict. -/
theorem not_isJudged_listedForm : ¬ IsJudged (Graph.accept .direct .counted listedForm) := by
  have hcrash : Graph.accept .direct .counted listedForm = .error (.crash .wrongKind) := rfl
  rw [hcrash]
  exact not_isJudged_crash _

end StrategyDesk
