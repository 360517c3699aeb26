import StrategyDesk.Proofs.KeptLimits
import StrategyDesk.Proofs.Requests

/-!
Requests to assign a strategy to a wallet. The members of the body give the terms of the assignment,
or some of them do not fit. Terms that are given pass every check of the desk itself, so the row of
the pair holds them afterwards and runs exactly if it ran before. Members that do not fit are all
told, with their places, and nothing changes. The markets, and the values that do not fit, are part
of the answer, which is an internal error if one of them cannot be written.
-/

set_option autoImplicit false

namespace StrategyDesk

/-! ### A pair with new terms -/

namespace Store

/-- A pair is given terms. Its only row afterwards is one with these terms, which runs if the pair
had a row that ran; a pair without a row gets a new one, which is stopped. Every other row stays. -/
structure Assigns (s s' : Store) (p : Int × Int) (t : PairTerms) (a : Assignment) : Prop where
  wallets : s'.wallets = s.wallets
  strategies : s'.strategies = s.strategies
  others : s'.assignments.filter (fun b => b.pair ≠ p) = s.assignments.filter fun b => b.pair ≠ p
  only : s'.assignments.filter (fun b => b.pair = p) = [a]
  terms : a.terms = t
  kept : ∀ b ∈ s.assignments, b.pair = p →
    a.id = b.id ∧ a.running = b.running ∧ a.started = b.started
  stopped : (∀ b ∈ s.assignments, b.pair ≠ p) →
    a.id ∉ s.assignments.map Assignment.id ∧ a.running = false ∧ a.started = false

variable {s : Store}

theorem Linked.filter_pair (h : s.Linked) {a : Assignment} (ha : a ∈ s.assignments) :
    s.assignments.filter (fun b => b.pair = a.pair) = [a] := by
  have hnodup : (s.assignments.filter fun b => b.pair = a.pair).Nodup :=
    h.assignmentIds.of_map.filter _
  refine List.perm_singleton.1 ((List.perm_ext_iff_of_nodup hnodup (List.nodup_singleton a)).2
    fun b => ?_)
  rw [List.mem_filter, List.mem_singleton, decide_eq_true_eq]
  constructor
  · rintro ⟨hb, hpair⟩
    exact h.assignment_eq_of_pair hb ha hpair
  · rintro rfl
    exact ⟨ha, rfl⟩

theorem Linked.assigns_onAssignment (h : s.Linked) {old new : Assignment}
    (hold : old ∈ s.assignments) (hpair : new.pair = old.pair) (hid : new.id = old.id)
    (hrun : new.running = old.running) (hstarted : new.started = old.started) :
    s.Assigns (s.onAssignment old.id fun _ => new) old.pair new.terms new := by
  -- Each row keeps its pair, so the rows of a pair can be told apart before they are changed.
  have hpairs : ∀ b ∈ s.assignments, (if b.id = old.id then new else b).pair = b.pair := by
    intro b hb
    split
    · rename_i hb'
      rw [h.assignment_eq hb hold hb', hpair]
    · rfl
  have hfilter (q : Int × Int → Bool) :
      (s.onAssignment old.id fun _ => new).assignments.filter (fun b => q b.pair) =
        (s.assignments.filter fun b => q b.pair).map fun b => if b.id = old.id then new else b := by
    rw [onAssignment, List.filter_map]
    refine congrArg _ (List.filter_congr fun b hb => ?_)
    rw [Function.comp_apply, hpairs b hb]
  refine ⟨rfl, rfl, ?_, ?_, rfl, fun b hb hbpair => ?_, fun hnone => ?_⟩
  · rw [hfilter fun q => q ≠ old.pair]
    refine (List.map_congr_left fun b hb => ?_).trans (List.map_id _)
    have hne : b.pair ≠ old.pair := by simpa using (List.mem_filter.1 hb).2
    exact if_neg fun hb' => hne (h.assignment_eq (List.mem_of_mem_filter hb) hold hb' ▸ rfl)
  · rw [hfilter fun q => q = old.pair, h.filter_pair hold, List.map_singleton, if_pos rfl]
  · obtain rfl := h.assignment_eq_of_pair hb hold hbpair
    exact ⟨hid, hrun, hstarted⟩
  · exact absurd rfl (hnone old hold)

theorem assigns_addAssignment {new : Assignment} (hnone : ∀ b ∈ s.assignments, b.pair ≠ new.pair)
    (hid : new.id = s.nextAssignmentId) (hrun : new.running = false)
    (hstarted : new.started = false) :
    s.Assigns (s.addAssignment new) new.pair new.terms new := by
  refine ⟨rfl, rfl, ?_, ?_, rfl, fun b hb hpair => absurd hpair (hnone b hb),
    fun _ => ⟨fun hmem => ?_, hrun, hstarted⟩⟩
  · simp [addAssignment, List.filter_append]
  · have hrows : s.assignments.filter (fun b => b.pair = new.pair) = [] :=
      List.filter_eq_nil_iff.2 fun b hb => by simpa using hnone b hb
    simp [addAssignment, List.filter_append, hrows]
  · have := lt_nextId hmem
    rw [hid, nextAssignmentId] at this
    omega

end Store

def PairTerms.on (t : PairTerms) (a : Assignment) : Assignment :=
  { a with markets := t.markets, limit := t.limit, paper := t.paper }

theorem Store.Linked.assigns_place {s : Store} (h : s.Linked) (walletId strategyId : Int)
    (t : PairTerms) :
    let old := s.assignment? walletId strategyId
    let a := t.on (old.getD (s.blankAssignment walletId strategyId))
    s.Assigns (s.place old a) (walletId, strategyId) t a := by
  dsimp only
  cases hold : s.assignment? walletId strategyId with
  | none => exact assigns_addAssignment (fun b hb => pair_ne_of_assignment? hold hb) rfl rfl rfl
  | some old =>
    obtain ⟨hmem, hpair⟩ := mem_of_assignment? hold
    rw [← hpair]
    exact @Linked.assigns_onAssignment s h old (t.on old) hmem rfl rfl rfl rfl

namespace AssignRequest

/-- A request passes every check, and these are the terms that it asks for. -/
structure Passes (q : AssignRequest) (t : PairTerms) : Prop where
  check : q.check = .ok t.markets
  limit : Limit.Takes q.limit t.limit
  paper : q.paper = .bool t.paper

theorem Passes.row_eq {q : AssignRequest} {t : PairTerms} (h : q.Passes t)
    (old : Option Assignment) (fresh : Assignment) :
    q.row old fresh t.markets = .ok (t.on (old.getD fresh)) := by
  rw [row, paperFor, h.limit.amount, h.paper]
  cases old <;> rfl

end AssignRequest

variable {σ : Type}

theorem Desk.run_assignStrategy (e : Engine.Behaviour σ) {d : Desk σ} (hs : d.store.Linked)
    {walletId strategyId : Int} {w : Wallet} {r : Strategy}
    (hw : d.store.findWallet walletId = .ok w) (hr : d.store.findStrategy strategyId = .ok r)
    {q : AssignRequest} {t : PairTerms} (hq : q.Passes t) :
    ∃ a store log, (Operation.assignStrategy walletId strategyId q).run e d =
        ⟨.ok (.assigned a), { d with store }, [], log⟩ ∧
      d.store.Assigns store (walletId, strategyId) t a.row := by
  have hassigns := hs.assigns_place walletId strategyId t
  have hrun : (Operation.assignStrategy walletId strategyId q).run e d =
      (d.assignPair walletId strategyId q t.markets).map .assigned := by
    simp only [Desk.run_eq, Operation.ending, assignStrategy, hw, hr, hq.check]
  simp only [assignPair, hq.row_eq] at hrun
  exact ⟨_, _, _, hrun, hassigns⟩

/-! ### Terms in a body -/

namespace Limit

theorem Takes.value?_kept {j : Json} {d : Double} (h : Takes j d) :
    ∃ x, d.value? = some x ∧ 1 ≤ x ∧ x ≤ 1000000 := by
  obtain ⟨x, hx, hlow, hhigh, -⟩ := h.roundsTo
  obtain ⟨units, rfl, hunits, -, -⟩ := h.units
  exact ⟨x, hunits.symm.trans hx, hlow, hhigh⟩

theorem takes_double_iff {d e : Double} :
    Takes (.double e) d ↔ e = d ∧ ∃ x, d.value? = some x ∧ 1 ≤ x ∧ x ≤ 1000000 := by
  rw [← Service.bounds_iff]
  constructor
  · rintro ⟨hrange, hamount⟩
    cases hamount
    exact ⟨rfl, Bool.and_eq_true_iff.1 (Except.ok.inj hrange)⟩
  · rintro ⟨rfl, hbounds⟩
    exact ⟨congrArg Except.ok (Bool.and_eq_true_iff.2 hbounds), rfl⟩

theorem takes_default_iff {d : Double} : Takes Limit.default d ↔ d = .ofInt 100 :=
  ⟨fun h => (Except.ok.inj h.amount).symm, fun h => ⟨rfl, congrArg Except.ok h.symm⟩⟩

end Limit

namespace AssignRequest

theorem passes {names : Option (List Text)} {j : Json} {limit : Double} {paper : Bool}
    (h : Limit.Takes j limit) :
    Passes ⟨Service.marketsJson names, j, .bool paper⟩ ⟨names.getD [], limit, paper⟩ where
  check := by simp only [check, h.inRange, Service.marketsOf_marketsJson]
  limit := h
  paper := rfl

end AssignRequest

namespace Service
open Json Reading Reader

/-- The members of a body give the terms of an assignment: a list of texts for the markets, a number
between the bounds for the limit, and a truth value for the paper flag. Without markets there are
none, the limit is 100 where there is none, and the paper flag is not set. -/
structure GivesTerms (ms : Members) (t : PairTerms) : Prop where
  markets : ∃ names, GivesOr ms "markets" (MeansOption (MeansList MeansText)) none names ∧
    t.markets = names.getD []
  limit : GivesOr ms "max_position_usdc" MeansLimit (.ofInt 100) t.limit
  paper : GivesOr ms "is_paper" MeansTruth false t.paper

theorem givesOr_limit_iff {ms : Members} {key : String} {d : Double} :
    (∃ j, GivesOr ms key (fun j k => ∃ e, MeansLimit j e ∧ .double e = k) (.int 100) j ∧
      Limit.Takes j d) ↔ GivesOr ms key MeansLimit (.ofInt 100) d := by
  constructor
  · rintro ⟨j, ⟨k, hk, e, hmeans, rfl⟩ | ⟨hnone, rfl⟩, htakes⟩
    · obtain ⟨rfl, -⟩ := Limit.takes_double_iff.1 htakes
      exact Or.inl ⟨k, hk, hmeans⟩
    · exact Or.inr ⟨hnone, Limit.takes_default_iff.1 htakes⟩
  · rintro (⟨k, hk, hmeans⟩ | ⟨hnone, hd⟩)
    · exact ⟨.double d, Or.inl ⟨k, hk, d, hmeans, rfl⟩,
        Limit.takes_double_iff.2 ⟨rfl, hmeans.bounds⟩⟩
    · exact ⟨_, Or.inr ⟨hnone, rfl⟩, Limit.takes_default_iff.2 hd⟩

theorem givesTerms_of_readAssign {ms : Members} {make : Int → Operation}
    (h : readAssign ms = .value make) : ∃ t, GivesTerms ms t := by
  obtain ⟨strategyId, names, j, paper, -, hmarkets, hlimit, hpaper, -⟩ :=
    readAssign_eq_value_iff.1 h
  have htakes : ∃ d, Limit.Takes j d := by
    obtain ⟨k, hk, d, hmeans, rfl⟩ | ⟨-, rfl⟩ := hlimit
    · exact ⟨d, Limit.takes_double_iff.2 ⟨rfl, hmeans.bounds⟩⟩
    · exact ⟨_, Limit.takes_default_iff.2 rfl⟩
  obtain ⟨d, htakes⟩ := htakes
  exact ⟨⟨names.getD [], d, paper⟩, ⟨names, hmarkets, rfl⟩,
    givesOr_limit_iff.1 ⟨j, hlimit, htakes⟩, hpaper⟩

theorem readAssign_of_givesTerms {ms : Members} {strategyId : Int} {t : PairTerms}
    (hstrategy : Gives ms "strategy_id" MeansInt strategyId) (h : GivesTerms ms t) :
    ∃ q : AssignRequest, q.Passes t ∧
      readAssign ms = .value fun walletId => .assignStrategy walletId strategyId q := by
  obtain ⟨⟨names, hmarkets, hnames⟩, hlimit, hpaper⟩ := h
  obtain ⟨j, hj, htakes⟩ := givesOr_limit_iff.2 hlimit
  have hpasses : AssignRequest.Passes ⟨marketsJson names, j, .bool t.paper⟩
      ⟨names.getD [], t.limit, t.paper⟩ := AssignRequest.passes htakes
  rw [← hnames] at hpasses
  exact ⟨_, hpasses, readAssign_eq_value_iff.2
    ⟨strategyId, names, j, t.paper, hstrategy, hmarkets, hj, hpaper, rfl⟩⟩

theorem GivesTerms.markets_eq {ms : Members} {t u : PairTerms} (ht : GivesTerms ms t)
    (hu : GivesTerms ms u) : t.markets = u.markets := by
  obtain ⟨names, hnames, ht⟩ := ht.markets
  obtain ⟨names', hnames', hu⟩ := hu.markets
  rw [← reads_text, ← reads_list, ← reads_optional, ← fieldOr_eq_value_iff] at hnames hnames'
  rw [hnames, Reading.value.injEq] at hnames'
  rw [ht, hu, hnames']

/-! ### Members that do not fit -/

/-- A value stands at a place of a body and does not fit there, as it means no term of an
assignment. -/
inductive Unfit (ms : Members) : List Step → Json → Prop where
  | markets {j : Json} (hj : find? ms "markets" = some j) (hnull : j ≠ .null)
    (hlist : ∀ js, j ≠ .arr js) : Unfit ms [.key "body", .key "markets"] j
  | market {js : List Json} {i : Nat} {j : Json} (hjs : find? ms "markets" = some (.arr js))
    (hj : js[i]? = some j) (htext : ∀ name, ¬ MeansText j name) :
    Unfit ms [.key "body", .key "markets", .index i] j
  | limit {j : Json} (hj : find? ms "max_position_usdc" = some j)
    (hlimit : ∀ d, ¬ MeansLimit j d) : Unfit ms [.key "body", .key "max_position_usdc"] j
  | paper {j : Json} (hj : find? ms "is_paper" = some j) (hpaper : ∀ b, ¬ MeansTruth j b) :
    Unfit ms [.key "body", .key "is_paper"] j

/-- A value was found at a mistake in that place. -/
def FoundAt (ds : List Detail) (p : List Step) (j : Json) : Prop := ∃ m, ⟨p, m, j⟩ ∈ ds

section FoundAt

variable {α : Type} {r : Reader α} {ds es : List Detail} {p : List Step} {j k : Json}

theorem foundAt_nil : ¬ FoundAt [] p j := fun ⟨_, h⟩ => List.not_mem_nil h

theorem foundAt_append : FoundAt (ds ++ es) p j ↔ FoundAt ds p j ∨ FoundAt es p j := by
  simp only [FoundAt, List.mem_append, exists_or]

theorem foundAt_under {s : Step} :
    FoundAt (ds.map fun d => { d with place := s :: d.place }) p j ↔
      ∃ q, p = s :: q ∧ FoundAt ds q j := by
  constructor
  · rintro ⟨m, hm⟩
    obtain ⟨d, hd, heq⟩ := List.mem_map.1 hm
    cases heq
    exact ⟨d.place, rfl, d.mistake, hd⟩
  · rintro ⟨q, rfl, m, hm⟩
    exact ⟨m, List.mem_map.2 ⟨_, hm, rfl⟩⟩

theorem foundAt_wrong {m : Mistake} :
    FoundAt (wrong m j : Reading α).details p k ↔ p = [] ∧ k = j := by
  simp [FoundAt, wrong, details]

theorem IsPlain.foundAt_iff (h : IsPlain r) :
    FoundAt (r j).details p k ↔ p = [] ∧ k = j ∧ ∀ a, ¬ Reads r k a := by
  obtain ⟨a, ha⟩ | ⟨m, hm⟩ := h j
  · rw [ha]
    refine ⟨fun hfound => absurd hfound foundAt_nil, ?_⟩
    rintro ⟨-, rfl, hnone⟩
    exact absurd ha (hnone a)
  · rw [hm, foundAt_wrong]
    refine and_congr_right fun _ => ⟨?_, And.left⟩
    rintro rfl
    exact ⟨rfl, fun a ha => nomatch hm.symm.trans ha⟩

theorem IsPlain.foundAt_itemsFrom (h : IsPlain r) {i : Nat} {js : List Json} :
    FoundAt (itemsFrom r i js).details p k ↔
      ∃ n, js[n]? = some k ∧ p = [.index (i + n)] ∧ ∀ a, ¬ Reads r k a := by
  induction js generalizing i with
  | nil => simpa [itemsFrom] using foundAt_nil
  | cons j js ih =>
    simp only [itemsFrom, details_seq, details_map, details_under, foundAt_append, foundAt_under,
      h.foundAt_iff, ih]
    constructor
    · rintro (⟨_, rfl, rfl, rfl, hnone⟩ | ⟨n, hn, rfl, hnone⟩)
      · exact ⟨0, rfl, rfl, hnone⟩
      · exact ⟨n + 1, hn, by rw [Nat.add_right_comm, Nat.add_assoc], hnone⟩
    · rintro ⟨n, hn, rfl, hnone⟩
      cases n with
      | zero =>
        cases hn
        exact Or.inl ⟨[], rfl, rfl, rfl, hnone⟩
      | succ n => exact Or.inr ⟨n, hn, by rw [Nat.add_right_comm, Nat.add_assoc], hnone⟩

theorem IsPlain.foundAt_list (h : IsPlain r) :
    FoundAt (list r j).details p k ↔ p = [] ∧ k = j ∧ (∀ js, j ≠ .arr js) ∨
      ∃ js n, j = .arr js ∧ js[n]? = some k ∧ p = [.index n] ∧ ∀ a, ¬ Reads r k a := by
  cases j with
  | arr js => simp [list, h.foundAt_itemsFrom]
  | _ => simp [list, foundAt_wrong]

theorem foundAt_optional :
    FoundAt (optional r j).details p k ↔ j ≠ .null ∧ FoundAt (r j).details p k := by
  by_cases hnull : j = .null
  · subst hnull
    exact ⟨fun h => absurd h foundAt_nil, fun h => absurd rfl h.1⟩
  · rw [details_optional hnull, and_iff_right hnull]

theorem foundAt_fieldOr {ms : Members} {key : String} {default : α} :
    FoundAt (fieldOr ms key default r).details p k ↔
      ∃ j q, find? ms key = some j ∧ p = .key key :: q ∧ FoundAt (r j).details q k := by
  unfold fieldOr
  cases hkey : find? ms key with
  | none => simpa using foundAt_nil
  | some j => simp only [details_under, foundAt_under, Option.some.injEq, exists_and_left,
      exists_eq_left']

end FoundAt

theorem foundAt_readAssign {ms : Members} {strategyId : Int}
    (hstrategy : Gives ms "strategy_id" MeansInt strategyId) {p : List Step} {j : Json} :
    FoundAt (under (.key "body") (readAssign ms)).details p j ↔ Unfit ms p j := by
  have hid : (field ms "strategy_id" integer).details = [] := by
    rw [← reads_integer] at hstrategy
    rw [field_eq_value_iff.2 hstrategy, details_value]
  have hlimit {k : Json} : (∀ l, ¬ Reads limitNumber k l) ↔ ∀ d, ¬ MeansLimit k d := by
    simp [reads_limitNumber]
  simp only [readAssign, fieldOrNull, details_under, details_seq, details_map, hid, List.nil_append,
    foundAt_under, foundAt_append, foundAt_fieldOr, foundAt_optional, isPlain_text.foundAt_list,
    isPlain_limitNumber.foundAt_iff, isPlain_boolean.foundAt_iff, hlimit, reads_text, reads_boolean]
  constructor
  · rintro ⟨_, rfl, (⟨k, _, hk, rfl, hnull, hfound⟩ | ⟨k, _, hk, rfl, rfl, rfl, hnone⟩) |
      ⟨k, _, hk, rfl, rfl, rfl, hnone⟩⟩
    · obtain ⟨rfl, rfl, hlist⟩ | ⟨js, n, rfl, hn, rfl, htext⟩ := hfound
      · exact .markets hk hnull hlist
      · exact .market hk hn htext
    · exact .limit hk hnone
    · exact .paper hk hnone
  · intro h
    cases h with
    | markets hk hnull hlist =>
      exact ⟨_, rfl, Or.inl (Or.inl ⟨_, _, hk, rfl, hnull, Or.inl ⟨rfl, rfl, hlist⟩⟩)⟩
    | market hk hn htext =>
      exact ⟨_, rfl, Or.inl (Or.inl ⟨_, _, hk, rfl, by simp, Or.inr ⟨_, _, rfl, hn, rfl, htext⟩⟩)⟩
    | limit hk hnone => exact ⟨_, rfl, Or.inl (Or.inr ⟨_, _, hk, rfl, rfl, rfl, hnone⟩)⟩
    | paper hk hnone => exact ⟨_, rfl, Or.inr ⟨_, _, hk, rfl, rfl, rfl, hnone⟩⟩

theorem exists_givesTerms_iff {ms : Members} {strategyId : Int}
    (hstrategy : Gives ms "strategy_id" MeansInt strategyId) :
    (∃ t, GivesTerms ms t) ↔ ∀ p j, ¬ Unfit ms p j := by
  constructor
  · rintro ⟨t, ht⟩ p j hunfit
    obtain ⟨q, -, hread⟩ := readAssign_of_givesTerms hstrategy ht
    rw [← foundAt_readAssign hstrategy, hread] at hunfit
    exact foundAt_nil hunfit
  · intro hfit
    cases hread : readAssign ms with
    | value make => exact givesTerms_of_readAssign hread
    | faulty d ds =>
      refine absurd ((foundAt_readAssign hstrategy).1 ?_) (hfit (.key "body" :: d.place) d.found)
      rw [hread]
      exact ⟨d.mistake, List.mem_cons_self⟩

/-! ### Answers -/

/-- A value can be written into an answer: apart from internal members it is not too high and holds
finite numbers and whole texts only. -/
def Response.Shows (height : Nat) (j : Json) : Prop := isShowable height (withoutInternal j) = true

theorem ofDetails_of_shown {height : Nat} {ds : List Detail}
    (h : ∀ p j, FoundAt ds p j → Response.Shows height j) : Response.ofDetails height ds =
      .ofJson 422 (.obj [("detail", .arr (ds.map Response.detailJson))]) := by
  rw [Response.ofDetails, if_pos]
  exact List.all_eq_true.2 fun d hd => h d.place d.found ⟨d.mistake, hd⟩

theorem ofDetails_of_unshown {height : Nat} {ds : List Detail} {p : List Step} {j : Json}
    (hfound : FoundAt ds p j) (h : ¬ Response.Shows height j) :
    Response.ofDetails height ds = .internalError := by
  obtain ⟨m, hm⟩ := hfound
  rw [Response.ofDetails, if_neg]
  exact fun hall => h (List.all_eq_true.1 hall _ hm)

variable {σ : Type}

/-- How a request for an assignment is answered: the terms are granted, and told unless a market
cannot be written; or they are refused, and the places of all values that do not fit are told unless
one of these values cannot be written. -/
inductive AssignmentAnswer (height : Nat) (d : Desk σ) (p : Int × Int) (ms : Members) :
    Served σ → Prop where
  | granted {t : PairTerms} {a : Assigned} {store : Store} {log : Log} (hterms : GivesTerms ms t)
    (hlimit : ∃ x, t.limit.value? = some x ∧ 1 ≤ x ∧ x ≤ 1000000)
    (hassigns : d.store.Assigns store p t a.row)
    (hwhole : ∀ name ∈ t.markets, name.isTorn = false) :
    AssignmentAnswer height d p ms
      ⟨.ofJson 201 (Response.assignedJson a.row), { d with store }, [], [], log⟩
  | untold {t : PairTerms} {a : Assigned} {store : Store} {log : Log} {name : Text}
    (hterms : GivesTerms ms t) (hlimit : ∃ x, t.limit.value? = some x ∧ 1 ≤ x ∧ x ≤ 1000000)
    (hassigns : d.store.Assigns store p t a.row) (hname : name ∈ t.markets)
    (htorn : name.isTorn = true) :
    AssignmentAnswer height d p ms ⟨.internalError, { d with store }, [], [], log⟩
  | refused {ds : List Detail} (hne : ds ≠ []) (hfound : ∀ q j, FoundAt ds q j ↔ Unfit ms q j)
    (hshown : ∀ q j, Unfit ms q j → Response.Shows height j) :
    AssignmentAnswer height d p ms
      (.only d (.ofJson 422 (.obj [("detail", .arr (ds.map Response.detailJson))])))
  | unshown {q : List Step} {j : Json} (hunfit : Unfit ms q j)
    (hshown : ¬ Response.Shows height j) :
    AssignmentAnswer height d p ms (.only d .internalError)

theorem AssignmentAnswer.status_iff {height : Nat} {d : Desk σ} {p : Int × Int} {ms : Members}
    {served : Served σ} (h : AssignmentAnswer height d p ms served)
    (hterms : (∃ t, GivesTerms ms t) ↔ ∀ q j, ¬ Unfit ms q j) :
    served.response.status = 201 ∨ served.response.status = 422 ↔
      (∀ q j, Unfit ms q j → Response.Shows height j) ∧
        ∀ t, GivesTerms ms t → ∀ name ∈ t.markets, name.isTorn = false := by
  cases h with
  | granted ht _ _ hwhole =>
    refine ⟨fun _ => ⟨fun q j hunfit => absurd hunfit (hterms.1 ⟨_, ht⟩ q j), fun u hu => ?_⟩,
      fun _ => Or.inl rfl⟩
    rw [hu.markets_eq ht]
    exact hwhole
  | untold ht _ _ hname htorn =>
    refine ⟨fun hstatus => absurd hstatus (by simp [Response.internalError]), fun hwhole => ?_⟩
    rw [hwhole.2 _ ht _ hname] at htorn
    cases htorn
  | @refused ds hne hfound hshown =>
    refine ⟨fun _ => ⟨hshown, fun t ht => ?_⟩, fun _ => Or.inr rfl⟩
    obtain ⟨x, hx⟩ := List.exists_mem_of_ne_nil ds hne
    exact absurd ((hfound x.place x.found).1 ⟨x.mistake, hx⟩) (hterms.1 ⟨t, ht⟩ _ _)
  | unshown hunfit hhidden =>
    refine ⟨fun hstatus => ?_, fun hshown => absurd (hshown.1 _ _ hunfit) hhidden⟩
    simp [Served.only, Response.internalError] at hstatus

section Answers

variable {s : Setup} {w : Outside σ} {d : Desk σ} {r : Request} {ids : PathIds}
  {walletId strategyId : Int} {ms : Members}

theorem commandOf_assign (hleads : Leads r.method (Net.segments (Net.path r.target)) .assign ids)
    (hwallet : HasId ids "wallet_id" walletId)
    (hbody : Carries w.requests.levels r.body (.obj ms)) :
    commandOf w.requests.levels r = match under (.key "body") (readAssign ms) with
      | .value make => .ok (.operate (make walletId))
      | .faulty d ds => .error (.mistakes d ds) := by
  have hcommand : Endpoint.assign.command ids (some (.obj ms)) =
      (fun make => .operate (make walletId)) <$> under (.key "body") (readAssign ms) := by
    rw [Endpoint.command, pathId_eq_value_iff.2 hwallet]
    rfl
  have hread : (if Endpoint.assign.hasBody then readBody w.requests.levels r.body else .ok none) =
      .ok (some (.obj ms)) := readBody_eq_some_iff.2 hbody
  rw [commandOf_of_route (route_of_leads hleads), hread, Except.bind, hcommand]
  cases readAssign ms <;> rfl

theorem serve_assign (hleads : Leads r.method (Net.segments (Net.path r.target)) .assign ids)
    (hwallet : HasId ids "wallet_id" walletId)
    (hbody : Carries w.requests.levels r.body (.obj ms)) :
    serve s w d r = match under (.key "body") (readAssign ms) with
      | .value make => operate w d (make walletId)
      | .faulty first rest => .only d (.ofDetails w.mistaken (first :: rest)) := by
  have hcommand := commandOf_assign hleads hwallet hbody
  cases hread : under (.key "body") (readAssign ms) with
  | value make =>
    rw [hread] at hcommand
    exact serve_of_command hcommand
  | faulty first rest =>
    rw [hread] at hcommand
    exact serve_of_refusal hleads hcommand

theorem assignmentAnswer_of_passes {q : AssignRequest} {t : PairTerms} {a : Assigned}
    {store : Store} {log : Log}
    (hserved : serve s w d r = operate w d (.assignStrategy walletId strategyId q))
    (hrun : (Operation.assignStrategy walletId strategyId q).run w.engine d =
      ⟨.ok (.assigned a), { d with store }, [], log⟩)
    (hassigns : d.store.Assigns store (walletId, strategyId) t a.row) (ht : GivesTerms ms t)
    (hq : q.Passes t) :
    AssignmentAnswer w.mistaken d (walletId, strategyId) ms (serve s w d r) := by
  have hresult : ((Operation.assignStrategy walletId strategyId q).run w.engine d).result =
      .ok (.assigned a) := by rw [hrun]
  have hmarkets : a.row.markets = t.markets := congrArg PairTerms.markets hassigns.terms
  have hanswer : serve s w d r =
      ⟨Response.ofAssignment 201 a.row, { d with store }, [], [], log⟩ := by
    rw [hserved, operate_of_done hresult, hrun]
    rfl
  rw [hanswer]
  by_cases hwhole : ∀ name ∈ t.markets, name.isTorn = false
  · rw [Response.ofAssignment_of_whole (hmarkets ▸ hwhole)]
    exact .granted ht hq.limit.value?_kept hassigns hwhole
  · simp only [not_forall, Bool.not_eq_false] at hwhole
    obtain ⟨name, hname, htorn⟩ := hwhole
    rw [Response.ofAssignment_of_torn (hmarkets ▸ hname) htorn]
    exact .untold ht hq.limit.value?_kept hassigns hname htorn

theorem assignmentAnswer_of_faulty {first : Detail} {rest : List Detail} {p : Int × Int}
    (hserved : serve s w d r = .only d (.ofDetails w.mistaken (first :: rest)))
    (hfound : ∀ q j, FoundAt (first :: rest) q j ↔ Unfit ms q j) :
    AssignmentAnswer w.mistaken d p ms (serve s w d r) := by
  rw [hserved]
  by_cases hshown : ∀ q j, Unfit ms q j → Response.Shows w.mistaken j
  · rw [ofDetails_of_shown fun q j h => hshown q j ((hfound q j).1 h)]
    exact .refused (List.cons_ne_nil _ _) hfound hshown
  · simp only [not_forall] at hshown
    obtain ⟨q, j, hunfit, hhidden⟩ := hshown
    rw [ofDetails_of_unshown ((hfound q j).2 hunfit) hhidden]
    exact .unshown hunfit hhidden

end Answers

def runningPair : List Operation :=
  unassigned ++ [.assignStrategy 1 1 ⟨.null, .int 100, .null⟩, .activate 1]

def infiniteLimit : Members :=
  [("strategy_id", .int 1), ("max_position_usdc", .double (.infinite false))]

def infiniteLimitText : List Char :=
  "\x7b\"strategy_id\": 1, \"max_position_usdc\": 1e999\x7d".toList

theorem carries_infiniteLimitText : Carries willing.requests.levels
    (some infiniteLimitText.utf8Encode) (.obj infiniteLimit) :=
  carries_utf8Encode rfl (by decide +kernel)

end Service

end StrategyDesk
