import StrategyDesk.Graph.Acceptance
import StrategyDesk.Proofs.FlowShape

/-!
Which flows are accepted. A graph in flow mode is accepted exactly when it has the shape of a flow
and its polling nodes are safe. The two are judged on different views of the graph, the typed one
and the raw one; what is safe is said here of the raw members alone.
-/

set_option autoImplicit false

namespace StrategyDesk
open Json

/-! ### Intervals -/

namespace Flow

def numberOf? : Json → Option Double
  | .int n => Double.ofInt? n
  | .double d => some d
  | .str (.plain s) => Numeral.wideDouble? s
  | _ => none

/-- An interval is left open, or a finite number of thirty or more. -/
def IsInterval (j : Json) : Prop :=
  j = .null ∨ ∃ d, numberOf? j = some d ∧ d.isFinite ∧ (Double.ofInt minInterval).le d

theorem truncate_interval_iff {d : Double} :
    (∃ secs, d.truncate? = some secs ∧ minInterval ≤ secs) ↔
      d.isFinite ∧ (Double.ofInt minInterval).le d := by
  have hmin : Double.ofInt minInterval = .finite false (30 * Double.scale) := by decide +kernel
  have hscale : 0 < Double.scale := twoTo_pos 1074
  rw [hmin]
  cases d with
  | finite negative units =>
    have hdiv := Nat.le_div_iff_mul_le (x := 30) (y := units) hscale
    simp only [Double.truncate?, Double.isFinite, Double.le, minInterval, Option.some.injEq,
      exists_eq_left', true_and, decide_eq_true_eq]
    generalize units / Double.scale = secs at hdiv ⊢
    cases negative with
    | false =>
      simp only [Double.signed, Bool.false_eq_true, if_false]
      omega
    | true =>
      simp only [Double.signed, if_true, Bool.false_eq_true, if_false]
      omega
  | infinite negative => simp [Double.truncate?, Double.isFinite]
  | nan => simp [Double.truncate?, Double.isFinite]

theorem interval?_eq {j : Json} (hj : j ≠ .null) :
    interval? j = (numberOf? j).bind Double.truncate? := by
  cases j with
  | null => exact absurd rfl hj
  | str t => cases t <;> rfl
  | _ => rfl

theorem isInterval_iff {j : Json} : isInterval j = true ↔ IsInterval j := by
  by_cases hj : j = .null
  · subst hj
    simp [IsInterval, isInterval, interval?, minInterval, defaultInterval]
  · have hnum : IsInterval j ↔
        ∃ d, numberOf? j = some d ∧ d.isFinite ∧ (Double.ofInt minInterval).le d := by
      simp [IsInterval, hj]
    rw [hnum, isInterval, interval?_eq hj]
    cases numberOf? j with
    | none => simp
    | some d =>
      simp only [Option.bind_some, Option.some.injEq, exists_eq_left', ← truncate_interval_iff]
      cases d.truncate? with
      | none => simp
      | some secs => simp

/-! ### Nodes that poll -/

def fetchNode? : Json → Option Members
  | .obj ms => if look ms "type" = .str "api_fetch" then some ms else none
  | _ => none

def fetchNodes (ms : Members) : List Members :=
  match look ms "nodes" with
  | .arr js => js.filterMap fetchNode?
  | _ => []

/-- The settings of a node hold a URL that is not empty without the blanks around it. -/
structure HasUrl (node settings : Members) (url : List Char) : Prop where
  data : find? node "data" = some (.obj settings)
  text : ∃ s, find? settings "url" = some (.str s) ∧ url = Text.trim Text.blank s.shown.toList
  filled : url ≠ []

def IsSafeFetch (node : Members) : Prop :=
  ∃ settings url, HasUrl node settings url ∧ "https://".toList <+: url ∧
    Net.isPrivateUrl (String.ofList url) = false ∧ IsInterval (look settings "interval_secs")

def IsSafe (ms : Members) : Prop :=
  (fetchNodes ms).length ≤ 5 ∧ ∀ node ∈ fetchNodes ms, IsSafeFetch node

/-- What is wrong with a node that polls a URL. -/
inductive IsFault (node : Members) : FetchFault → Prop where
  | noUrl (h : ∀ settings url, ¬ HasUrl node settings url) : IsFault node .noUrl
  | insecure {settings : Members} {url : List Char} (h : HasUrl node settings url)
    (hurl : ¬ "https://".toList <+: url) : IsFault node .insecure
  | privateHost {settings : Members} {url : List Char} (h : HasUrl node settings url)
    (hurl : Net.isPrivateUrl (String.ofList url) = true) : IsFault node .privateHost
  | interval {settings : Members} {url : List Char} (h : HasUrl node settings url)
    (hsecs : ¬ IsInterval (look settings "interval_secs")) : IsFault node .interval

/-- What is wrong with the nodes of a graph that poll URLs. -/
inductive Breach (ms : Members) : Violation → Prop where
  | tooMany (h : 5 < (fetchNodes ms).length) :
    Breach ms ⟨"graph.nodes", "A strategy may contain at most 5 API Fetch nodes."⟩
  | node {i : Nat} {node : Members} {fault : FetchFault} (hfew : (fetchNodes ms).length ≤ 5)
    (hi : (fetchNodes ms)[i]? = some node) (h : IsFault node fault) : Breach ms (fault.report i)

theorem HasUrl.unique {node settings settings' : Members} {url url' : List Char}
    (h : HasUrl node settings url) (h' : HasUrl node settings' url') :
    settings' = settings ∧ url' = url := by
  obtain ⟨hs, ⟨s, hu, rfl⟩, -⟩ := h
  obtain ⟨hs', ⟨s', hu', rfl⟩, -⟩ := h'
  rw [hs, Option.some.injEq, Json.obj.injEq] at hs'
  subst hs'
  rw [hu, Option.some.injEq, Json.str.injEq] at hu'
  subst hu'
  exact ⟨rfl, rfl⟩

theorem isSafeFetch_iff {node : Members} : IsSafeFetch node ↔ ∀ fault, ¬ IsFault node fault := by
  constructor
  · rintro ⟨settings, url, hurl, hsecure, hpublic, hsecs⟩ fault h
    cases h with
    | noUrl h => exact h _ _ hurl
    | insecure h hnot =>
      obtain ⟨rfl, rfl⟩ := hurl.unique h
      exact hnot hsecure
    | privateHost h hprivate =>
      obtain ⟨rfl, rfl⟩ := hurl.unique h
      simp [hpublic] at hprivate
    | interval h hnot =>
      obtain ⟨rfl, rfl⟩ := hurl.unique h
      exact hnot hsecs
  · intro h
    by_cases hurl : ∃ settings url, HasUrl node settings url
    · obtain ⟨settings, url, hurl⟩ := hurl
      refine ⟨settings, url, hurl, ?_, ?_, ?_⟩
      · exact Decidable.byContradiction fun hnot => h _ (.insecure hurl hnot)
      · exact Bool.eq_false_iff.2 fun hprivate => h _ (.privateHost hurl hprivate)
      · exact Classical.byContradiction fun hnot => h _ (.interval hurl hnot)
    · exact absurd (.noUrl fun settings url hu => hurl ⟨settings, url, hu⟩) (h _)

theorem isSafe_iff {ms : Members} : IsSafe ms ↔ ∀ v, ¬ Breach ms v := by
  constructor
  · rintro ⟨hfew, hsafe⟩ v h
    cases h with
    | tooMany h => omega
    | node _ hi h => exact isSafeFetch_iff.1 (hsafe _ (List.mem_of_getElem? hi)) _ h
  · intro h
    have hfew : (fetchNodes ms).length ≤ 5 := by
      by_cases hlen : 5 < (fetchNodes ms).length
      · exact absurd (.tooMany hlen) (h _)
      · omega
    refine ⟨hfew, fun node hnode => isSafeFetch_iff.2 fun fault hfault => ?_⟩
    obtain ⟨i, hi⟩ := List.getElem?_of_mem hnode
    exact h _ (.node hfew hi hfault)

/-! ### The faults that are found -/

theorem mem_settingFaults_iff {url : List Char} {j : Json} {fault : FetchFault} :
    fault ∈ settingFaults url j ↔
      (¬ secureScheme <+: url ∧ fault = .insecure) ∨
        (Net.isPrivate url = true ∧ fault = .privateHost) ∨
        (¬ IsInterval j ∧ fault = .interval) := by
  simp only [settingFaults, List.mem_append, List.mem_ite_nil_left, List.mem_ite_nil_right,
    List.mem_singleton, List.isPrefixOf_iff_prefix, isInterval_iff, or_assoc]

theorem look_eq_iff {ms : Members} {key : String} {j : Json} (hj : j ≠ .null) :
    look ms key = j ↔ find? ms key = some j := by
  cases h : find? ms key with
  | none => simp [look, h, Ne.symm hj]
  | some i => simp [look, h]

theorem hasUrl_iff {node settings : Members} {url : List Char} :
    HasUrl node settings url ↔
      look node "data" = .obj settings ∧ urlOf settings = url ∧ url ≠ [] := by
  rw [look_eq_iff (by simp)]
  constructor
  · rintro ⟨hdata, ⟨s, hs, rfl⟩, hne⟩
    exact ⟨hdata, by simp [urlOf, look, hs], hne⟩
  · rintro ⟨hdata, rfl, hne⟩
    refine ⟨hdata, ?_, hne⟩
    cases hurl : look settings "url" with
    | str s => exact ⟨s, (look_eq_iff (by simp)).1 hurl, by simp [urlOf, hurl]⟩
    | _ => simp [urlOf, hurl] at hne

theorem mem_nodeFaults_iff {node : Members} {fault : FetchFault} :
    fault ∈ nodeFaults (look node "data") ↔ IsFault node fault := by
  by_cases hurl : ∃ settings url, HasUrl node settings url
  · obtain ⟨settings, url, hurl⟩ := hurl
    obtain ⟨hdata, rfl, hne⟩ := hasUrl_iff.1 hurl
    have hfaults : nodeFaults (look node "data") =
        settingFaults (urlOf settings) (look settings "interval_secs") := by
      simp [hdata, nodeFaults, dataFaults, hne]
    rw [hfaults, mem_settingFaults_iff]
    constructor
    · rintro (⟨h, rfl⟩ | ⟨h, rfl⟩ | ⟨h, rfl⟩)
      · exact .insecure hurl h
      · exact .privateHost hurl (by simpa [Net.isPrivateUrl] using h)
      · exact .interval hurl h
    · intro h
      cases h with
      | noUrl h => exact absurd hurl (h _ _)
      | insecure h hnot =>
        obtain ⟨rfl, rfl⟩ := hurl.unique h
        exact Or.inl ⟨hnot, rfl⟩
      | privateHost h hprivate =>
        obtain ⟨rfl, rfl⟩ := hurl.unique h
        exact Or.inr (Or.inl ⟨by simpa [Net.isPrivateUrl] using hprivate, rfl⟩)
      | interval h hnot =>
        obtain ⟨rfl, rfl⟩ := hurl.unique h
        exact Or.inr (Or.inr ⟨hnot, rfl⟩)
  · have hnone : ∀ settings url, ¬ HasUrl node settings url :=
      fun settings url h => hurl ⟨settings, url, h⟩
    have hfaults : nodeFaults (look node "data") = [.noUrl] := by
      cases hdata : look node "data" with
      | obj settings =>
        have hempty : urlOf settings = [] := by
          by_cases hne : urlOf settings = []
          · exact hne
          · exact absurd (hasUrl_iff.2 ⟨hdata, rfl, hne⟩) (hnone _ _)
        simp [nodeFaults, dataFaults, hempty]
      | _ => simp [nodeFaults, dataFaults, urlOf, look, find?]
    rw [hfaults, List.mem_singleton]
    constructor
    · rintro rfl
      exact .noUrl hnone
    · intro h
      cases h with
      | noUrl => rfl
      | insecure h => exact absurd h (hnone _ _)
      | privateHost h => exact absurd h (hnone _ _)
      | interval h => exact absurd h (hnone _ _)

theorem violations_of_many {nodes : List Members} (h : 5 < nodes.length) :
    violations (nodes.map (look · "data")) = [tooManyFetches] := by
  rw [violations, List.length_map]
  exact if_pos h

theorem violations_of_few {nodes : List Members} (h : nodes.length ≤ 5) :
    violations (nodes.map (look · "data")) = (nodes.mapIdx fun i node =>
      (nodeFaults (look node "data")).map (FetchFault.report i)).flatten := by
  rw [violations, List.length_map, if_neg (show ¬ maxFetchNodes < _ from Nat.not_lt.2 h)]
  congr 1
  exact List.ext_getElem (by simp) (by simp)

theorem mem_violations_iff {ms : Members} {v : Violation} :
    v ∈ violations ((fetchNodes ms).map (look · "data")) ↔ Breach ms v := by
  by_cases hmany : 5 < (fetchNodes ms).length
  · rw [violations_of_many hmany, List.mem_singleton]
    constructor
    · rintro rfl
      exact .tooMany hmany
    · intro h
      cases h with
      | tooMany => rfl
      | node hfew => omega
  · rw [violations_of_few (Nat.not_lt.1 hmany), List.mem_flatten]
    constructor
    · rintro ⟨vs, hvs, hv⟩
      obtain ⟨i, hi, rfl⟩ := List.mem_mapIdx.1 hvs
      obtain ⟨fault, hfault, rfl⟩ := List.mem_map.1 hv
      exact .node (by omega) (List.getElem?_eq_getElem hi) (mem_nodeFaults_iff.1 hfault)
    · intro h
      cases h with
      | tooMany h => exact absurd h hmany
      | @node i node fault _ hnode h =>
        obtain ⟨hi, rfl⟩ := List.getElem?_eq_some_iff.1 hnode
        exact ⟨_, List.mem_mapIdx.2 ⟨i, hi, rfl⟩,
          List.mem_map_of_mem (mem_nodeFaults_iff.2 h)⟩

/-! ### Acceptance -/

/-- A flaw before whose place there is none. -/
structure FirstFlaw (ms : Members) (p : List Step) (m : Mistake) : Prop where
  flaw : Flow.Flaw ms p m
  first {q : List Step} {n : Mistake} : Flow.Flaw ms q n → (q, n) = (p, m) ∨ Before p q

theorem checkShape_of_shaped {ms : Members} (hmode : look ms "mode" = .str "node")
    (h : IsShaped ms) : ∃ f, checkShape (.obj ms) = .ok f := by
  cases hread : Flow.read (.obj ms) with
  | value f => exact ⟨f, by simp [checkShape, hread]⟩
  | faulty d ds =>
    have hflaw : Flow.Flaw ms d.place d.mistake :=
      ((lists_read hmode).exact _ _).2 ⟨d, by simp [hread, Reading.details], rfl, rfl⟩
    exact absurd hflaw (isShaped_iff.1 h _ _)

theorem isPath_pathFrom {p : List Step} {t : String} (h : IsPath p t) (hp : p ≠ [])
    (ht : t ≠ "") (q : List Step) : IsPath (p ++ q) (pathFrom t q) ∧ pathFrom t q ≠ "" := by
  induction q generalizing p t with
  | nil => exact ⟨by rwa [List.append_nil], ht⟩
  | cons s q ih =>
    rw [List.append_cons]
    cases s with
    | key k =>
      simp only [pathFrom, String.isEmpty_iff, ht, ↓reduceIte]
      exact ih (.member hp h k) (by simp) (by simp)
    | index i => exact ih (.item hp h i) (by simp) (by simp)

theorem isPath_pathText {k : String} (hk : k ≠ "") (p : List Step) :
    IsPath (.key k :: p) (pathText (.key k :: p)) := by
  obtain ⟨hpath, hfilled⟩ := isPath_pathFrom (.name k) (by simp) hk p
  have htext : pathText (.key k :: p) = pathFrom k p := by
    rw [pathText, show pathFrom "" (.key k :: p) = pathFrom k p from rfl]
    exact if_neg (by simpa using hfilled)
  rw [htext]
  exact hpath

theorem Flaw.isPath_pathText {ms : Members} {p : List Step} {m : Mistake} (h : Flow.Flaw ms p m) :
    IsPath p (pathText p) := by
  obtain h | h := h <;> cases h <;> exact StrategyDesk.Flow.isPath_pathText (by decide) _

theorem checkShape_of_flawed {ms : Members} (hmode : look ms "mode" = .str "node")
    (h : ¬ IsShaped ms) : ∃ p m, FirstFlaw ms p m ∧
      checkShape (.obj ms) = .error ⟨.structural, pathText p, m.message⟩ := by
  have hlists := lists_read hmode
  cases hread : Flow.read (.obj ms) with
  | value f =>
    refine absurd (isShaped_iff.2 fun p m hflaw => ?_) h
    obtain ⟨d, hd, -⟩ := (hlists.exact p m).1 hflaw
    simp [hread] at hd
  | faulty d ds =>
    rw [hread, Reading.details] at hlists
    refine ⟨d.place, d.mistake, ⟨?_, fun {q n} hflaw => ?_⟩,
      by simp [checkShape, hread, Detail.report]⟩
    · exact (hlists.exact _ _).2 ⟨d, List.mem_cons_self, rfl, rfl⟩
    · obtain ⟨e, he, rfl, rfl⟩ := (hlists.exact q n).1 hflaw
      cases he with
      | head => exact Or.inl rfl
      | tail _ he => exact Or.inr ((List.pairwise_cons.1 hlists.sorted).1 e he)

theorem fetchSettings?_eq : fetchSettings? = fun j => (fetchNode? j).map (look · "data") := by
  funext j
  cases j with
  | obj ms =>
    cases htype : look ms "type" with
    | str t =>
      cases t with
      | plain t =>
        simp only [fetchSettings?, fetchNode?, fetchType, htype, beq_iff_eq, Json.str.injEq,
          Text.plain.injEq]
        split <;> rfl
      | torn t => simp [fetchSettings?, fetchNode?, htype]
    | _ => simp [fetchSettings?, fetchNode?, htype]
  | _ => rfl

theorem rawSettings_of_shaped {ms : Members} (h : IsShaped ms) :
    rawSettings (look ms "nodes") = .ok ((fetchNodes ms).map (look · "data")) := by
  cases hnodes : find? ms "nodes" with
  | none => simp [fetchNodes, look, hnodes, rawSettings, isEmpty]
  | some nodes =>
    -- What has the shape of a list of nodes is a list in the raw view as well.
    obtain ⟨js, rfl, -⟩ := h.1 nodes hnodes
    have hlook : look ms "nodes" = .arr js := by simp [look, hnodes]
    simp only [fetchNodes, hlook, rawSettings, List.map_filterMap, fetchSettings?_eq]

theorem ensureSafe_of_shaped {ms : Members} (hmode : look ms "mode" = .str "node")
    (h : IsShaped ms) : ∃ vs, (∀ v, v ∈ vs ↔ Breach ms v) ∧
      ensureSafe (.obj ms) = if vs = [] then .ok (.obj ms) else .error (.insecure vs) := by
  refine ⟨violations ((fetchNodes ms).map (look · "data")), fun v => mem_violations_iff, ?_⟩
  have hraw : rawViolations (.obj ms) = .ok (violations ((fetchNodes ms).map (look · "data"))) := by
    simp only [rawViolations, hmode, rawSettings_of_shaped h]
    rfl
  rw [ensureSafe, hraw]
  cases violations ((fetchNodes ms).map (look · "data")) <;> rfl

theorem accept_cases {ms : Members} (hmode : look ms "mode" = .str "node") :
    (IsShaped ms ∧ IsSafe ms ∧ Flow.accept (.obj ms) = .ok (.obj ms)) ∨
      (¬ IsShaped ms ∧ ∃ p m, FirstFlaw ms p m ∧
        Flow.accept (.obj ms) = .error (.graph ⟨.structural, pathText p, m.message⟩)) ∨
      (IsShaped ms ∧ ¬ IsSafe ms ∧ ∃ vs, vs ≠ [] ∧ (∀ v, v ∈ vs ↔ Breach ms v) ∧
        Flow.accept (.obj ms) = .error (.insecure vs)) := by
  by_cases hshape : IsShaped ms
  · obtain ⟨f, hf⟩ := checkShape_of_shaped hmode hshape
    obtain ⟨vs, hvs, hsafe⟩ := ensureSafe_of_shaped hmode hshape
    by_cases hnil : vs = []
    · have hclear : IsSafe ms := by
        refine isSafe_iff.2 fun v hv => ?_
        simpa [hnil] using (hvs v).2 hv
      exact Or.inl ⟨hshape, hclear, by simp [Flow.accept, hf, hsafe, hnil]⟩
    · have hunsafe : ¬ IsSafe ms := by
        obtain ⟨v, hv⟩ := List.exists_mem_of_ne_nil vs hnil
        exact fun h => isSafe_iff.1 h v ((hvs v).1 hv)
      refine Or.inr (Or.inr ⟨hshape, hunsafe, vs, hnil, hvs, ?_⟩)
      simp [Flow.accept, hf, hsafe, hnil]
  · obtain ⟨p, m, hfirst, hf⟩ := checkShape_of_flawed hmode hshape
    exact Or.inr (Or.inl ⟨hshape, p, m, hfirst, by simp [Flow.accept, hf]⟩)

end Flow

/-- A graph in flow mode is accepted as it is when it has the shape of a flow and its polling nodes
are safe. Otherwise the first flaw of its shape is reported or, if it has none, all that is
unsafe. -/
theorem flow_acceptance (room : Room) (next : Form.Supply) (ms : Members)
    (hmode : look ms "mode" = .str "node") :
    ((∃ a, Graph.accept room next (.obj ms) = .ok a) ↔ Flow.IsShaped ms ∧ Flow.IsSafe ms) ∧
      (∀ a, Graph.accept room next (.obj ms) = .ok a → a = ⟨.flow, .obj ms, next⟩) ∧
      (¬ Flow.IsShaped ms → ∃ p m text, Flow.FirstFlaw ms p m ∧ IsPath p text ∧
        Graph.accept room next (.obj ms) = .error (.graph ⟨.structural, text, m.message⟩)) ∧
      (Flow.IsShaped ms → ¬ Flow.IsSafe ms → ∃ vs, vs ≠ [] ∧ (∀ v, v ∈ vs ↔ Flow.Breach ms v) ∧
        Graph.accept room next (.obj ms) = .error (.insecure vs)) := by
  have hflow : Mode.ofGraph (.obj ms) = .ok .flow := Mode.ofGraph_eq_ok_iff.2 ⟨ms, rfl, hmode⟩
  obtain ⟨hshape, hsafe, h⟩ | ⟨hshape, p, m, hfirst, h⟩ | ⟨hshape, hsafe, vs, hne, hvs, h⟩ :=
    Flow.accept_cases hmode
  · have hok : Graph.accept room next (.obj ms) = .ok ⟨.flow, .obj ms, next⟩ := by
      simp [Graph.accept, hflow, h]
    simp [hok, hshape, hsafe, eq_comm]
  · have herr : Graph.accept room next (.obj ms) =
        .error (.graph ⟨.structural, pathText p, m.message⟩) := by
      simp [Graph.accept, hflow, h]
    simp only [herr, hshape]
    refine ⟨by simp, by simp, fun _ => ⟨p, m, _, hfirst, hfirst.flaw.isPath_pathText, rfl⟩, by simp⟩
  · have herr : Graph.accept room next (.obj ms) = .error (.insecure vs) := by
      simp [Graph.accept, hflow, h]
    simp only [herr, hshape, hsafe]
    refine ⟨by simp, by simp, by simp, fun _ _ => ⟨vs, hne, hvs, rfl⟩⟩

def pollingNode : Members :=
  [("id", .str "n"), ("type", .str "api_fetch"),
    ("data", .obj [("url", .str " https://example.com/price"), ("interval_secs", .int 30)])]

def pollingFlow : Members := [("mode", .str "node"), ("nodes", .arr [.obj pollingNode])]

theorem isShaped_pollingFlow : Flow.IsShaped pollingFlow := by
  have hnode : Node.IsShaped (.obj pollingNode) :=
    ⟨pollingNode, rfl, by decide, by simp [pollingNode, find?]⟩
  simp [Flow.IsShaped, pollingFlow, find?, hnode]

theorem isSafe_pollingFlow : Flow.IsSafe pollingFlow := by
  have hnodes : Flow.fetchNodes pollingFlow = [pollingNode] := by decide +kernel
  have hsecs : Flow.isInterval (.int 30) = true := by decide +kernel
  refine ⟨by simp [hnodes], fun node hnode => ?_⟩
  rw [hnodes, List.mem_singleton] at hnode
  subst hnode
  refine ⟨_, "https://example.com/price".toList, ⟨rfl, ⟨_, rfl, ?_⟩, ?_⟩, ?_, ?_, ?_⟩
  · decide +kernel
  · decide +kernel
  · decide +kernel
  · decide +kernel
  · exact Flow.isInterval_iff.1 hsecs

/-- A flow whose second node has no URL to poll and stands where no number is, and whose edge has
no end. -/
def brokenFlow : Members :=
  [("mode", .str "node"), ("edges", .arr [.obj [("source", .str "n")]]),
    ("nodes", .arr [.obj pollingNode, .obj [("id", .str "m"), ("type", .str "api_fetch"),
      ("position", .obj [("x", .str "left"), ("y", .null)])]])]

theorem not_isShaped_brokenFlow : ¬ Flow.IsShaped brokenFlow := by
  simp [Flow.IsShaped, Edge.IsShaped, brokenFlow, find?]

theorem pollingFlow_accepted :
    look pollingFlow "mode" = .str "node" ∧
      Graph.accept .direct .counted (.obj pollingFlow) = .ok ⟨.flow, .obj pollingFlow, .counted⟩ ∧
    look brokenFlow "mode" = .str "node" ∧
      (∃ p m, Flow.FirstFlaw brokenFlow p m ∧ IsPath p "nodes[1].position.x") ∧
      Graph.accept .direct .counted (.obj brokenFlow) = .error (.graph ⟨.structural,
        "nodes[1].position.x",
        "Input should be a valid number, unable to parse string as a number"⟩) := by
  have hmode : look pollingFlow "mode" = .str "node" := rfl
  have hbroken : look brokenFlow "mode" = .str "node" := rfl
  obtain ⟨hexact, hkept, -⟩ := flow_acceptance .direct .counted pollingFlow hmode
  obtain ⟨-, -, hflawed, -⟩ := flow_acceptance .direct .counted brokenFlow hbroken
  obtain ⟨a, ha⟩ := hexact.2 ⟨isShaped_pollingFlow, isSafe_pollingFlow⟩
  obtain ⟨p, m, text, hfirst, hpath, herror⟩ := hflawed not_isShaped_brokenFlow
  have hreport : Graph.accept .direct .counted (.obj brokenFlow) = .error (.graph ⟨.structural,
      "nodes[1].position.x",
      "Input should be a valid number, unable to parse string as a number"⟩) := by rfl
  refine ⟨hmode, ?_, hbroken, ⟨p, m, hfirst, ?_⟩, hreport⟩
  · rw [ha, hkept a ha]
  · simp only [hreport, Except.error.injEq, Failure.graph.injEq, GraphError.mk.injEq] at herror
    rw [herror.2.1]
    exact hpath

end StrategyDesk
