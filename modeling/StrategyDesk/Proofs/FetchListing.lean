import Mathlib.Data.List.Perm.Basic
import StrategyDesk.Proofs.FlowAcceptance

/-!
How the faults of polling nodes are listed. Each polling node is judged from its own settings, its
faults stand together in a fixed order, and its number counts the polling nodes before it. Whatever
else a graph holds leaves the list as it is.
-/

set_option autoImplicit false

namespace StrategyDesk.Flow
open Json

structure HoldsNodes (ms : Members) (js : List Json) : Prop where
  mode : look ms "mode" = .str "node"
  nodes : look ms "nodes" = .arr js

/-- The faults of a polling node, each one once and in the order in which they are listed. -/
structure FaultsOf (node : Members) (faults : List FetchFault) : Prop where
  ordered : faults.Sublist [.noUrl, .insecure, .privateHost, .interval]
  exact (f : FetchFault) : f ∈ faults ↔ IsFault node f

def alone (node : Members) : Members := [("mode", .str "node"), ("nodes", .arr [.obj node])]

theorem holdsNodes_alone (node : Members) : HoldsNodes (alone node) [.obj node] := ⟨rfl, rfl⟩

theorem HoldsNodes.fetchNodes_eq {ms : Members} {js : List Json} (h : HoldsNodes ms js) :
    fetchNodes ms = js.filterMap fetchNode? := by
  simp only [fetchNodes, h.nodes]

theorem fetchNode?_obj {j : Json} {node : Members} (h : fetchNode? j = some node) :
    fetchNode? (.obj node) = some node := by
  cases j with
  | obj ms =>
    simp only [fetchNode?] at h
    split at h
    · rename_i htype
      cases h
      simp only [fetchNode?, htype, if_true]
    · cases h
  | _ => cases h

theorem HoldsNodes.fetchNodes_alone {ms node : Members} {js : List Json} (h : HoldsNodes ms js)
    (hnode : node ∈ fetchNodes ms) : fetchNodes (alone node) = [node] := by
  rw [h.fetchNodes_eq, List.mem_filterMap] at hnode
  obtain ⟨j, -, hj⟩ := hnode
  simp [(holdsNodes_alone node).fetchNodes_eq, fetchNode?_obj hj]

/-! ### The faults of one node -/

theorem settingFaults_sublist (url : List Char) (interval : Json) :
    (settingFaults url interval).Sublist [.insecure, .privateHost, .interval] := by
  have hone (b : Bool) (f : FetchFault) : (if b then [f] else []).Sublist [f] := by
    cases b with
    | true => exact .refl _
    | false => exact List.nil_sublist _
  have hnone (b : Bool) (f : FetchFault) : (if b then [] else [f]).Sublist [f] := by
    cases b with
    | true => exact List.nil_sublist _
    | false => exact .refl _
  exact ((hnone _ .insecure).append (hone _ .privateHost)).append (hnone _ .interval)

theorem nodeFaults_sublist (data : Json) :
    (nodeFaults data).Sublist [.noUrl, .insecure, .privateHost, .interval] := by
  have hno : [FetchFault.noUrl].Sublist [.noUrl, .insecure, .privateHost, .interval] :=
    (List.nil_sublist _).cons_cons _
  have hdata (ms : Members) :
      (dataFaults ms).Sublist [.noUrl, .insecure, .privateHost, .interval] := by
    unfold dataFaults
    split
    · exact hno
    · exact (settingFaults_sublist _ _).cons _
  unfold nodeFaults
  split
  · exact hdata _
  · split
    · exact hdata []
    · exact hno

theorem faultsOf_nodeFaults (node : Members) : FaultsOf node (nodeFaults (look node "data")) :=
  ⟨nodeFaults_sublist _, fun _ => mem_nodeFaults_iff⟩

theorem FaultsOf.unique {node : Members} {fs gs : List FetchFault} (hf : FaultsOf node fs)
    (hg : FaultsOf node gs) : fs = gs := by
  have hall : [FetchFault.noUrl, .insecure, .privateHost, .interval].Nodup := by decide
  have hperm : fs.Perm gs := (List.perm_ext_iff_of_nodup (hall.sublist hf.ordered)
    (hall.sublist hg.ordered)).2 fun f => (hf.exact f).trans (hg.exact f).symm
  exact (List.Nodup.perm_iff_eq_of_sublist hall hf.ordered hg.ordered).1 hperm

/-! ### The list of a graph -/

theorem HoldsNodes.rawViolations_eq {ms : Members} {js : List Json} (h : HoldsNodes ms js) :
    rawViolations (.obj ms) = .ok (violations ((fetchNodes ms).map (look · "data"))) := by
  have hraw : rawSettings (look ms "nodes") = .ok ((fetchNodes ms).map (look · "data")) := by
    rw [h.fetchNodes_eq, h.nodes, rawSettings, List.map_filterMap, fetchSettings?_eq]
  simp only [rawViolations, h.mode, hraw]
  rfl

/-- The violations of a graph with too many polling nodes are the one that they are too many. With
few enough they are those of each polling node checked alone, put together in order and numbered by
its place among the polling nodes. Graphs with the same polling nodes in the same order have the
same violations, whatever else is in them. -/
theorem fetch_listing {ms : Members} {js : List Json} (h : HoldsNodes ms js) :
    ∃ faults : Members → List FetchFault, (∀ node, FaultsOf node (faults node)) ∧
      (∀ node ∈ fetchNodes ms,
        rawViolations (.obj (alone node)) = .ok ((faults node).map (FetchFault.report 0))) ∧
      (5 < (fetchNodes ms).length → rawViolations (.obj ms) =
        .ok [⟨"graph.nodes", "A strategy may contain at most 5 API Fetch nodes."⟩]) ∧
      ((fetchNodes ms).length ≤ 5 → rawViolations (.obj ms) =
        .ok ((fetchNodes ms).mapIdx fun i node =>
          (faults node).map (FetchFault.report i)).flatten) ∧
      ∀ {ms' : Members} {js' : List Json}, HoldsNodes ms' js' →
        js'.filterMap fetchNode? = js.filterMap fetchNode? →
        rawViolations (.obj ms') = rawViolations (.obj ms) := by
  refine ⟨fun node => nodeFaults (look node "data"), faultsOf_nodeFaults, fun node hnode => ?_,
    fun hmany => ?_, fun hfew => ?_, fun {ms' js'} h' hsame => ?_⟩
  · have hone := h.fetchNodes_alone hnode
    rw [(holdsNodes_alone node).rawViolations_eq, violations_of_few (by simp [hone]), hone]
    simp
  · rw [h.rawViolations_eq, violations_of_many hmany]
    rfl
  · rw [h.rawViolations_eq, violations_of_few hfew]
  · rw [h.rawViolations_eq, h'.rawViolations_eq, h.fetchNodes_eq, h'.fetchNodes_eq, hsame]

def hastyNode : Members :=
  [("type", .str "api_fetch"),
    ("data", .obj [("url", .str "http://10.0.0.1/x"), ("interval_secs", .int 29)])]

def urlNode : Members := [("type", .str "api_fetch"), ("data", .str "url")]

def mixedNodes : List Json :=
  [.obj [("type", .str "note"), ("data", .int 1)], .obj hastyNode, .int 5, .obj urlNode, .arr []]

def mixedFlow : Members := [("mode", .str "node"), ("nodes", .arr mixedNodes)]

theorem fetch_listing_of_mixedFlow : HoldsNodes mixedFlow mixedNodes ∧
    rawViolations (.obj mixedFlow) = .ok
      [⟨"graph.nodes.0.data.url", "API Fetch URLs must use HTTPS."⟩,
        ⟨"graph.nodes.0.data.url",
          "API Fetch URLs must not point to private or internal addresses."⟩,
        ⟨"graph.nodes.0.data.interval_secs", "API Fetch interval must be at least 30 seconds."⟩,
        ⟨"graph.nodes.1.data.url", "API Fetch nodes require a URL."⟩] := by
  have hmixed : HoldsNodes mixedFlow mixedNodes := ⟨rfl, rfl⟩
  have hfetches : fetchNodes mixedFlow = [hastyNode, urlNode] := by decide +kernel
  obtain ⟨faults, hfaults, -, -, hfew, -⟩ := fetch_listing hmixed
  have heq : faults = fun node => nodeFaults (look node "data") :=
    funext fun node => (hfaults node).unique (faultsOf_nodeFaults node)
  refine ⟨hmixed, ?_⟩
  rw [hfew (by simp [hfetches]), hfetches, heq]
  exact congrArg Except.ok (by decide +kernel)

end StrategyDesk.Flow
