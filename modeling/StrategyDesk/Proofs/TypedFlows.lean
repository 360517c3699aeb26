import StrategyDesk.Flow.Fetch
import StrategyDesk.Proofs.Commands
import StrategyDesk.Proofs.Readings

/-!
Flows as typed values. A node that is read keeps its type and its settings, and settings that are
absent count as empty ones in either view of it. So the polling nodes of a typed flow have the
faults that they have in the raw graph, in the same order.
-/

set_option autoImplicit false

namespace StrategyDesk
open Json Reading Reader Service

theorem Node.members_of_read {j : Json} {n : Node} (h : Node.read j = .value n) :
    ∃ ms, j = .obj ms ∧ find? ms "type" = some (.str n.type) ∧
      (find? ms "data" = some (.obj n.data) ∨ find? ms "data" = none ∧ n.data = []) := by
  cases j with
  | obj ms =>
    simp only [Node.read, named_eq_value_iff, seq_eq_value_iff, map_eq_value_iff,
      field_eq_value_iff, fieldOr_eq_value_iff, Gives, GivesOr, Reads, text_eq_value_iff,
      object_eq_value_iff] at h
    obtain ⟨-, _, _, ⟨_, _, ⟨_, data, ⟨_, type, ⟨_, -, rfl⟩, ⟨_, htype, rfl⟩, rfl⟩, hdata, rfl⟩, -,
      rfl⟩, -, rfl⟩ := h
    refine ⟨ms, rfl, htype, hdata.imp_left ?_⟩
    rintro ⟨_, hdata, rfl⟩
    exact hdata
  | _ => cases h

namespace Flow

theorem nodes_of_read {ms : Members} {f : Flow} (h : Flow.read (.obj ms) = .value f) :
    (∃ js, find? ms "nodes" = some (.arr js) ∧
      List.Forall₂ (fun j n => Node.read j = .value n) js f.nodes) ∨
    find? ms "nodes" = none ∧ f.nodes = [] := by
  simp only [Flow.read, seq_eq_value_iff, map_eq_value_iff, fieldOr_eq_value_iff, Gives, GivesOr,
    Reads, list_eq_value_iff] at h
  obtain ⟨_, edges, ⟨_, nodes, ⟨_, -, rfl⟩, hnodes, rfl⟩, -, rfl⟩ := h
  refine hnodes.imp_left ?_
  rintro ⟨_, hfind, js, rfl, hjs⟩
  exact ⟨js, hfind, hjs⟩

theorem violations_congr {xs ys : List Json} (h : xs.map nodeFaults = ys.map nodeFaults) :
    violations xs = violations ys := by
  have hlength : xs.length = ys.length := by simpa using congrArg List.length h
  have hfaults (zs : List Json) : (zs.mapIdx fun i z => (nodeFaults z).map (FetchFault.report i)) =
      (zs.map nodeFaults).mapIdx fun i fs => fs.map (FetchFault.report i) := by
    rw [List.mapIdx_eq_zipIdx_map, List.mapIdx_eq_zipIdx_map, List.zipIdx_map, List.map_map]
    rfl
  rw [violations, violations, hlength, hfaults, hfaults, h]

theorem look_members_data (n : Node) : look n.members "data" = .obj n.data := rfl

theorem nodeFaults_of_read {ms : Members} {n : Node}
    (h : find? ms "data" = some (.obj n.data) ∨ find? ms "data" = none ∧ n.data = []) :
    nodeFaults (look ms "data") = nodeFaults (look n.members "data") := by
  rw [look_members_data]
  rcases h with hdata | ⟨hnone, hdata⟩
  · rw [look_of_find? hdata]
  · rw [look, hnone, hdata]
    rfl

theorem fetchSettings?_of_read {j : Json} {n : Node} (h : Node.read j = .value n) :
    (fetchSettings? j).map nodeFaults =
      if n.type = fetchType then some (nodeFaults (look n.members "data")) else none := by
  obtain ⟨ms, rfl, htype, hdata⟩ := Node.members_of_read h
  have hlook : look ms "type" = .str n.type := look_of_find? htype
  rw [fetchSettings?, hlook]
  cases n.type with
  | plain t =>
    by_cases ht : t = fetchType
    · simp [ht, nodeFaults_of_read hdata]
    · simp [ht]
  | torn t => simp

/-- The nodes that poll are found in either view, and have the same faults in it. -/
theorem nodeFaults_of_reads {js : List Json} {ns : List Node}
    (h : List.Forall₂ (fun j n => Node.read j = .value n) js ns) :
    (js.filterMap fetchSettings?).map nodeFaults =
      ((ns.filter fun n => n.type == (fetchType : Text)).map fun n =>
        look n.members "data").map nodeFaults := by
  induction h with
  | nil => rfl
  | @cons j n js ns hj _ ih =>
    have hsettings := fetchSettings?_of_read hj
    rw [List.filterMap_cons, List.filter_cons]
    by_cases htype : n.type = fetchType
    · rw [if_pos htype, Option.map_eq_some_iff] at hsettings
      obtain ⟨data, hdata, hfaults⟩ := hsettings
      rw [if_pos (beq_iff_eq.2 htype)]
      simp only [hdata, List.map_cons, hfaults, ih]
    · rw [if_neg htype, Option.map_eq_none_iff] at hsettings
      rw [if_neg (mt beq_iff_eq.1 htype)]
      simp only [hsettings, ih]

/-- A flow that can be read has the violations of its raw graph. -/
theorem rawViolations_of_read {ms : Members} {f : Flow} (hmode : look ms "mode" = .str "node")
    (h : Flow.read (.obj ms) = .value f) : rawViolations (.obj ms) = .ok f.fetchViolations := by
  have hraw : ∃ settings, rawSettings (look ms "nodes") = .ok settings ∧
      settings.map nodeFaults =
        ((f.nodesOfType fetchType).map fun n => look n.members "data").map nodeFaults := by
    rcases nodes_of_read h with ⟨js, hnodes, hread⟩ | ⟨hnone, hnodes⟩
    · exact ⟨js.filterMap fetchSettings?, by rw [look_of_find? hnodes]; rfl,
        nodeFaults_of_reads hread⟩
    · exact ⟨[], by rw [look, hnone]; rfl, by rw [nodesOfType, hnodes]; rfl⟩
  obtain ⟨settings, hsettings, hfaults⟩ := hraw
  rw [fetchViolations, ← violations_congr hfaults]
  simp only [rawViolations, hmode, hsettings]
  rfl

def placedFlow : Members :=
  [("mode", .str "node"), ("nodes", .arr
    [.obj [("id", .str "a"), ("type", .str "api_fetch")],
      .obj [("id", .str "b"), ("type", .str "note"), ("data", .obj [])],
      .obj [("id", .str "c"), ("type", .str "api_fetch"), ("label", .null),
        ("position", .obj [("x", .double .one), ("y", .double .zero)]),
        ("data", .obj [("url", .str "http://localhost"), ("interval_secs", .bool true)])]])]

def typedPlacedFlow : Flow where
  nodes := [⟨"a", "api_fetch", [], none, []⟩, ⟨"b", "note", [], none, []⟩,
    ⟨"c", "api_fetch", [("url", .str "http://localhost"), ("interval_secs", .bool true)],
      some ⟨.one, .zero⟩, [("label", .null)]⟩]
  edges := []

theorem rawViolations_of_placedFlow : look placedFlow "mode" = .str "node" ∧
    Flow.read (.obj placedFlow) = .value typedPlacedFlow ∧
    rawViolations (.obj placedFlow) = .ok typedPlacedFlow.fetchViolations := by
  have hread : Flow.read (.obj placedFlow) = .value typedPlacedFlow := rfl
  exact ⟨rfl, hread, rawViolations_of_read rfl hread⟩

end Flow

end StrategyDesk
