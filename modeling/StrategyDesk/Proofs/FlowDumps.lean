import StrategyDesk.Graph.Model
import StrategyDesk.Proofs.GivenIds
import StrategyDesk.Proofs.TypedFlows
import StrategyDesk.Proofs.Unshown

/-!
Flows there and back. A typed flow that was read from a graph is dumped node by node and edge by
edge as it stood there, without members of the nodes and edges that are `null`; what stands inside
the data is left alone. The dump is read as a flow that is dumped as the same again, and its polling
nodes have the faults that they had. Values that stand too deep in one another cannot be written,
and then there is no dump.
-/

set_option autoImplicit false

namespace StrategyDesk
open Json Reading Reader Service

/-! ### Members -/

namespace Json

mutual
theorem finiteOrNull_eq {j : Json} (h : j.allFinite = true) : j.finiteOrNull = j := by
  cases j with
  | double d => exact if_pos h
  | arr js => exact congrArg arr (itemsFiniteOrNull_eq h)
  | obj ms => exact congrArg obj (membersFiniteOrNull_eq h)
  | _ => rfl
termination_by structural j
theorem itemsFiniteOrNull_eq {js : List Json} (h : itemsFinite js = true) :
    itemsFiniteOrNull js = js := by
  cases js with
  | nil => rfl
  | cons j js =>
    simp only [itemsFinite, itemsEvery, Bool.and_eq_true] at h
    exact congrArg₂ List.cons (finiteOrNull_eq h.1) (itemsFiniteOrNull_eq h.2)
termination_by structural js
theorem membersFiniteOrNull_eq {ms : Members} (h : membersFinite ms = true) :
    membersFiniteOrNull ms = ms := by
  cases ms with
  | nil => rfl
  | cons m ms =>
    simp only [membersFinite, membersEvery, Bool.and_eq_true] at h
    exact congrArg₂ List.cons (memberFiniteOrNull_eq h.1) (membersFiniteOrNull_eq h.2)
termination_by structural ms
theorem memberFiniteOrNull_eq {m : Text × Json}
    (h : memberEvery isFiniteLeaf (fun _ => true) m = true) : memberFiniteOrNull m = m := by
  obtain ⟨k, j⟩ := m
  exact congrArg (Prod.mk k) (finiteOrNull_eq (j := j) h)
termination_by structural m
end

theorem membersHeight_le_iff {ms : Members} {n : Nat} :
    membersHeight ms ≤ n ↔ ∀ m ∈ ms, m.2.height ≤ n := by
  induction ms with
  | nil => simp [membersHeight]
  | cons m ms ih =>
    obtain ⟨k, j⟩ := m
    rw [membersHeight, memberHeight, Nat.max_le, ih, List.forall_mem_cons]

theorem find?_eq_none {ms : Members} {key : Text} (h : ∀ m ∈ ms, m.1 ≠ key) :
    find? ms key = none := by
  induction ms with
  | nil => rfl
  | cons m ms ih =>
    obtain ⟨k, j⟩ := m
    obtain ⟨hk, hms⟩ := List.forall_mem_cons.1 h
    rw [find?, if_neg hk, ih hms]

/-- A value that is dumped as it stands, unless it is too high: its numbers are finite and the names
in it whole. -/
def IsPlain (j : Json) : Prop := j.allFinite = true ∧ j.allNamed = true

theorem IsPlain.dump {j : Json} (h : j.IsPlain) (x : Dumper) (n : Nat) :
    x.dump n j = if j.height ≤ n then some j else none := by
  rw [x.dump_of_named h.2, finiteOrNull_eq h.1]

theorem isPlain_item {js : List Json} (h : (arr js).IsPlain) {j : Json} (hj : j ∈ js) :
    j.IsPlain :=
  ⟨itemsEvery_iff.1 h.1 j hj, itemsEvery_iff.1 h.2 j hj⟩

theorem isPlain_member {ms : Members} (h : (obj ms).IsPlain) {m : Text × Json} (hm : m ∈ ms) :
    m.2.IsPlain :=
  ⟨(membersEvery_iff.1 h.1 m hm).2, (membersEvery_iff.1 h.2 m hm).2⟩

end Json

theorem ne_of_mem_otherMembers {names : List Text} {ms : Members} {m : Text × Json}
    (h : m ∈ otherMembers names ms) {name : Text} (hname : name ∈ names) : m.1 ≠ name := by
  rintro rfl
  simp [otherMembers, hname] at h

theorem presentMembers_idem (ms : Members) :
    presentMembers (presentMembers ms) = presentMembers ms := by
  simp only [presentMembers, List.filter_filter, Bool.and_self]

theorem otherMembers_append_presentMembers {names : List Text} {fixed : Members}
    (hfixed : ∀ m ∈ fixed, m.1 ∈ names) (ms : Members) :
    otherMembers names (fixed ++ presentMembers (otherMembers names ms)) =
      presentMembers (otherMembers names ms) := by
  have hnone : otherMembers names fixed = [] :=
    List.filter_eq_nil_iff.2 fun m hm => by simp [hfixed m hm]
  have hall : otherMembers names (presentMembers (otherMembers names ms)) =
      presentMembers (otherMembers names ms) := by
    simp only [otherMembers, presentMembers, List.filter_filter]
    exact List.filter_congr fun m _ => by simp [Bool.and_comm]
  rw [otherMembers, List.filter_append]
  exact congrArg₂ (· ++ ·) hnone hall

/-! ### What flows are dumped as -/

inductive PositionDumps : Json → Members → Prop where
  | absent : PositionDumps .null []
  | place {ms : Members} {x y : Double} (hx : number (look ms "x") = .value x)
    (hy : number (look ms "y") = .value y) :
    PositionDumps (.obj ms) [("position", .obj [("x", .double x), ("y", .double y)])]

/-- A node is dumped with its id, its type, its data as they stand, its place, and every other
member that is not `null`; absent data are empty. -/
inductive NodeDumps : Json → Json → Prop where
  | node {ms data place : Members} {id type : Text} (hid : look ms "id" = .str id)
    (htype : look ms "type" = .str type)
    (hdata : find? ms "data" = some (.obj data) ∨ find? ms "data" = none ∧ data = [])
    (hplace : PositionDumps (look ms "position") place) :
    NodeDumps (.obj ms) (.obj (("id", .str id) :: ("type", .str type) :: ("data", .obj data) ::
      (place ++ presentMembers (otherMembers Node.declared ms))))

/-- An edge is dumped with its two ends and every other member that is not `null`. -/
inductive EdgeDumps : Json → Json → Prop where
  | edge {ms : Members} {source target : Text} (hsource : look ms "source" = .str source)
    (htarget : look ms "target" = .str target) :
    EdgeDumps (.obj ms) (.obj (("source", .str source) :: ("target", .str target) ::
      presentMembers (otherMembers Edge.declared ms)))

/-- A flow is dumped with its nodes and its edges one by one. -/
inductive FlowDumps : Json → Json → Prop where
  | flow {g : Json} {nodes edges : List Json}
    (hnodes : List.Forall₂ NodeDumps (Form.itemsIn "nodes" g) nodes)
    (hedges : List.Forall₂ EdgeDumps (Form.itemsIn "edges" g) edges) :
    FlowDumps g (.obj [("mode", .str "node"), ("nodes", .arr nodes), ("edges", .arr edges)])

/-! ### What is read -/

theorem Position.read_eq_value_iff {ms : Members} {p : Position} :
    Position.read (.obj ms) = .value p ↔ Gives ms "x" (Reads number) p.x ∧
      Gives ms "y" (Reads number) p.y := by
  simp only [Position.read, seq_eq_value_iff, map_eq_value_iff, field_eq_value_iff]
  constructor
  · rintro ⟨_, y, ⟨x, hx, rfl⟩, hy, rfl⟩
    exact ⟨hx, hy⟩
  · rintro ⟨hx, hy⟩
    exact ⟨_, p.y, ⟨p.x, hx, rfl⟩, hy, rfl⟩

theorem Node.read_eq_value_iff {ms : Members} {n : Node} :
    Node.read (.obj ms) = .value n ↔ (∀ m ∈ ms, m.1.isTorn = false) ∧
      Gives ms "id" (Reads text) n.id ∧ Gives ms "type" (Reads text) n.type ∧
      GivesOr ms "data" (Reads object) [] n.data ∧
      GivesOr ms "position" (Reads (optional Position.read)) none n.position ∧
      n.extra = otherMembers Node.declared ms := by
  simp only [Node.read, named_eq_value_iff, fieldOrNull, seq_eq_value_iff, map_eq_value_iff,
    field_eq_value_iff, fieldOr_eq_value_iff]
  refine and_congr_right fun _ => ?_
  constructor
  · rintro ⟨_, _, ⟨_, position, ⟨_, data, ⟨_, type, ⟨id, hid, rfl⟩, htype, rfl⟩, hdata, rfl⟩,
      hposition, rfl⟩, hextra, rfl⟩
    cases hextra
    exact ⟨hid, htype, hdata, hposition, rfl⟩
  · rintro ⟨hid, htype, hdata, hposition, hextra⟩
    exact ⟨_, n.extra, ⟨_, n.position, ⟨_, n.data, ⟨_, n.type, ⟨n.id, hid, rfl⟩, htype, rfl⟩,
      hdata, rfl⟩, hposition, rfl⟩, by rw [hextra], rfl⟩

theorem Edge.read_eq_value_iff {ms : Members} {e : Edge} :
    Edge.read (.obj ms) = .value e ↔ (∀ m ∈ ms, m.1.isTorn = false) ∧
      Gives ms "source" (Reads text) e.source ∧ Gives ms "target" (Reads text) e.target ∧
      e.extra = otherMembers Edge.declared ms := by
  simp only [Edge.read, named_eq_value_iff, seq_eq_value_iff, map_eq_value_iff, field_eq_value_iff]
  refine and_congr_right fun _ => ?_
  constructor
  · rintro ⟨_, _, ⟨_, target, ⟨source, hsource, rfl⟩, htarget, rfl⟩, hextra, rfl⟩
    cases hextra
    exact ⟨hsource, htarget, rfl⟩
  · rintro ⟨hsource, htarget, hextra⟩
    exact ⟨_, e.extra, ⟨_, e.target, ⟨e.source, hsource, rfl⟩, htarget, rfl⟩, by rw [hextra], rfl⟩

theorem Flow.read_eq_value_iff {ms : Members} {f : Flow} :
    Flow.read (.obj ms) = .value f ↔ GivesOr ms "mode" (Reads (keyword "node")) () () ∧
      GivesOr ms "nodes" (Reads (list Node.read)) [] f.nodes ∧
      GivesOr ms "edges" (Reads (list Edge.read)) [] f.edges := by
  simp only [Flow.read, seq_eq_value_iff, map_eq_value_iff, fieldOr_eq_value_iff]
  constructor
  · rintro ⟨_, edges, ⟨_, nodes, ⟨_, hmode, rfl⟩, hnodes, rfl⟩, hedges, rfl⟩
    exact ⟨hmode, hnodes, hedges⟩
  · rintro ⟨hmode, hnodes, hedges⟩
    exact ⟨_, f.edges, ⟨_, f.nodes, ⟨_, hmode, rfl⟩, hnodes, rfl⟩, hedges, rfl⟩

theorem look_of_gives_text {ms : Members} {key : String} {s : Text}
    (h : Gives ms key (Reads text) s) : look ms key = .str s := by
  obtain ⟨j, hkey, hread⟩ := h
  rw [look_of_find? hkey, text_eq_value_iff.1 hread]

theorem find?_of_givesOr_object {ms data : Members} {key : String}
    (h : GivesOr ms key (Reads object) [] data) :
    find? ms key = some (.obj data) ∨ find? ms key = none ∧ data = [] := by
  refine h.imp_left ?_
  rintro ⟨j, hkey, hread⟩
  rw [hkey, object_eq_value_iff.1 hread]

theorem reads_itemsIn {α : Type} {ms : Members} {key : String} {r : Reader α} {xs : List α}
    (h : GivesOr ms key (Reads (list r)) [] xs) :
    List.Forall₂ (fun j x => r j = .value x) (Form.itemsIn key (.obj ms)) xs := by
  rcases h with ⟨j, hkey, hread⟩ | ⟨hnone, rfl⟩
  · obtain ⟨js, rfl, hjs⟩ := list_eq_value_iff.1 hread
    rw [Form.itemsIn, look_of_find? hkey]
    exact hjs
  · rw [Form.itemsIn, look, hnone]
    exact .nil

theorem positionDumps_of_read {ms : Members} {o : Option Position}
    (h : GivesOr ms "position" (Reads (optional Position.read)) none o) :
    PositionDumps (look ms "position") (Node.dumpPosition o) := by
  rcases h with ⟨j, hkey, hread⟩ | ⟨hnone, rfl⟩
  · rw [look_of_find? hkey]
    cases j with
    | null =>
      cases hread
      exact .absent
    | obj ns =>
      obtain ⟨p, hp, rfl⟩ := map_eq_value_iff.1 hread
      obtain ⟨⟨j, hj, hx⟩, ⟨k, hk, hy⟩⟩ := Position.read_eq_value_iff.1 hp
      exact .place (by rw [look_of_find? hj, hx]) (by rw [look_of_find? hk, hy])
    | _ => cases hread
  · rw [look, hnone]
    exact .absent

/-! ### Nodes and edges there and back -/

def Node.present (n : Node) : Node := { n with extra := presentMembers n.extra }

def Edge.present (e : Edge) : Edge := { e with extra := presentMembers e.extra }

def Flow.present (f : Flow) : Flow := ⟨f.nodes.map Node.present, f.edges.map Edge.present⟩

/-- What a node with plain values is dumped as, if they are low enough. -/
def Node.dump (n : Node) : Json :=
  .obj (("id", .str n.id) :: ("type", .str n.type) :: ("data", .obj n.data) ::
    (dumpPosition n.position ++ presentMembers n.extra))

def Edge.dump (e : Edge) : Json :=
  .obj (("source", .str e.source) :: ("target", .str e.target) :: presentMembers e.extra)

def Flow.dump (f : Flow) : Json :=
  .obj [("mode", .str "node"), ("nodes", .arr (f.nodes.map Node.dump)),
    ("edges", .arr (f.edges.map Edge.dump))]

theorem Node.dump_present (n : Node) : n.present.dump = n.dump := by
  rw [Node.dump, Node.present, presentMembers_idem]
  rfl

theorem Edge.dump_present (e : Edge) : e.present.dump = e.dump := by
  rw [Edge.dump, Edge.present, presentMembers_idem]
  rfl

theorem Flow.dump_present (f : Flow) : f.present.dump = f.dump := by
  simp only [Flow.dump, Flow.present, List.map_map, Function.comp_def, Node.dump_present,
    Edge.dump_present]

theorem dumpPosition_whole (o : Option Position) :
    ∀ m ∈ Node.dumpPosition o, m.1.isTorn = false := by
  cases o with
  | none => simp [Node.dumpPosition]
  | some p => exact List.forall_mem_cons.2 ⟨rfl, by simp⟩

theorem presentMembers_otherMembers_whole {ms : Members} (h : ∀ m ∈ ms, m.1.isTorn = false)
    (names : List Text) : ∀ m ∈ presentMembers (otherMembers names ms), m.1.isTorn = false :=
  fun m hm => h m (List.mem_of_mem_filter (List.mem_of_mem_filter hm))

theorem Node.dump_of_read {j : Json} {n : Node} (h : Node.read j = .value n) :
    NodeDumps j n.dump ∧ Node.read n.dump = .value n.present := by
  cases j with
  | obj ms =>
    obtain ⟨hwhole, hid, htype, hdata, hposition, hextra⟩ := Node.read_eq_value_iff.1 h
    rw [Node.dump, hextra]
    refine ⟨.node (look_of_gives_text hid) (look_of_gives_text htype)
      (find?_of_givesOr_object hdata) (positionDumps_of_read hposition),
      Node.read_eq_value_iff.2
        ⟨?_, ⟨_, rfl, rfl⟩, ⟨_, rfl, rfl⟩, Or.inl ⟨_, rfl, rfl⟩, ?_, ?_⟩⟩
    · simp only [List.forall_mem_cons, List.forall_mem_append]
      exact ⟨rfl, rfl, rfl, dumpPosition_whole _, presentMembers_otherMembers_whole hwhole _⟩
    · cases hplace : n.position with
      | some p =>
        refine Or.inl ⟨p.dump, rfl, ?_⟩
        rw [Node.present, hplace]
        rfl
      | none =>
        refine Or.inr ⟨?_, by rw [Node.present, hplace]⟩
        change find? (presentMembers (otherMembers Node.declared ms)) "position" = none
        exact find?_eq_none fun m hm =>
          ne_of_mem_otherMembers (List.mem_of_mem_filter hm) (by decide)
    · have hnames : ∀ m ∈ (("id", .str n.id) :: ("type", .str n.type) :: ("data", .obj n.data) ::
          dumpPosition n.position : Members), m.1 ∈ Node.declared := by
        cases n.position <;> simp [dumpPosition, Node.declared]
      have hothers := otherMembers_append_presentMembers hnames ms
      rw [Node.present, hextra]
      exact hothers.symm
  | _ => cases h

theorem Edge.dump_of_read {j : Json} {e : Edge} (h : Edge.read j = .value e) :
    EdgeDumps j e.dump ∧ Edge.read e.dump = .value e.present := by
  cases j with
  | obj ms =>
    obtain ⟨hwhole, hsource, htarget, hextra⟩ := Edge.read_eq_value_iff.1 h
    rw [Edge.dump, hextra]
    refine ⟨.edge (look_of_gives_text hsource) (look_of_gives_text htarget),
      Edge.read_eq_value_iff.2 ⟨?_, ⟨_, rfl, rfl⟩, ⟨_, rfl, rfl⟩, ?_⟩⟩
    · simp only [List.forall_mem_cons]
      exact ⟨rfl, rfl, presentMembers_otherMembers_whole hwhole _⟩
    · have hnames : ∀ m ∈ ([("source", .str e.source), ("target", .str e.target)] : Members),
          m.1 ∈ Edge.declared := by
        simp [Edge.declared]
      have hothers := otherMembers_append_presentMembers hnames ms
      rw [Edge.present, hextra]
      exact hothers.symm
  | _ => cases h

theorem dumps_of_reads {α : Type} {r : Reader α} {dump : α → Json} {present : α → α}
    {dumps : Json → Json → Prop}
    (hitem : ∀ {j x}, r j = .value x → dumps j (dump x) ∧ r (dump x) = .value (present x))
    {js : List Json} {xs : List α} (h : List.Forall₂ (fun j x => r j = .value x) js xs) :
    List.Forall₂ dumps js (xs.map dump) ∧
      List.Forall₂ (fun j x => r j = .value x) (xs.map dump) (xs.map present) := by
  induction h with
  | nil => exact ⟨.nil, .nil⟩
  | cons hj _ ih =>
    obtain ⟨hdumps, hback⟩ := hitem hj
    exact ⟨.cons hdumps ih.1, .cons hback ih.2⟩

/-! ### Values that can be written -/

def Node.values (n : Node) : List Json := (n.data ++ n.extra).map Prod.snd

def Edge.values (e : Edge) : List Json := e.extra.map Prod.snd

namespace Flow

def values (f : Flow) : List Json := f.nodes.flatMap Node.values ++ f.edges.flatMap Edge.values

def membersOf : Json → Members
  | .obj ms => ms
  | _ => []

def nodeValues (j : Json) : List Json :=
  (membersOf (look (membersOf j) "data") ++ otherMembers Node.declared (membersOf j)).map Prod.snd

def edgeValues (j : Json) : List Json :=
  (otherMembers Edge.declared (membersOf j)).map Prod.snd

def passedOn (g : Json) : List Json :=
  (Form.itemsIn "nodes" g).flatMap nodeValues ++ (Form.itemsIn "edges" g).flatMap edgeValues

/-- In no value that is passed on too many values stand in one another. -/
def IsLow (g : Json) : Prop := ∀ v ∈ passedOn g, v.height ≤ maxHeight

theorem nodeValues_of_read {j : Json} {n : Node} (h : Node.read j = .value n) :
    nodeValues j = n.values := by
  cases j with
  | obj ms =>
    obtain ⟨-, -, -, hdata, -, hextra⟩ := Node.read_eq_value_iff.1 h
    have hmembers : membersOf (look ms "data") = n.data := by
      rcases find?_of_givesOr_object hdata with hkey | ⟨hnone, hnil⟩
      · rw [look_of_find? hkey]
        rfl
      · rw [look, hnone, hnil]
        rfl
    rw [nodeValues, Node.values, membersOf, hmembers, hextra]
  | _ => cases h

theorem edgeValues_of_read {j : Json} {e : Edge} (h : Edge.read j = .value e) :
    edgeValues j = e.values := by
  cases j with
  | obj ms =>
    obtain ⟨-, -, -, hextra⟩ := Edge.read_eq_value_iff.1 h
    rw [edgeValues, Edge.values, membersOf, hextra]
  | _ => cases h

theorem flatMap_of_reads {α β : Type} {r : Reader α} {values : Json → List β} {values' : α → List β}
    (hitem : ∀ {j x}, r j = .value x → values j = values' x) {js : List Json} {xs : List α}
    (h : List.Forall₂ (fun j x => r j = .value x) js xs) :
    js.flatMap values = xs.flatMap values' := by
  induction h with
  | nil => rfl
  | cons hj _ ih => rw [List.flatMap_cons, List.flatMap_cons, hitem hj, ih]

theorem passedOn_of_read {ms : Members} {f : Flow} (h : Flow.read (.obj ms) = .value f) :
    passedOn (.obj ms) = f.values := by
  obtain ⟨-, hnodes, hedges⟩ := Flow.read_eq_value_iff.1 h
  rw [passedOn, flatMap_of_reads nodeValues_of_read (reads_itemsIn hnodes),
    flatMap_of_reads edgeValues_of_read (reads_itemsIn hedges), values]

end Flow

/-! ### What is written -/

theorem bind_ite {α β γ : Type} {p q r : Prop} {_ : Decidable p} {_ : Decidable q}
    {_ : Decidable r} {a : α} {b : β} {f : α → β → γ} (h : p ∧ q ↔ r) :
    ((if p then some a else none) >>= fun a => (if q then some b else none) >>= fun b =>
      pure (f a b)) = if r then some (f a b) else none := by
  by_cases hp : p <;> by_cases hq : q <;> simp [hp, hq, ← h]

theorem mapM_eq_ite {α β : Type} {f : α → Option β} {g : α → β} {p : α → Prop} [DecidablePred p]
    {xs : List α} (h : ∀ a ∈ xs, f a = if p a then some (g a) else none) :
    xs.mapM f = if ∀ a ∈ xs, p a then some (xs.map g) else none := by
  induction xs with
  | nil => rfl
  | cons a xs ih =>
    obtain ⟨ha, hxs⟩ := List.forall_mem_cons.1 h
    rw [List.mapM_cons, ha, ih hxs]
    exact bind_ite List.forall_mem_cons.symm

variable {x : Json.Dumper}

theorem writtenMembers_of_plain {ms : Members} (h : ∀ m ∈ ms, m.2.IsPlain) :
    writtenMembers x ms = if ∀ m ∈ ms, m.2.height ≤ Flow.maxHeight then some ms else none := by
  have hmember : ∀ m ∈ ms, (x.dump Flow.maxHeight m.2).map (Prod.mk m.1) =
      if m.2.height ≤ Flow.maxHeight then some (id m) else none := by
    intro m hm
    rw [(h m hm).dump]
    split <;> rfl
  rw [writtenMembers, mapM_eq_ite hmember, List.map_id]

theorem low_presentMembers_iff {ms : Members} :
    (∀ m ∈ presentMembers ms, m.2.height ≤ Flow.maxHeight) ↔
      ∀ m ∈ ms, m.2.height ≤ Flow.maxHeight := by
  refine ⟨fun h m hm => ?_, fun h m hm => h m (List.mem_of_mem_filter hm)⟩
  -- A `null` is left out, and never too high.
  cases hnull : m.2.isNull with
  | false => exact h m (List.mem_filter.2 ⟨hm, by rw [hnull]; rfl⟩)
  | true =>
    cases hvalue : m.2 with
    | null => decide
    | _ => simp [hvalue, isNull] at hnull

/-- A node that passes on plain values. -/
structure Node.IsPlain (n : Node) : Prop where
  data : (obj n.data).IsPlain
  extra : ∀ m ∈ n.extra, m.2.IsPlain

theorem Node.write_of_plain {n : Node} (h : n.IsPlain) :
    n.write x = if ∀ v ∈ n.values, v.height ≤ Flow.maxHeight then some n.dump else none := by
  have hextra : ∀ m ∈ presentMembers n.extra, m.2.IsPlain :=
    fun m hm => h.extra m (List.mem_of_mem_filter hm)
  rw [Node.write, h.data.dump, writtenMembers_of_plain hextra]
  refine bind_ite ?_
  rw [height, Nat.add_le_add_iff_right, membersHeight_le_iff, low_presentMembers_iff, Node.values,
    List.forall_mem_map, List.forall_mem_append]

theorem Edge.write_of_plain {e : Edge} (h : ∀ m ∈ e.extra, m.2.IsPlain) :
    e.write x = if ∀ v ∈ e.values, v.height ≤ Flow.maxHeight then some e.dump else none := by
  have hextra : ∀ m ∈ presentMembers e.extra, m.2.IsPlain :=
    fun m hm => h m (List.mem_of_mem_filter hm)
  rw [Edge.write, writtenMembers_of_plain hextra]
  simp only [low_presentMembers_iff, Edge.values, List.forall_mem_map]
  split <;> rfl

namespace Flow

/-- A flow that passes on plain values. -/
structure IsPlain (f : Flow) : Prop where
  nodes : ∀ n ∈ f.nodes, n.IsPlain
  edges : ∀ e ∈ f.edges, ∀ m ∈ e.extra, m.2.IsPlain

theorem write_of_plain {f : Flow} (h : f.IsPlain) :
    f.write x = if ∀ v ∈ f.values, v.height ≤ maxHeight then some f.dump else none := by
  rw [write, mapM_eq_ite fun n hn => Node.write_of_plain (h.nodes n hn),
    mapM_eq_ite fun e he => Edge.write_of_plain (h.edges e he)]
  refine bind_ite ?_
  rw [values, List.forall_mem_append, List.forall_mem_flatMap, List.forall_mem_flatMap]

theorem IsPlain.present {f : Flow} (h : f.IsPlain) : f.present.IsPlain := by
  constructor
  · refine List.forall_mem_map.2 fun n hn => ⟨(h.nodes n hn).data, fun m hm => ?_⟩
    exact (h.nodes n hn).extra m (List.mem_of_mem_filter hm)
  · exact List.forall_mem_map.2 fun e he m hm => h.edges e he m (List.mem_of_mem_filter hm)

theorem low_present {f : Flow} (h : ∀ v ∈ f.values, v.height ≤ maxHeight) :
    ∀ v ∈ f.present.values, v.height ≤ maxHeight := by
  simp only [values, Node.values, Edge.values, present, Node.present, Edge.present,
    List.forall_mem_append, List.forall_mem_flatMap, List.forall_mem_map] at h ⊢
  exact ⟨fun n hn => ⟨(h.1 n hn).1, low_presentMembers_iff.2 (h.1 n hn).2⟩,
    fun e he => low_presentMembers_iff.2 (h.2 e he)⟩

theorem isPlain_itemsIn {ms : Members} (h : (obj ms).IsPlain) {key : String} {j : Json}
    (hj : j ∈ Form.itemsIn key (.obj ms)) : j.IsPlain := by
  rw [Form.itemsIn] at hj
  split at hj
  · rename_i js hlook
    have hmem := mem_of_find? (find?_of_look hlook (by simp))
    exact isPlain_item (isPlain_member h hmem) hj
  · cases hj

theorem isPlain_otherMembers {ms : Members} (h : (obj ms).IsPlain) (names : List Text) :
    ∀ m ∈ otherMembers names ms, m.2.IsPlain :=
  fun _ hm => isPlain_member h (List.mem_of_mem_filter hm)

theorem forall_of_reads {α : Type} {r : Reader α} {P : α → Prop} {js : List Json} {xs : List α}
    (hitem : ∀ j ∈ js, ∀ a, r j = .value a → P a)
    (h : List.Forall₂ (fun j a => r j = .value a) js xs) : ∀ a ∈ xs, P a := by
  induction h with
  | nil => simp
  | cons hj _ ih =>
    obtain ⟨hfirst, hrest⟩ := List.forall_mem_cons.1 hitem
    exact List.forall_mem_cons.2 ⟨hfirst _ hj, ih hrest⟩

theorem isPlain_of_read {ms : Members} {f : Flow} (h : (obj ms).IsPlain)
    (hread : Flow.read (.obj ms) = .value f) : f.IsPlain := by
  obtain ⟨-, hnodes, hedges⟩ := read_eq_value_iff.1 hread
  refine ⟨forall_of_reads (fun j hj n hn => ?_) (reads_itemsIn hnodes),
    forall_of_reads (fun j hj e he => ?_) (reads_itemsIn hedges)⟩
  · have hplain := isPlain_itemsIn h hj
    cases j with
    | obj ns =>
      obtain ⟨-, -, -, hdata, -, hextra⟩ := Node.read_eq_value_iff.1 hn
      refine ⟨?_, hextra ▸ isPlain_otherMembers hplain _⟩
      rcases find?_of_givesOr_object hdata with hkey | ⟨-, hnil⟩
      · exact isPlain_member hplain (mem_of_find? hkey)
      · rw [hnil]
        exact ⟨rfl, rfl⟩
    | _ => cases hn
  · cases j with
    | obj ns =>
      obtain ⟨-, -, -, hextra⟩ := Edge.read_eq_value_iff.1 he
      exact hextra ▸ isPlain_otherMembers (isPlain_itemsIn h hj) _
    | _ => cases he

/-! ### The faults of polling nodes -/

theorem nodeFaults_of_nodeDumps {j k : Json} (h : NodeDumps j k) :
    (fetchSettings? k).map nodeFaults = (fetchSettings? j).map nodeFaults := by
  cases h with
  | @node ms data place id type hid htype hdata hplace =>
    have hfaults : nodeFaults (look ms "data") = nodeFaults (.obj data) := by
      rcases hdata with hkey | ⟨hnone, rfl⟩
      · rw [look_of_find? hkey]
      · rw [look, hnone]
        rfl
    have htype' : look (("id", .str id) :: ("type", .str type) :: ("data", .obj data) ::
        (place ++ presentMembers (otherMembers Node.declared ms))) "type" = .str type := rfl
    have hdata' : look (("id", .str id) :: ("type", .str type) :: ("data", .obj data) ::
        (place ++ presentMembers (otherMembers Node.declared ms))) "data" = .obj data := rfl
    rw [fetchSettings?, fetchSettings?, htype, htype', hdata']
    cases type with
    | plain t =>
      by_cases ht : t = fetchType
      · simp [ht, hfaults]
      · simp [ht]
    | torn t => rfl

theorem nodeFaults_of_dumps {js ks : List Json} (h : List.Forall₂ NodeDumps js ks) :
    (ks.filterMap fetchSettings?).map nodeFaults =
      (js.filterMap fetchSettings?).map nodeFaults := by
  rw [List.map_filterMap, List.map_filterMap]
  induction h with
  | nil => rfl
  | cons hj _ ih =>
    rw [List.filterMap_cons, List.filterMap_cons, nodeFaults_of_nodeDumps hj, ih]

theorem rawSettings_of_gives {α : Type} {ms : Members} {r : Reader α} {xs : List α}
    (h : GivesOr ms "nodes" (Reads (list r)) [] xs) :
    rawSettings (look ms "nodes") =
      .ok ((Form.itemsIn "nodes" (.obj ms)).filterMap fetchSettings?) := by
  rcases h with ⟨j, hkey, hread⟩ | ⟨hnone, -⟩
  · obtain ⟨js, rfl, -⟩ := list_eq_value_iff.1 hread
    rw [Form.itemsIn, look_of_find? hkey]
    rfl
  · rw [Form.itemsIn, look, hnone]
    rfl

end Flow

/-! ### There and back -/

theorem Graph.read_eq_flow {g : Json} {graph : Graph} (hmode : Mode.ofGraph g = .ok .flow)
    (h : Graph.read g = .ok graph) : ∃ f, Flow.read g = .value f ∧ graph = .flow f := by
  simp only [Graph.read, hmode, readAs] at h
  cases hread : Flow.read g with
  | value f =>
    rw [hread] at h
    cases h
    exact ⟨f, rfl, rfl⟩
  | faulty d ds =>
    rw [hread] at h
    cases h

theorem Graph.read_of_flow {g : Json} {f : Flow} (hmode : Mode.ofGraph g = .ok .flow)
    (h : Flow.read g = .value f) : Graph.read g = .ok (.flow f) := by
  simp only [Graph.read, hmode, readAs, h]
  rfl

theorem Graph.write_of_low {f : Flow} (h : f.IsPlain)
    (hlow : ∀ v ∈ f.values, v.height ≤ Flow.maxHeight) : (Graph.flow f).write x = .ok f.dump := by
  rw [write, Flow.write_of_plain h, if_pos hlow]
  rfl

theorem Graph.write_of_not_low {f : Flow} (h : f.IsPlain)
    (hlow : ¬ ∀ v ∈ f.values, v.height ≤ Flow.maxHeight) :
    (Graph.flow f).write x = .error .notWritable := by
  rw [write, Flow.write_of_plain h, if_neg hlow]
  rfl

namespace Flow

theorem dump_of_read {ms : Members} {f : Flow} (h : Flow.read (.obj ms) = .value f) :
    FlowDumps (.obj ms) f.dump ∧ Flow.read f.dump = .value f.present ∧
      ∃ vs, (look ms "mode" = .str "node" → rawViolations (.obj ms) = .ok vs) ∧
        rawViolations f.dump = .ok vs := by
  obtain ⟨-, hnodes, hedges⟩ := read_eq_value_iff.1 h
  obtain ⟨hnodesDump, hnodesBack⟩ := dumps_of_reads Node.dump_of_read (reads_itemsIn hnodes)
  obtain ⟨hedgesDump, hedgesBack⟩ := dumps_of_reads Edge.dump_of_read (reads_itemsIn hedges)
  refine ⟨.flow hnodesDump hedgesDump, ?_,
    violations ((Form.itemsIn "nodes" (.obj ms)).filterMap fetchSettings?), fun hmode => ?_, ?_⟩
  · exact read_eq_value_iff.2 ⟨Or.inl ⟨_, rfl, rfl⟩,
      Or.inl ⟨_, rfl, list_eq_value_iff.2 ⟨_, rfl, hnodesBack⟩⟩,
      Or.inl ⟨_, rfl, list_eq_value_iff.2 ⟨_, rfl, hedgesBack⟩⟩⟩
  · simp only [rawViolations, hmode, rawSettings_of_gives hnodes]
    rfl
  · rw [← violations_congr (nodeFaults_of_dumps hnodesDump)]
    rfl

/-- A flow that is read from a graph with finite numbers and whole names is dumped as the graph
stands, member by member; the dump is read as a flow with the same dump again, and it has the
violations of the graph. This holds of every such graph in which no value that is passed on is too
high, and any other one has no dump at all. -/
theorem dump_of_graph (x : Json.Dumper) {g : Json} {graph : Graph}
    (hmode : Mode.ofGraph g = .ok .flow) (hfinite : g.allFinite = true)
    (hnamed : g.allNamed = true) (hread : Graph.read g = .ok graph) :
    (IsLow g → ∃ d again vs, graph.write x = .ok d ∧ FlowDumps g d ∧ Graph.read d = .ok again ∧
      again.write x = .ok d ∧ rawViolations g = .ok vs ∧ rawViolations d = .ok vs) ∧
    (¬ IsLow g → graph.write x = .error .notWritable) := by
  obtain ⟨f, hflow, rfl⟩ := Graph.read_eq_flow hmode hread
  obtain ⟨ms, rfl, hnode⟩ := Mode.ofGraph_eq_ok_iff.1 hmode
  obtain ⟨hdumps, hback, vs, hbefore, hafter⟩ := dump_of_read hflow
  have hplain := isPlain_of_read ⟨hfinite, hnamed⟩ hflow
  rw [IsLow, passedOn_of_read hflow]
  constructor
  · intro hlow
    have hagain : (Graph.flow f.present).write x = .ok f.dump := by
      rw [Graph.write_of_low hplain.present (low_present hlow), dump_present]
    exact ⟨f.dump, .flow f.present, vs, Graph.write_of_low hplain hlow, hdumps,
      Graph.read_of_flow rfl hback, hagain, hbefore hnode, hafter⟩
  · exact Graph.write_of_not_low hplain

def joinedFlow : Json :=
  .obj [("mode", .str "node"), ("version", .int 2),
    ("nodes", .arr [.obj [("id", .str "a"), ("label", .null), ("color", .str "red"),
        ("type", .str "math"), ("position", .obj [("x", .double .one), ("y", .double .zero)]),
        ("data", .obj [("v", .arr [.null, .obj [("w", .null)]])])],
      .obj [("id", .str "b"), ("type", .str "api_fetch"), ("position", .null)]]),
    ("edges", .arr [.obj [("source", .str "a"), ("handle", .null), ("target", .str "b"),
      ("weight", .int 1)]])]

def dumpedJoinedFlow : Json :=
  .obj [("mode", .str "node"),
    ("nodes", .arr [.obj [("id", .str "a"), ("type", .str "math"),
        ("data", .obj [("v", .arr [.null, .obj [("w", .null)]])]),
        ("position", .obj [("x", .double .one), ("y", .double .zero)]), ("color", .str "red")],
      .obj [("id", .str "b"), ("type", .str "api_fetch"), ("data", .obj [])]]),
    ("edges", .arr [.obj [("source", .str "a"), ("target", .str "b"), ("weight", .int 1)]])]

theorem dump_of_graph_joinedFlow : Mode.ofGraph joinedFlow = .ok .flow ∧
    joinedFlow.allFinite = true ∧ joinedFlow.allNamed = true ∧ IsLow joinedFlow ∧
    ∃ graph d again, Graph.read joinedFlow = .ok graph ∧ graph.write .strict = .ok d ∧
      FlowDumps joinedFlow d ∧ d = dumpedJoinedFlow ∧ Graph.read d = .ok again ∧
      again.write .strict = .ok d ∧ rawViolations d = .ok [FetchFault.noUrl.report 0] := by
  have hread : Graph.read joinedFlow = .ok (.flow
      ⟨[⟨"a", "math", [("v", .arr [.null, .obj [("w", .null)]])], some ⟨.one, .zero⟩,
        [("label", .null), ("color", .str "red")]⟩, ⟨"b", "api_fetch", [], none, []⟩],
      [⟨"a", "b", [("handle", .null), ("weight", .int 1)]⟩]⟩) := rfl
  have hlow : IsLow joinedFlow := by
    unfold IsLow
    decide +kernel
  obtain ⟨d, again, vs, hwrite, hdumps, hback, hagain, hbefore, hafter⟩ :=
    (dump_of_graph .strict rfl rfl rfl hread).1 hlow
  have hd : d = dumpedJoinedFlow := Except.ok.inj (hwrite.symm.trans rfl)
  have hvs : vs = [FetchFault.noUrl.report 0] := Except.ok.inj (hbefore.symm.trans rfl)
  exact ⟨rfl, rfl, rfl, hlow, _, d, again, hread, hwrite, hdumps, hd, hback, hagain, hvs ▸ hafter⟩

theorem height_nested (n : Nat) : (Service.nested n).height = n + 1 := by
  induction n with
  | zero => rfl
  | succ n ih => rw [Service.nested, height, itemsHeight, itemsHeight, ih, Nat.max_zero]

theorem every_nested {leaf : Json → Bool} {name : Text → Bool} (n : Nat) :
    (Service.nested n).every leaf name = true := by
  induction n with
  | zero => rfl
  | succ n ih => rw [Service.nested, every, itemsEvery, itemsEvery, ih, Bool.and_true]

def deepFlow (n : Nat) : Flow := ⟨[⟨"a", "input", [("v", Service.nested n)], none, []⟩], []⟩

theorem read_deepGraph (n : Nat) : Graph.read (Service.deepGraph n) = .ok (.flow (deepFlow n)) :=
  rfl

theorem allFinite_deepGraph (n : Nat) : (Service.deepGraph n).allFinite = true := by
  simp [Service.deepGraph, allFinite, every, itemsEvery, membersEvery, memberEvery, isFiniteLeaf,
    every_nested]

theorem allNamed_deepGraph (n : Nat) : (Service.deepGraph n).allNamed = true := by
  simp [Service.deepGraph, allNamed, every, itemsEvery, membersEvery, memberEvery, every_nested,
    Text.isTorn]

theorem not_low_deepFlow {n : Nat} (h : maxHeight ≤ n) :
    ¬ ∀ v ∈ (deepFlow n).values, v.height ≤ maxHeight := by
  intro hlow
  have hheight := hlow (Service.nested n) List.mem_cons_self
  rw [height_nested] at hheight
  omega

/-- A graph with finite numbers and whole names is read as a flow that has no dump. -/
theorem not_written_deepGraph : Mode.ofGraph (Service.deepGraph 299) = .ok .flow ∧
    (Service.deepGraph 299).allFinite = true ∧ (Service.deepGraph 299).allNamed = true ∧
    ∃ graph, Graph.read (Service.deepGraph 299) = .ok graph ∧
      ∀ x : Json.Dumper, graph.write x = .error .notWritable :=
  ⟨rfl, allFinite_deepGraph 299, allNamed_deepGraph 299, .flow (deepFlow 299), read_deepGraph 299,
    fun _ => Graph.write_of_not_low
      (isPlain_of_read ⟨allFinite_deepGraph 299, allNamed_deepGraph 299⟩ rfl)
      (not_low_deepFlow (by decide))⟩

end Flow

end StrategyDesk
